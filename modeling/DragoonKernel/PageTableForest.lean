import DragoonKernel.Library.TableTree
import DragoonKernel.PageTableSpec

/-!
Page-table trees as forests of allocator pages. Linking a new table or writing a
page descriptor keeps the forest, and only the second changes a translation.
-/

namespace DragoonKernel

def tableAt (memory : Memory) (root : Nat) (path : List (Fin 512)) : Option Nat :=
  TableTree.descend (childTable memory) root path

/-- The trees may share the subtree below entry 0 and nothing else. -/
def SharedPath (path : List (Fin 512)) : Prop := path.head? = some 0

structure Forest (mm : Mm) (roots : Set Nat) : Prop where
  owned : ∀ root ∈ roots, ∀ path table, path.length ≤ 3 →
    tableAt mm.memory root path = some table → TablePage mm table
  partitioned : TableTree.Partitioned (childTable mm.memory) 3 roots SharedPath
  rootTables : ∀ root ∈ roots, ∀ index,
    hasBit (readEntry mm.memory root index) pteValid = true →
    hasBit (readEntry mm.memory root index) pteTable = true

theorem Forest.rootPage {mm : Mm} {roots : Set Nat} (forest : Forest mm roots) {root : Nat}
    (member : root ∈ roots) : TablePage mm root :=
  forest.owned root member [] root (by decide) rfl

theorem Forest.unique {mm : Mm} {roots : Set Nat} (forest : Forest mm roots) {root table : Nat}
    (member : root ∈ roots) {path other : List (Fin 512)} (short : path.length ≤ 3)
    (bound : other.length ≤ 3) (found : tableAt mm.memory root path = some table)
    (same : tableAt mm.memory root other = some table) : path = other :=
  (forest.partitioned root member root member path other table short bound found same).1

def SameTables (memory after : Memory) (roots : Set Nat) : Prop :=
  ∀ root ∈ roots, ∀ path, path.length ≤ 3 → tableAt after root path = tableAt memory root path

theorem Forest.sameTables {mm after : Mm} {roots kept : Set Nat} (forest : Forest mm roots)
    (subset : kept ⊆ roots) (same : SameTables mm.memory after.memory kept)
    (pages : ∀ root ∈ kept, ∀ path table, path.length ≤ 3 →
      tableAt mm.memory root path = some table → TablePage after table)
    (entries : ∀ root ∈ kept, ∀ index,
      readEntry after.memory root index = readEntry mm.memory root index) :
    Forest after kept := by
  refine ⟨?_, ?_, ?_⟩
  · intro root member path table short found
    rw [same root member path short] at found
    exact pages root member path table short found
  · intro first firstRoot second secondRoot path other table short bound found also
    rw [← tableAt, same first firstRoot path short] at found
    rw [← tableAt, same second secondRoot other bound] at also
    exact forest.partitioned first (subset firstRoot) second (subset secondRoot) path other table
      short bound found also
  · intro root member index valid
    rw [entries root member] at valid ⊢
    exact forest.rootTables root (subset member) index valid

def walkPath (vaddr : Nat) : Nat → List (Fin 512)
  | 0 => []
  | level + 1 => walkPath vaddr level ++ [tableIndex vaddr (39 - 9 * level)]

@[simp] theorem walkPath_length (vaddr level : Nat) : (walkPath vaddr level).length = level := by
  induction level with
  | zero => rfl
  | succ level ih => simp [walkPath, ih]

theorem walkFrom_congr {memory after : Memory} {vaddr root : Nat}
    (low : ∀ path table, path.length ≤ 3 → tableAt memory root path = some table →
      table < 2 ^ 48)
    (same : ∀ level table, level ≤ 3 → tableAt memory root (walkPath vaddr level) = some table →
      readEntry after table (tableIndex vaddr (39 - 9 * level)) =
          readEntry memory table (tableIndex vaddr (39 - 9 * level)) ∨
        walkFrom after vaddr (3 - level) table = walkFrom memory vaddr (3 - level) table) :
    ∀ height table, height ≤ 3 → tableAt memory root (walkPath vaddr (3 - height)) = some table →
      walkFrom after vaddr height table = walkFrom memory vaddr height table := by
  intro height
  induction height with
  | zero =>
      intro table _ located
      rcases same 3 table (by omega) located with entry | done
      · simp only [Nat.reduceMul, Nat.reduceSub] at entry
        simp only [walkFrom, entry]
      · exact done
  | succ height ih =>
      intro table bound located
      have shift : 39 - 9 * (3 - (height + 1)) = 12 + 9 * (height + 1) := by omega
      rcases same (3 - (height + 1)) table (by omega) located with entry | done
      · rw [shift] at entry
        simp only [walkFrom, entry]
        split
        · rfl
        · rename_i valid
          simp only [Bool.not_eq_true', Bool.not_eq_false] at valid
          split
          · rename_i isTable
            have step := TableTree.descend_snoc_some located
              (childTable_eq_some.mpr ⟨valid, isTable, rfl⟩)
            have path : walkPath vaddr (3 - height) = walkPath vaddr (3 - (height + 1)) ++
                [tableIndex vaddr (12 + 9 * (height + 1))] := by
              rw [show 3 - height = 3 - (height + 1) + 1 by omega, walkPath, shift]
            rw [← path] at step
            rw [outputAddress_eq_tableAddress (low _ _ (by simp) step)]
            exact ih _ (by omega) step
          · rfl
      · rwa [show 3 - (3 - (height + 1)) = height + 1 by omega] at done

theorem walk_congr {memory after : Memory} {vaddr root : Nat}
    (low : ∀ path table, path.length ≤ 3 → tableAt memory root path = some table →
      table < 2 ^ 48)
    (same : ∀ level table, level ≤ 3 → tableAt memory root (walkPath vaddr level) = some table →
      readEntry after table (tableIndex vaddr (39 - 9 * level)) =
          readEntry memory table (tableIndex vaddr (39 - 9 * level)) ∨
        walkFrom after vaddr (3 - level) table = walkFrom memory vaddr (3 - level) table) :
    walk after root vaddr = walk memory root vaddr := by
  unfold walk
  split
  · exact walkFrom_congr low same 3 root (by omega) rfl
  · rfl

@[simp] theorem hasBit_zero (mask : Word) : hasBit 0#64 mask = false := by
  simp [hasBit]

theorem walkFrom_empty {memory : Memory} {table : Nat}
    (empty : ∀ index, readEntry memory table index = 0) (vaddr height : Nat) :
    walkFrom memory vaddr height table = none := by
  cases height <;> simp [walkFrom, empty]

theorem walkFrom_invalid {memory : Memory} {table vaddr height : Nat}
    (invalid : hasBit (readEntry memory table (tableIndex vaddr (12 + 9 * (height + 1))))
      pteValid = false) : walkFrom memory vaddr (height + 1) table = none := by
  simp [walkFrom, invalid]

theorem walkFrom_child {memory : Memory} {table next vaddr height : Nat} (low : next < 2 ^ 48)
    (pointer : childTable memory table (tableIndex vaddr (12 + 9 * (height + 1))) = some next) :
    walkFrom memory vaddr (height + 1) table = walkFrom memory vaddr height next := by
  obtain ⟨valid, isTable, address⟩ := childTable_eq_some.mp pointer
  simp only [walkFrom, valid, isTable, Bool.not_true, Bool.false_eq_true, if_false, if_true]
  rw [outputAddress_eq_tableAddress (by rw [address]; exact low), address]

/-- `after` is `mm` with the zeroed page `fresh` linked at an entry of `table`. -/
structure NewTable (mm after : Mm) (table : Nat) (slot : Fin 512) (fresh : Nat) : Prop where
  isNew : ¬TablePage mm fresh
  page : TablePage after fresh
  pointer : readEntry after.memory table slot = tableEntry fresh
  empty : ∀ index, readEntry after.memory fresh index = 0
  frame : ∀ other index, TablePage mm other → ¬(other = table ∧ index = slot) →
    readEntry after.memory other index = readEntry mm.memory other index
  keeps : ∀ other, TablePage mm other → TablePage after other

theorem take_run_readEntry {mm : Mm} {start pages table : Nat}
    (free : ∀ index, start ≤ index → index < start + pages → mm.isUsed index = false)
    (page : TablePage mm table) (slot : Fin 512) :
    readEntry (mm.take start pages).memory table slot = readEntry mm.memory table slot := by
  obtain ⟨position, _, rfl, used⟩ := page
  have outside : ¬(start ≤ position ∧ position < start + pages) := by
    rintro ⟨lower, upper⟩
    rw [free position lower upper] at used
    cases used
  rw [readEntry, pageAddress_div, take_memory, if_neg (by omega), readEntry, pageAddress_div]

theorem take_readEntry_other {mm : Mm} {index table : Nat} (unused : mm.isUsed index = false)
    (page : TablePage mm table) (slot : Fin 512) :
    readEntry (mm.take index 1).memory table slot = readEntry mm.memory table slot := by
  refine take_run_readEntry (fun query lower upper => ?_) page slot
  obtain rfl : query = index := by omega
  exact unused

theorem take_readEntry_fresh (mm : Mm) (index : Nat) (slot : Fin 512) :
    readEntry (mm.take index 1).memory (pageAddress index) slot = 0 := by
  rw [readEntry, pageAddress_div, take_memory, if_pos (by omega)]

theorem TablePage.take {mm : Mm} {table : Nat} (page : TablePage mm table) (start pages : Nat) :
    TablePage (mm.take start pages) table := by
  obtain ⟨position, bound, rfl, used⟩ := page
  exact ⟨position, bound, rfl, by simp [used]⟩

theorem not_tablePage_unused {mm : Mm} {index : Nat} (unused : mm.isUsed index = false) :
    ¬TablePage mm (pageAddress index) := by
  rintro ⟨position, _, same, used⟩
  rw [← pageAddress_inj same, unused] at used
  simp at used

theorem newTable_of_alloc {mm after : Mm} {table fresh : Nat} (slot : Fin 512)
    (page : TablePage mm table) (allocated : mm.pageAlloc = (after, some fresh)) :
    NewTable mm { after with memory := writeEntry after.memory table slot (tableEntry fresh) }
      table slot fresh := by
  obtain ⟨index, bound, unused, _, rfl, rfl⟩ := pageAlloc_some allocated
  have isNew := not_tablePage_unused unused
  have freshPage : TablePage (mm.take index 1) (pageAddress index) :=
    ⟨index, bound, rfl, by simp⟩
  constructor
  · exact isNew
  · exact freshPage
  · exact readEntry_write_same _ _ _ _
  · intro query
    rw [readEntry_write_other, take_readEntry_fresh]
    rintro ⟨sameFrame, _⟩
    exact isNew (freshPage.frame_inj page sameFrame ▸ page)
  · intro other query otherPage apart
    rw [readEntry_write_other, take_readEntry_other unused otherPage]
    rintro ⟨sameFrame, sameIndex⟩
    exact apart ⟨otherPage.frame_inj page sameFrame, sameIndex⟩
  · exact fun other otherPage => otherPage.take index 1

theorem NewTable.links {mm after : Mm} {table fresh : Nat} {slot : Fin 512}
    (new : NewTable mm after table slot fresh)
    (invalid : hasBit (readEntry mm.memory table slot) pteValid = false) :
    TableTree.Links (childTable mm.memory) (childTable after.memory) (TablePage mm)
      table slot fresh := by
  obtain ⟨index, bound, address, _⟩ := new.page
  have low := pageAddress_low bound
  constructor
  · exact childTable_of_invalid invalid
  · rw [childTable_eq_some, new.pointer, address]
    exact ⟨tableEntry_valid _, tableEntry_table _, tableAddress_tableEntry low.2 low.1⟩
  · intro query
    apply childTable_of_invalid
    rw [new.empty]
    exact hasBit_zero _
  · exact new.isNew
  · exact fun other query page apart => childTable_congr (new.frame other query page apart)

theorem sharedPath_append (path : List (Fin 512)) (index : Fin 512) (shared : SharedPath path) :
    SharedPath (path ++ [index]) := by
  simp only [SharedPath, List.head?_append] at shared ⊢
  simp [shared]

def BlockAt (memory : Memory) (root : Nat) (path : List (Fin 512)) (index : Fin 512) : Prop :=
  ∃ table, tableAt memory root path = some table ∧
    hasBit (readEntry memory table index) pteValid = true ∧
    hasBit (readEntry memory table index) pteTable = false

/-- `after` has the same translations as `mm`, with at most more empty tables. -/
structure SameWalks (mm after : Mm) (roots : Set Nat) : Prop where
  forest : Forest after roots
  walks : ∀ root ∈ roots, ∀ vaddr, walk after.memory root vaddr = walk mm.memory root vaddr
  rootEntries : ∀ root ∈ roots, ∀ index,
    hasBit (readEntry mm.memory root index) pteValid = true →
    readEntry after.memory root index = readEntry mm.memory root index
  located : ∀ root ∈ roots, ∀ path table, path.length ≤ 3 →
    tableAt mm.memory root path = some table → tableAt after.memory root path = some table
  blocks : ∀ root ∈ roots, ∀ path index, path.length ≤ 2 → BlockAt after.memory root path index →
    BlockAt mm.memory root path index

theorem SameWalks.refl {mm : Mm} {roots : Set Nat} (forest : Forest mm roots) :
    SameWalks mm mm roots :=
  ⟨forest, fun _ _ _ => rfl, fun _ _ _ _ => rfl, fun _ _ _ _ _ found => found,
    fun _ _ _ _ _ block => block⟩

theorem SameWalks.trans {first second third : Mm} {roots : Set Nat}
    (before : SameWalks first second roots) (later : SameWalks second third roots) :
    SameWalks first third roots := by
  constructor
  · exact later.forest
  · intro root member vaddr
    rw [later.walks root member, before.walks root member]
  · intro root member index valid
    have entry := before.rootEntries root member index valid
    rw [later.rootEntries root member index (entry ▸ valid), entry]
  · intro root member path table short found
    exact later.located root member path table short
      (before.located root member path table short found)
  · intro root member path index short block
    exact before.blocks root member path index short
      (later.blocks root member path index short block)

theorem Forest.link {mm after : Mm} {roots : Set Nat} (forest : Forest mm roots)
    {owner table fresh : Nat} {place : List (Fin 512)} {slot : Fin 512} (isRoot : owner ∈ roots)
    (located : tableAt mm.memory owner place = some table) (shallow : place.length < 3)
    (invalid : hasBit (readEntry mm.memory table slot) pteValid = false)
    (new : NewTable mm after table slot fresh) : Forest after roots := by
  have links := new.links invalid
  constructor
  · intro root member path query short found
    rcases TableTree.descend_link_any forest.partitioned links shallow isRoot located member
      (forest.owned root member) path short with old | ⟨linked, _⟩
    · rw [tableAt, old] at found
      exact new.keeps query (forest.owned root member path query short found)
    · rw [tableAt, linked, Option.some.injEq] at found
      exact found ▸ new.page
  · exact forest.partitioned.link sharedPath_append links shallow isRoot located forest.owned
  · intro root member index valid
    by_cases here : root = table ∧ index = slot
    · obtain ⟨rfl, rfl⟩ := here
      rw [new.pointer]
      exact tableEntry_table _
    · rw [new.frame root index (forest.rootPage member) here] at valid ⊢
      exact forest.rootTables root member index valid

theorem Forest.link_sameWalks {mm after : Mm} {roots : Set Nat} (forest : Forest mm roots)
    {owner table fresh : Nat} {place : List (Fin 512)} {slot : Fin 512} (isRoot : owner ∈ roots)
    (located : tableAt mm.memory owner place = some table) (shallow : place.length < 3)
    (invalid : hasBit (readEntry mm.memory table slot) pteValid = false)
    (new : NewTable mm after table slot fresh) : SameWalks mm after roots := by
  have links := new.links invalid
  constructor
  · exact forest.link isRoot located shallow invalid new
  · intro root member vaddr
    apply walk_congr fun path query short found => (forest.owned root member path query short found).low
    intro level query bound reached
    have page := forest.owned root member _ query (by simpa using bound) reached
    by_cases here : query = table ∧ tableIndex vaddr (39 - 9 * level) = slot
    · right
      obtain ⟨rfl, slotEq⟩ := here
      have path := (forest.partitioned root member owner isRoot _ place query (by simpa using bound)
        (by omega) reached located).1
      have depth : level < 3 := by
        have length := congrArg List.length path
        rw [walkPath_length] at length
        omega
      obtain ⟨height, heightEq⟩ : ∃ height, 3 - level = height + 1 := ⟨2 - level, by omega⟩
      have shift : 39 - 9 * level = 12 + 9 * (height + 1) := by omega
      rw [shift] at slotEq
      have before : walkFrom mm.memory vaddr (height + 1) query = none :=
        walkFrom_invalid (by rw [slotEq]; exact invalid)
      have later : walkFrom after.memory vaddr (height + 1) query =
          walkFrom after.memory vaddr height fresh :=
        walkFrom_child new.page.low (by rw [slotEq]; exact links.pointer)
      rw [heightEq, before, later]
      exact walkFrom_empty new.empty vaddr height
    · left
      exact new.frame query _ page here
  · intro root member index valid
    apply new.frame root index (forest.rootPage member)
    rintro ⟨rfl, rfl⟩
    simp [invalid] at valid
  · exact fun root member => links.descend_kept (forest.owned root member)
  · rintro root member path index short ⟨query, found, valid, isBlock⟩
    rcases TableTree.descend_link_any forest.partitioned links shallow isRoot located member
      (forest.owned root member) path (by omega) with old | ⟨linked, _⟩
    · rw [tableAt, old] at found
      have apart : ¬(query = table ∧ index = slot) := by
        rintro ⟨rfl, rfl⟩
        rw [new.pointer, tableEntry_table] at isBlock
        simp at isBlock
      have page := forest.owned root member path query (by omega) found
      rw [new.frame query index page apart] at valid isBlock
      exact ⟨query, found, valid, isBlock⟩
    · rw [tableAt, linked, Option.some.injEq] at found
      rw [← found, new.empty] at valid
      simp at valid

end DragoonKernel
