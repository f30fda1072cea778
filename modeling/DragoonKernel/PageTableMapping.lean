import DragoonKernel.PageTableForest

/-!
`mm_map_page` translates exactly one page and leaves all other addresses alone, or,
when a block descriptor or a missing table stops it, leaves all addresses alone.
-/

namespace DragoonKernel

def Mm.Exhausted (mm : Mm) : Prop := ∀ index < maxPages, mm.isUsed index = true

def Stopped (mm : Mm) (table : Nat) (index : Fin 512) : Prop :=
  (hasBit (readEntry mm.memory table index) pteValid = true ∧
    hasBit (readEntry mm.memory table index) pteTable = false) ∨
  (hasBit (readEntry mm.memory table index) pteValid = false ∧ mm.Exhausted)

theorem nextTable_none {mm after : Mm} {table : Nat} {index : Fin 512} {checkBlock : Bool}
    (failed : mm.nextTable table index checkBlock = (after, none)) :
    after = mm ∧ Stopped mm table index := by
  simp only [Mm.nextTable] at failed
  split at failed
  · rename_i valid
    split at failed
    · rename_i block
      simp only [Bool.and_eq_true, Bool.not_eq_true'] at block
      simp only [Prod.mk.injEq, and_true] at failed
      exact ⟨failed.symm, Or.inl ⟨valid, block.2⟩⟩
    · simp at failed
  · rename_i invalid
    split at failed
    · simp at failed
    · rename_i allocated missing
      simp only [Prod.mk.injEq, and_true] at failed
      subst failed
      obtain ⟨rfl, exhausted⟩ := pageAlloc_none missing
      exact ⟨rfl, Or.inr ⟨by simpa using invalid, exhausted⟩⟩

theorem nextTable_some {mm after : Mm} {roots : Set Nat} (forest : Forest mm roots)
    {owner table next : Nat} {place : List (Fin 512)} {index : Fin 512} {checkBlock : Bool}
    (isRoot : owner ∈ roots) (located : tableAt mm.memory owner place = some table)
    (shallow : place.length < 3) (checked : checkBlock = true ∨ place = [])
    (found : mm.nextTable table index checkBlock = (after, some next)) :
    SameWalks mm after roots ∧
      tableAt after.memory owner (place ++ [index]) = some next := by
  simp only [Mm.nextTable] at found
  split at found
  · rename_i valid
    split at found
    · simp at found
    · rename_i unblocked
      simp only [Prod.mk.injEq, Option.some.injEq] at found
      obtain ⟨rfl, rfl⟩ := found
      have isTable : hasBit (readEntry mm.memory table index) pteTable = true := by
        rcases checked with rfl | rfl
        · simpa using unblocked
        · have root : owner = table := by simpa [tableAt] using located
          subst root
          exact forest.rootTables _ isRoot index valid
      exact ⟨.refl forest, TableTree.descend_snoc_some located
        (childTable_eq_some.mpr ⟨valid, isTable, rfl⟩)⟩
  · rename_i invalid
    simp only [Bool.not_eq_true] at invalid
    split at found
    · rename_i allocated fresh allocation
      simp only [Prod.mk.injEq, Option.some.injEq] at found
      obtain ⟨rfl, rfl⟩ := found
      have new := newTable_of_alloc index (forest.owned owner isRoot place table (by omega) located)
        allocation
      have same := forest.link_sameWalks isRoot located shallow invalid new
      refine ⟨same, TableTree.descend_snoc_some ?_ (new.links invalid).pointer⟩
      exact same.located owner isRoot place table (by omega) located
    · simp at found

theorem walk_at {mm : Mm} {roots : Set Nat} (forest : Forest mm roots) {root : Nat}
    (member : root ∈ roots) {vaddr : Nat} (bound : vaddr < 2 ^ 48) {level table : Nat}
    (short : level ≤ 3) (located : tableAt mm.memory root (walkPath vaddr level) = some table) :
    walk mm.memory root vaddr = walkFrom mm.memory vaddr (3 - level) table := by
  induction level generalizing table with
  | zero =>
      obtain rfl : root = table := by simpa [tableAt, walkPath] using located
      rw [walk, if_pos bound]
  | succ level ih =>
      have low := (forest.owned root member _ table (by simpa using short) located).low
      simp only [tableAt, walkPath, TableTree.descend_snoc] at located
      obtain ⟨parent, above, pointer⟩ := Option.bind_eq_some_iff.mp located
      have height : 3 - level = 3 - (level + 1) + 1 := by omega
      have shift : 39 - 9 * level = 12 + 9 * (3 - (level + 1) + 1) := by omega
      rw [shift] at pointer
      rw [ih (by omega) above, height]
      exact walkFrom_child low pointer

theorem walk_of_leaf {mm : Mm} {roots : Set Nat} (forest : Forest mm roots) {root leaf : Nat}
    (member : root ∈ roots) {vaddr : Nat} (bound : vaddr < 2 ^ 48)
    (located : tableAt mm.memory root (walkPath vaddr 3) = some leaf) :
    walk mm.memory root vaddr = walkFrom mm.memory vaddr 0 leaf :=
  walk_at forest member bound (Nat.le_refl 3) located

/-- A stopped `mm_map_page` leaves the address unmapped, or mapped by a block. -/
theorem walk_of_stopped {mm : Mm} {roots : Set Nat} (forest : Forest mm roots) {root : Nat}
    (member : root ∈ roots) {vaddr : Nat} (bound : vaddr < 2 ^ 48) {level table : Nat}
    (shallow : level < 3) (located : tableAt mm.memory root (walkPath vaddr level) = some table)
    (stopped : Stopped mm table (tableIndex vaddr (39 - 9 * level))) {translation : Translation}
    (found : walk mm.memory root vaddr = some translation) :
    hasBit translation.attributes pteTable = false := by
  have height : 3 - level = 2 - level + 1 := by omega
  have shift : 39 - 9 * level = 12 + 9 * (2 - level + 1) := by omega
  rw [walk_at forest member bound (by omega) located, height] at found
  rw [shift] at stopped
  rcases stopped with ⟨valid, block⟩ | ⟨invalid, _⟩
  · simp only [walkFrom, valid, block, Bool.not_true, Bool.false_eq_true, if_false] at found
    split at found
    · cases found
    · obtain rfl := Option.some.inj found
      rw [hasBit_pteTable] at block ⊢
      rw [leafTranslation, BitVec.getLsbD_and, block, Bool.false_and]
  · rw [walkFrom_invalid invalid] at found
    cases found

theorem tableIndex_of_page {first second : Nat} (same : first / pageSize = second / pageSize)
    {shift : Nat} (above : 12 ≤ shift) : tableIndex first shift = tableIndex second shift := by
  have split (value : Nat) : value / 2 ^ shift = value / pageSize / 2 ^ (shift - 12) := by
    rw [Nat.div_div_eq_div_mul, show pageSize = 2 ^ 12 by rfl, ← Nat.pow_add]
    congr 2
    omega
  rw [tableIndex_eq_iff, split first, split second, same]

theorem walkPath_of_page {first second : Nat} (same : first / pageSize = second / pageSize)
    (level : Nat) (bound : level ≤ 3) : walkPath first level = walkPath second level := by
  induction level with
  | zero => rfl
  | succ level ih => rw [walkPath, walkPath, ih (by omega), tableIndex_of_page same (by omega)]

theorem page_of_walkPath {first second : Nat} (firstBound : first < 2 ^ 48)
    (secondBound : second < 2 ^ 48) (path : walkPath first 3 = walkPath second 3)
    (last : tableIndex first 12 = tableIndex second 12) : first / pageSize = second / pageSize := by
  simp only [walkPath, List.nil_append, List.cons_append, List.cons.injEq, and_true,
    tableIndex_eq_iff, Nat.reduceMul, Nat.reduceSub, Nat.reducePow] at path last
  simp only [pageSize]
  omega

structure LeafWrite (mm after : Mm) (leaf : Nat) (slot : Fin 512) (entry : Word) : Prop where
  written : readEntry after.memory leaf slot = entry
  frame : ∀ table index, TablePage mm table → ¬(table = leaf ∧ index = slot) →
    readEntry after.memory table index = readEntry mm.memory table index
  keeps : ∀ table, TablePage mm table → TablePage after table

theorem leafWrite_writeEntry {mm : Mm} {leaf : Nat} (page : TablePage mm leaf) (slot : Fin 512)
    (entry : Word) :
    LeafWrite mm { mm with memory := writeEntry mm.memory leaf slot entry } leaf slot entry := by
  constructor
  · exact readEntry_write_same _ _ _ _
  · intro table index other apart
    apply readEntry_write_other
    rintro ⟨sameFrame, sameIndex⟩
    exact apart ⟨other.frame_inj page sameFrame, sameIndex⟩
  · exact fun table other => other

theorem LeafWrite.paths_kept {mm after : Mm} {roots : Set Nat} (forest : Forest mm roots)
    {owner leaf root : Nat} {place : List (Fin 512)} {slot : Fin 512} {entry : Word}
    (isRoot : owner ∈ roots) (located : tableAt mm.memory owner place = some leaf)
    (deepest : place.length = 3) (write : LeafWrite mm after leaf slot entry)
    (member : root ∈ roots) (path : List (Fin 512)) (short : path.length ≤ 3) :
    tableAt after.memory root path = tableAt mm.memory root path := by
  apply TableTree.descend_congr _ path short
  intro other table above found index
  apply childTable_congr
  apply write.frame table index (forest.owned root member other table (by omega) found)
  rintro ⟨rfl, _⟩
  have same := (forest.partitioned root member owner isRoot other place table (by omega) (by omega)
    found located).1
  rw [same] at above
  omega

theorem LeafWrite.forest_kept {mm after : Mm} {roots : Set Nat} (forest : Forest mm roots)
    {owner leaf : Nat} {place : List (Fin 512)} {slot : Fin 512} {entry : Word}
    (isRoot : owner ∈ roots) (located : tableAt mm.memory owner place = some leaf)
    (deepest : place.length = 3) (write : LeafWrite mm after leaf slot entry) :
    Forest after roots ∧ ∀ root ∈ roots, ∀ index,
      readEntry after.memory root index = readEntry mm.memory root index := by
  have moved := fun root (member : root ∈ roots) =>
    write.paths_kept forest isRoot located deepest member
  have rootEntries : ∀ root ∈ roots, ∀ index,
      readEntry after.memory root index = readEntry mm.memory root index := by
    intro root member index
    apply write.frame root index (forest.rootPage member)
    rintro ⟨rfl, _⟩
    have same := (forest.partitioned root member owner isRoot [] place root (by simp) (by omega)
      rfl located).1
    rw [← same] at deepest
    simp at deepest
  refine ⟨forest.sameTables Set.Subset.rfl moved ?_ rootEntries, rootEntries⟩
  exact fun root member path table short found =>
    write.keeps table (forest.owned root member path table short found)

theorem LeafWrite.walk_other {mm after : Mm} {roots : Set Nat} (forest : Forest mm roots)
    {owner leaf root vaddr address : Nat} {entry : Word} (bound : vaddr < 2 ^ 48)
    (isRoot : owner ∈ roots)
    (located : tableAt mm.memory owner (walkPath vaddr 3) = some leaf)
    (write : LeafWrite mm after leaf (tableIndex vaddr 12) entry) (member : root ∈ roots)
    (apart : address / pageSize ≠ vaddr / pageSize ∨
      (root ≠ owner ∧ ¬SharedPath (walkPath vaddr 3))) :
    walk after.memory root address = walk mm.memory root address := by
  by_cases low : address < 2 ^ 48
  · apply walk_congr fun path table short found => (forest.owned root member path table short found).low
    intro level table short reached
    left
    apply write.frame table _ (forest.owned root member _ table (by simpa using short) reached)
    rintro ⟨rfl, slot⟩
    obtain ⟨path, sameRoot⟩ := forest.partitioned root member owner isRoot _ _ table
      (by simpa using short) (by simp) reached located
    have depth : level = 3 := by simpa using congrArg List.length path
    subst depth
    rcases apart with different | ⟨otherRoot, unshared⟩
    · exact different (page_of_walkPath low bound path slot)
    · rcases sameRoot with same | shared
      · exact otherRoot same
      · exact unshared (path ▸ shared)
  · rw [walk, walk, if_neg low, if_neg low]

theorem LeafWrite.walk_page {mm after : Mm} {roots : Set Nat} (forest : Forest mm roots)
    {owner leaf vaddr address : Nat} {entry : Word} (bound : vaddr < 2 ^ 48)
    (isRoot : owner ∈ roots)
    (located : tableAt mm.memory owner (walkPath vaddr 3) = some leaf)
    (write : LeafWrite mm after leaf (tableIndex vaddr 12) entry)
    (samePage : address / pageSize = vaddr / pageSize)
    (valid : hasBit entry pteValid = true) (isPage : hasBit entry pteTable = true) :
    walk after.memory owner address = some (leafTranslation entry address pageSize) := by
  have low : address < 2 ^ 48 := by
    simp only [pageSize] at samePage
    omega
  have kept := (write.forest_kept forest isRoot located (by simp)).1
  have reached : tableAt after.memory owner (walkPath address 3) = some leaf := by
    rw [walkPath_of_page samePage 3 (by omega),
      write.paths_kept forest isRoot located (by simp) isRoot _ (by simp)]
    exact located
  rw [walk_of_leaf kept isRoot low reached]
  simp only [walkFrom, tableIndex_of_page samePage (Nat.le_refl 12), write.written, valid, isPage,
    Bool.and_self, if_true]

inductive MapOutcome (mm after : Mm) (roots : Set Nat) (pgd vaddr : Nat) (entry : Word) : Prop
  | stopped (level table : Nat) : SameWalks mm after roots → level < 3 →
      tableAt after.memory pgd (walkPath vaddr level) = some table →
      Stopped after table (tableIndex vaddr (39 - 9 * level)) →
      MapOutcome mm after roots pgd vaddr entry
  | mapped (middle : Mm) (leaf : Nat) : SameWalks mm middle roots →
      tableAt middle.memory pgd (walkPath vaddr 3) = some leaf →
      LeafWrite middle after leaf (tableIndex vaddr 12) entry →
      MapOutcome mm after roots pgd vaddr entry

theorem mapPage_outcome {mm : Mm} {roots : Set Nat} (forest : Forest mm roots) {pgd : Nat}
    (isRoot : pgd ∈ roots) (vaddr paddr : Nat) (flags : Word) :
    MapOutcome mm (mm.mapPage pgd vaddr paddr flags) roots pgd vaddr (pageEntry paddr flags) := by
  unfold Mm.mapPage
  split
  · rename_i atL0 failed
    obtain ⟨rfl, reason⟩ := nextTable_none failed
    exact .stopped 0 pgd (.refl forest) (by decide) rfl reason
  · rename_i first l1 found
    have reachL0 : tableAt mm.memory pgd (walkPath vaddr 0) = some pgd := rfl
    obtain ⟨sameL1, reachL1⟩ : SameWalks mm first roots ∧
        tableAt first.memory pgd (walkPath vaddr 1) = some l1 :=
      nextTable_some forest isRoot reachL0 (by simp) (Or.inr rfl) found
    split
    · rename_i failed
      obtain ⟨rfl, reason⟩ := nextTable_none failed
      exact .stopped 1 l1 sameL1 (by decide) reachL1 reason
    · rename_i second l2 found
      obtain ⟨sameL2, reachL2⟩ : SameWalks first second roots ∧
          tableAt second.memory pgd (walkPath vaddr 2) = some l2 :=
        nextTable_some sameL1.forest isRoot reachL1 (by simp) (Or.inl rfl) found
      have throughL2 := sameL1.trans sameL2
      split
      · rename_i failed
        obtain ⟨rfl, reason⟩ := nextTable_none failed
        exact .stopped 2 l2 throughL2 (by decide) reachL2 reason
      · rename_i third l3 found
        obtain ⟨sameL3, reachL3⟩ : SameWalks second third roots ∧
            tableAt third.memory pgd (walkPath vaddr 3) = some l3 :=
          nextTable_some throughL2.forest isRoot reachL2 (by simp) (Or.inl rfl) found
        have page := sameL3.forest.owned pgd isRoot _ l3 (by simp) reachL3
        exact .mapped third l3 (throughL2.trans sameL3) reachL3 (leafWrite_writeEntry page _ _)

theorem pageEntry_valid {flags : Word} (lowBits : flags &&& 3 = 3) (paddr : Nat) :
    hasBit (pageEntry paddr flags) pteValid = true ∧
      hasBit (pageEntry paddr flags) pteTable = true := by
  have first := congrArg (fun word => word.getLsbD 0) lowBits
  have second := congrArg (fun word => word.getLsbD 1) lowBits
  simp only [BitVec.getLsbD_and] at first second
  rw [hasBit_pteValid, hasBit_pteTable, pageEntry, BitVec.getLsbD_or, BitVec.getLsbD_or]
  simp_all

theorem pageEntry_eq (paddr : Nat) (flags : Word) :
    pageEntry paddr flags = BitVec.ofNat 64 (paddr / pageSize * pageSize) ||| flags := by
  have masked : BitVec.ofNat 64 paddr &&& ~~~0xFFF#64 =
      BitVec.ofNat 64 (paddr / pageSize * pageSize) := by
    apply BitVec.eq_of_getLsbD_eq
    intro position bound
    rw [BitVec.getLsbD_and, getLsbD_pageMask _ bound, BitVec.getLsbD_ofNat, BitVec.getLsbD_ofNat,
      show pageSize = 2 ^ 12 by rfl, Nat.testBit_mul_two_pow, Nat.testBit_div_two_pow]
    by_cases below : position < 12
    · simp [show ¬12 ≤ position by omega]
    · simp [show 12 ≤ position by omega, show position - 12 + 12 = position by omega]
  rw [pageEntry, masked]

theorem leafTranslation_pageEntry {paddr : Nat} {flags : Word} (bound : paddr < 2 ^ 48)
    (attributes : flags &&& outputMask = 0) (address : Nat) :
    leafTranslation (pageEntry paddr flags) address pageSize =
      ⟨paddr / pageSize * pageSize + address % pageSize, flags⟩ := by
  have aligned : paddr / pageSize * pageSize % pageSize = 0 := Nat.mul_mod_left _ _
  have low : paddr / pageSize * pageSize < 2 ^ 48 := by
    simp only [pageSize]
    omega
  obtain ⟨output, rest⟩ := descriptor_split ⟨aligned, low⟩ attributes
  rw [leafTranslation, pageEntry_eq, output, rest, Nat.mul_div_cancel _ (by decide)]

/-- A tree with one path to each table, all tables marked by the allocator,
no block descriptors at L0. -/
structure WellFormedTree (mm : Mm) (pgd : Nat) : Prop where
  owned : ∀ path table, path.length ≤ 3 → tableAt mm.memory pgd path = some table →
    TablePage mm table
  reachedOnce : ∀ path other table, path.length ≤ 3 → other.length ≤ 3 →
    tableAt mm.memory pgd path = some table → tableAt mm.memory pgd other = some table →
    path = other
  rootTables : ∀ index, hasBit (readEntry mm.memory pgd index) pteValid = true →
    hasBit (readEntry mm.memory pgd index) pteTable = true

theorem wellFormedTree_iff (mm : Mm) (pgd : Nat) : WellFormedTree mm pgd ↔ Forest mm {pgd} := by
  constructor
  · intro tree
    refine ⟨?_, ?_, ?_⟩
    · rintro root rfl
      exact tree.owned
    · rintro first rfl second rfl path other table short bound found same
      exact ⟨tree.reachedOnce path other table short bound found same, Or.inl rfl⟩
    · rintro root rfl
      exact tree.rootTables
  · intro forest
    refine ⟨forest.owned pgd rfl, ?_, forest.rootTables pgd rfl⟩
    intro path other table short bound found same
    exact forest.unique rfl short bound found same

theorem emptyTable_wellFormed {mm : Mm} {pgd : Nat} (page : TablePage mm pgd)
    (empty : ∀ index, readEntry mm.memory pgd index = 0) : WellFormedTree mm pgd := by
  have childless : ∀ index, childTable mm.memory pgd index = none := by
    intro index
    apply childTable_of_invalid
    rw [empty]
    exact hasBit_zero _
  have only : ∀ path table, tableAt mm.memory pgd path = some table → path = [] ∧ table = pgd := by
    intro path table found
    cases path with
    | nil => exact ⟨rfl, by simpa [tableAt] using found.symm⟩
    | cons index rest => simp [tableAt, TableTree.descend, childless] at found
  constructor
  · intro path table _ found
    exact (only path table found).2 ▸ page
  · intro path other table _ _ found same
    rw [(only path table found).1, (only other table same).1]
  · intro index valid
    rw [empty] at valid
    exact absurd valid (by simp)

def MapsPage (mm after : Mm) (pgd vaddr paddr : Nat) (flags : Word) : Prop :=
  (∀ address, address / pageSize = vaddr / pageSize → walk after.memory pgd address =
    some ⟨paddr / pageSize * pageSize + address % pageSize, flags⟩) ∧
  (∀ address, address / pageSize ≠ vaddr / pageSize →
    walk after.memory pgd address = walk mm.memory pgd address)

def BlockOnPath (memory : Memory) (pgd vaddr : Nat) : Prop :=
  ∃ level < 3, BlockAt memory pgd (walkPath vaddr level) (tableIndex vaddr (39 - 9 * level))

def TableMissing (memory : Memory) (pgd vaddr : Nat) : Prop :=
  ∃ level < 3, ∃ table, tableAt memory pgd (walkPath vaddr level) = some table ∧
    hasBit (readEntry memory table (tableIndex vaddr (39 - 9 * level))) pteValid = false

def MapRefused (mm after : Mm) (pgd vaddr : Nat) : Prop :=
  (BlockOnPath mm.memory pgd vaddr ∨
    (TableMissing after.memory pgd vaddr ∧ after.Exhausted)) ∧
  ∀ address, walk after.memory pgd address = walk mm.memory pgd address

/-- `mm_map_page` is exact for all attribute flags of a page descriptor. -/
theorem mapPage_exact (mm : Mm) (pgd vaddr paddr : Nat) (flags : Word)
    (tree : WellFormedTree mm pgd) (vaddrBound : vaddr < 2 ^ 48) (paddrBound : paddr < 2 ^ 48)
    (lowBits : flags &&& 3 = 3) (attributes : flags &&& outputMask = 0) :
    WellFormedTree (mm.mapPage pgd vaddr paddr flags) pgd ∧
      (MapsPage mm (mm.mapPage pgd vaddr paddr flags) pgd vaddr paddr flags ∨
        MapRefused mm (mm.mapPage pgd vaddr paddr flags) pgd vaddr) := by
  have forest := (wellFormedTree_iff mm pgd).mp tree
  have isRoot : pgd ∈ ({pgd} : Set Nat) := rfl
  rcases mapPage_outcome forest isRoot vaddr paddr flags with
    ⟨level, table, same, shallow, reached, reason⟩ | ⟨middle, leaf, same, located, write⟩
  · refine ⟨(wellFormedTree_iff _ _).mpr same.forest, Or.inr ⟨?_, same.walks pgd isRoot⟩⟩
    rcases reason with ⟨valid, block⟩ | ⟨invalid, exhausted⟩
    · left
      refine ⟨level, shallow, same.blocks pgd isRoot _ _ ?_ ⟨table, reached, valid, block⟩⟩
      rw [walkPath_length]
      omega
    · exact Or.inr ⟨⟨level, shallow, table, reached, invalid⟩, exhausted⟩
  · have kept := (write.forest_kept same.forest isRoot located (by simp)).1
    have entry := pageEntry_valid lowBits paddr
    refine ⟨(wellFormedTree_iff _ _).mpr kept, Or.inl ⟨?_, ?_⟩⟩
    · intro address samePage
      rw [write.walk_page same.forest vaddrBound isRoot located samePage entry.1 entry.2,
        leafTranslation_pageEntry paddrBound attributes]
    · intro address different
      rw [write.walk_other same.forest vaddrBound isRoot located isRoot (Or.inl different)]
      exact same.walks pgd isRoot address

def emptyRootMm : Mm := mmInit (ramBase + pageSize) fun _ _ => 0

theorem emptyRootMm_wellFormed : WellFormedTree emptyRootMm (pageAddress 0) := by
  apply emptyTable_wellFormed
  · refine ⟨0, by decide, rfl, ?_⟩
    rw [emptyRootMm, mmInit_isUsed]
    decide
  · intro index
    rfl

theorem mapPage_exact_private_page :
    WellFormedTree (emptyRootMm.mapPage (pageAddress 0) (2 ^ 39) 0x40005678 pageNormal)
        (pageAddress 0) ∧
      (MapsPage emptyRootMm (emptyRootMm.mapPage (pageAddress 0) (2 ^ 39) 0x40005678 pageNormal)
          (pageAddress 0) (2 ^ 39) 0x40005678 pageNormal ∨
        MapRefused emptyRootMm
          (emptyRootMm.mapPage (pageAddress 0) (2 ^ 39) 0x40005678 pageNormal)
          (pageAddress 0) (2 ^ 39)) :=
  mapPage_exact emptyRootMm (pageAddress 0) (2 ^ 39) 0x40005678 pageNormal emptyRootMm_wellFormed
    (by decide) (by decide) (by decide) (by decide)

/-- Flags with a bit in the address field move the page: the low two bits alone do not
make `flags` attributes. -/
theorem mapPage_flags_in_address :
    ¬∀ (mm : Mm) (pgd vaddr paddr : Nat) (flags : Word), WellFormedTree mm pgd →
      vaddr < 2 ^ 48 → paddr < 2 ^ 48 → flags &&& 3 = 3 →
      WellFormedTree (mm.mapPage pgd vaddr paddr flags) pgd ∧
        (MapsPage mm (mm.mapPage pgd vaddr paddr flags) pgd vaddr paddr flags ∨
          MapRefused mm (mm.mapPage pgd vaddr paddr flags) pgd vaddr) := by
  intro exactForAll
  have moved : walk (emptyRootMm.mapPage (pageAddress 0) 0 0 0x1003).memory (pageAddress 0) 0 =
      some ⟨0x1000, 3⟩ := by decide +kernel
  have before : walk emptyRootMm.memory (pageAddress 0) 0 = none := by decide +kernel
  rcases (exactForAll emptyRootMm (pageAddress 0) 0 0 0x1003 emptyRootMm_wellFormed (by decide)
    (by decide) (by decide)).2 with maps | refused
  · have expected := maps.1 0 rfl
    rw [moved] at expected
    simp at expected
  · have unchanged := refused.2 0
    rw [moved, before] at unchanged
    simp at unchanged

end DragoonKernel
