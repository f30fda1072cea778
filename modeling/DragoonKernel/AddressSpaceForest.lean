import DragoonKernel.AddressSpaceSpec
import DragoonKernel.PageTableMapping

/-!
The trees of the kernel and of all address spaces as one forest: the boot tables form
it, `vm_create` adds a root, and freeing private tables of one root keeps the others.
-/

namespace DragoonKernel

theorem readEntry_mapBlocks_other (memory : Memory) {table other : Nat} (base : Nat)
    (attributes : Word) (indices : List Nat) (apart : other / pageSize ≠ table / pageSize)
    (slot : Fin 512) :
    readEntry (mapBlocks memory table base attributes indices) other slot =
      readEntry memory other slot := by
  induction indices generalizing memory with
  | nil => rfl
  | cons index rest ih =>
      rw [mapBlocks, List.foldl_cons, ← mapBlocks, ih, readEntry_write_other]
      exact fun same => apart same.1

theorem readEntry_write (memory : Memory) (table other : Nat) (index slot : Fin 512)
    (entry : Word) :
    readEntry (writeEntry memory table index entry) other slot =
      if other / pageSize = table / pageSize ∧ slot = index then entry
      else readEntry memory other slot := by
  split
  · rename_i here
    obtain ⟨sameFrame, rfl⟩ := here
    simp only [readEntry, writeEntry, sameFrame, Function.update_self]
  · rename_i apart
    exact readEntry_write_other memory entry apart

theorem readEntry_mapBlocks (memory : Memory) (table base : Nat) (attributes : Word)
    (indices : List Nat) (inside : ∀ index ∈ indices, index < 512) (slot : Fin 512) :
    readEntry (mapBlocks memory table base attributes indices) table slot =
      if slot.val ∈ indices then BitVec.ofNat 64 (base + slot.val * 0x200000) ||| attributes
      else readEntry memory table slot := by
  induction indices generalizing memory with
  | nil => rfl
  | cons index rest ih =>
      have same : slot = Fin.ofNat 512 index ↔ slot.val = index := by
        rw [Fin.ext_iff, Fin.val_ofNat, Nat.mod_eq_of_lt (inside index List.mem_cons_self)]
      rw [mapBlocks, List.foldl_cons, ← mapBlocks,
        ih _ fun other listed => inside other (List.mem_cons_of_mem index listed), readEntry_write]
      simp only [true_and, same, List.mem_cons]
      by_cases here : slot.val = index
      · rw [if_pos (Or.inl here), if_pos here, here, ite_self]
      · simp only [here, false_or, if_false]

theorem readEntry_clearTable (memory : Memory) (table other : Nat) (slot : Fin 512) :
    readEntry (clearTable memory table) other slot =
      if other / pageSize = table / pageSize then 0 else readEntry memory other slot := by
  have single : (table / pageSize ≤ other / pageSize ∧
      other / pageSize < table / pageSize + 1) ↔ other / pageSize = table / pageSize := by omega
  simp only [readEntry, clearTable, zeroPages, single]
  split <;> rfl

theorem KernelTables.page {image : KernelImage} (tables : KernelTables image) {mm : Mm}
    (reserved : ∀ index < kernelPages image.stackTop, mm.isUsed index = true) {table : Nat}
    (listed : table ∈ [tables.pgdTable, tables.pudTable, tables.pmdTableDev, tables.pmdTableRam]) :
    TablePage mm table := by
  obtain ⟨index, bound, address⟩ := tables.placed table listed
  exact ⟨index, Nat.lt_of_lt_of_le bound image.kernelPages_le, address, reserved index bound⟩

theorem KernelTables.frame_inj {image : KernelImage} (tables : KernelTables image)
    {first second : Nat}
    (firstListed : first ∈
      [tables.pgdTable, tables.pudTable, tables.pmdTableDev, tables.pmdTableRam])
    (secondListed : second ∈
      [tables.pgdTable, tables.pudTable, tables.pmdTableDev, tables.pmdTableRam])
    (same : first / pageSize = second / pageSize) : first = second := by
  obtain ⟨index, _, rfl⟩ := tables.placed first firstListed
  obtain ⟨position, _, rfl⟩ := tables.placed second secondListed
  simp only [pageAddress_div] at same
  rw [show index = position by omega]

/-- The tables map blocks of 2 MB from 0 and from 1 GB on. -/
theorem blockAddress_low {base : Nat} (slot : Fin 512) (whole : base = 0 ∨ base = 0x40000000) :
    (base + slot.val * 0x200000) % pageSize = 0 ∧ base + slot.val * 0x200000 < 2 ^ 48 := by
  unfold pageSize
  omega

structure BootEntries {image : KernelImage} (tables : KernelTables image) (memory : Memory) :
    Prop where
  pgd : ∀ slot, readEntry memory tables.pgdTable slot =
    if slot = 0 then tableEntry tables.pudTable else 0
  pud : ∀ slot, readEntry memory tables.pudTable slot =
    if slot = 0 then tableEntry tables.pmdTableDev
    else if slot = 1 then tableEntry tables.pmdTableRam else 0
  device : ∀ slot, hasBit (readEntry memory tables.pmdTableDev slot) pteTable = false
  ram : ∀ slot, hasBit (readEntry memory tables.pmdTableRam slot) pteTable = false

/-- All that the boot code writes to the four tables. -/
structure BootTables {image : KernelImage} (tables : KernelTables image) (memory : Memory) : Prop
    extends BootEntries tables memory where
  deviceBlocks : ∀ slot : Fin 512, readEntry memory tables.pmdTableDev slot =
    if 64 ≤ slot.val ∧ slot.val < 82 then
      BitVec.ofNat 64 (0 + slot.val * 0x200000) ||| blockDevice
    else 0
  ramBlocks : ∀ slot : Fin 512, readEntry memory tables.pmdTableRam slot =
    if slot.val < 64 then BitVec.ofNat 64 (0x40000000 + slot.val * 0x200000) ||| blockNormal
    else 0

/-- No two of the four tables share a frame. -/
structure FramesApart {image : KernelImage} (tables : KernelTables image) : Prop where
  pgdPud : tables.pgdTable / pageSize ≠ tables.pudTable / pageSize
  pgdDev : tables.pgdTable / pageSize ≠ tables.pmdTableDev / pageSize
  pgdRam : tables.pgdTable / pageSize ≠ tables.pmdTableRam / pageSize
  pudDev : tables.pudTable / pageSize ≠ tables.pmdTableDev / pageSize
  pudRam : tables.pudTable / pageSize ≠ tables.pmdTableRam / pageSize
  devRam : tables.pmdTableDev / pageSize ≠ tables.pmdTableRam / pageSize

theorem framesApart {image : KernelImage} (tables : KernelTables image) : FramesApart tables := by
  have frames : ∀ first ∈ [tables.pgdTable, tables.pudTable, tables.pmdTableDev,
      tables.pmdTableRam], ∀ second ∈ [tables.pgdTable, tables.pudTable, tables.pmdTableDev,
      tables.pmdTableRam], first ≠ second → first / pageSize ≠ second / pageSize :=
    fun first firstListed second secondListed different same =>
      different (tables.frame_inj firstListed secondListed same)
  have distinct := tables.distinct
  simp only [List.nodup_cons, List.mem_cons, List.not_mem_nil, or_false, not_or,
    List.nodup_nil, not_false_eq_true, and_true] at distinct
  obtain ⟨⟨pgdPud, pgdDev, pgdRam⟩, ⟨pudDev, pudRam⟩, devRam⟩ := distinct
  constructor <;> exact frames _ (by simp) _ (by simp) ‹_›

theorem bootTables {image : KernelImage} (tables : KernelTables image) (memory : Memory) :
    BootTables tables (mmCreatePageTables tables memory) := by
  obtain ⟨pgdPud, pgdDev, pgdRam, pudDev, pudRam, devRam⟩ := framesApart tables
  have cleared : ∀ table ∈ [tables.pgdTable, tables.pudTable, tables.pmdTableDev,
      tables.pmdTableRam], ∀ slot, readEntry (clearTable (clearTable (clearTable (clearTable memory
        tables.pgdTable) tables.pudTable) tables.pmdTableDev) tables.pmdTableRam) table slot = 0 := by
    intro table listed slot
    simp only [List.mem_cons, List.not_mem_nil, or_false] at listed
    rcases listed with rfl | rfl | rfl | rfl <;> simp [readEntry_clearTable]
  have deviceBlocks : ∀ slot : Fin 512,
      readEntry (mmCreatePageTables tables memory) tables.pmdTableDev slot =
        if 64 ≤ slot.val ∧ slot.val < 82 then
          BitVec.ofNat 64 (0 + slot.val * 0x200000) ||| blockDevice
        else 0 := by
    intro slot
    rw [mmCreatePageTables, readEntry_mapBlocks_other _ _ _ _ devRam,
      readEntry_mapBlocks _ _ _ _ _ (by simp only [List.mem_range'_1]; omega)]
    simp only [List.mem_range'_1, readEntry_write, pgdDev.symm, pudDev.symm, false_and,
      if_false, cleared tables.pmdTableDev (by simp)]
  have ramBlocks : ∀ slot : Fin 512,
      readEntry (mmCreatePageTables tables memory) tables.pmdTableRam slot =
        if slot.val < 64 then BitVec.ofNat 64 (0x40000000 + slot.val * 0x200000) ||| blockNormal
        else 0 := by
    intro slot
    rw [mmCreatePageTables, readEntry_mapBlocks _ _ _ _ _ (by simp only [List.mem_range]; omega),
      readEntry_mapBlocks_other _ _ _ _ devRam.symm]
    simp only [List.mem_range, readEntry_write, pgdRam.symm, pudRam.symm, false_and,
      if_false, cleared tables.pmdTableRam (by simp)]
  refine ⟨⟨fun slot => ?_, fun slot => ?_, fun slot => ?_, fun slot => ?_⟩, deviceBlocks, ramBlocks⟩
  · rw [mmCreatePageTables, readEntry_mapBlocks_other _ _ _ _ pgdRam,
      readEntry_mapBlocks_other _ _ _ _ pgdDev]
    simp only [readEntry_write, pgdPud, false_and, if_false, true_and,
      cleared _ (List.mem_cons_self ..)]
  · rw [mmCreatePageTables, readEntry_mapBlocks_other _ _ _ _ pudRam,
      readEntry_mapBlocks_other _ _ _ _ pudDev]
    simp only [readEntry_write, pgdPud.symm, false_and, if_false, true_and,
      cleared tables.pudTable (by simp)]
    split_ifs <;> simp_all
  · rw [deviceBlocks]
    split
    next => exact (hasBit_descriptor (blockAddress_low slot (Or.inl rfl)) _).2
    next => exact hasBit_zero _
  · rw [ramBlocks]
    split
    next => exact (hasBit_descriptor (blockAddress_low slot (Or.inr rfl)) _).2
    next => exact hasBit_zero _

theorem bootEntries {image : KernelImage} (tables : KernelTables image) (memory : Memory) :
    BootEntries tables (mmCreatePageTables tables memory) :=
  (bootTables tables memory).toBootEntries

theorem BootEntries.reached {image : KernelImage} {tables : KernelTables image} {memory : Memory}
    (entries : BootEntries tables memory) {path : List (Fin 512)} {table : Nat}
    (found : tableAt memory tables.pgdTable path = some table) :
    (path, table) ∈ [([], tables.pgdTable), ([0], tables.pudTable),
      ([0, 0], tables.pmdTableDev), ([0, 1], tables.pmdTableRam)] := by
  have low : ∀ page ∈ [tables.pgdTable, tables.pudTable, tables.pmdTableDev, tables.pmdTableRam],
      tableAddress (tableEntry page) = page := by
    intro page listed
    obtain ⟨index, bound, rfl⟩ := tables.placed page listed
    have address := pageAddress_low (Nat.lt_of_lt_of_le bound image.kernelPages_le)
    exact tableAddress_tableEntry address.2 address.1
  have fromPgd : ∀ slot next, childTable memory tables.pgdTable slot = some next →
      slot = 0 ∧ next = tables.pudTable := by
    intro slot next pointer
    obtain ⟨valid, _, address⟩ := childTable_eq_some.mp pointer
    rw [entries.pgd] at valid address
    by_cases first : slot = 0
    · rw [if_pos first, low tables.pudTable (by simp)] at address
      exact ⟨first, address.symm⟩
    · rw [if_neg first] at valid
      simp at valid
  have fromPud : ∀ slot next, childTable memory tables.pudTable slot = some next →
      (slot = 0 ∧ next = tables.pmdTableDev) ∨ (slot = 1 ∧ next = tables.pmdTableRam) := by
    intro slot next pointer
    obtain ⟨valid, _, address⟩ := childTable_eq_some.mp pointer
    rw [entries.pud] at valid address
    by_cases first : slot = 0
    · rw [if_pos first, low tables.pmdTableDev (by simp)] at address
      exact Or.inl ⟨first, address.symm⟩
    · by_cases second : slot = 1
      · rw [if_neg first, if_pos second, low tables.pmdTableRam (by simp)] at address
        exact Or.inr ⟨second, address.symm⟩
      · rw [if_neg first, if_neg second] at valid
        simp at valid
  have fromBlocks : ∀ leaf, leaf = tables.pmdTableDev ∨ leaf = tables.pmdTableRam →
      ∀ slot, childTable memory leaf slot = none := by
    rintro leaf (rfl | rfl) slot
    · simp [childTable, entries.device]
    · simp [childTable, entries.ram]
  rcases path with _ | ⟨first, path⟩
  · obtain rfl : tables.pgdTable = table := by simpa [tableAt] using found
    simp
  · simp only [tableAt, TableTree.descend, Option.bind_eq_some_iff] at found
    obtain ⟨next, pointer, found⟩ := found
    obtain ⟨rfl, rfl⟩ := fromPgd first next pointer
    rcases path with _ | ⟨second, path⟩
    · obtain rfl : tables.pudTable = table := by simpa using found
      simp
    · simp only [TableTree.descend, Option.bind_eq_some_iff] at found
      obtain ⟨leaf, pointer, found⟩ := found
      have isLeaf := fromPud second leaf pointer
      rcases path with _ | ⟨third, path⟩
      · obtain rfl : leaf = table := by simpa using found
        rcases isLeaf with ⟨rfl, rfl⟩ | ⟨rfl, rfl⟩ <;> simp
      · rw [TableTree.descend, fromBlocks leaf (isLeaf.imp And.right And.right)] at found
        simp at found

theorem boot_forest {image : KernelImage} (tables : KernelTables image) {mm : Mm}
    (reserved : ∀ index < kernelPages image.stackTop, mm.isUsed index = true) :
    Forest { mm with memory := mmCreatePageTables tables mm.memory } {tables.pgdTable} := by
  have entries := bootEntries tables mm.memory
  have distinct := tables.distinct
  simp only [List.nodup_cons, List.mem_cons, List.not_mem_nil, or_false, not_or,
    List.nodup_nil, not_false_eq_true, and_true] at distinct
  rw [← wellFormedTree_iff]
  constructor
  · intro path table _ found
    have listed := entries.reached found
    refine KernelTables.page tables reserved ?_
    simp only [List.mem_cons, Prod.mk.injEq, List.not_mem_nil, or_false] at listed ⊢
    tauto
  · intro path other table _ _ found same
    have listed := entries.reached found
    have also := entries.reached same
    simp only [List.mem_cons, Prod.mk.injEq, List.not_mem_nil, or_false] at listed also
    grind
  · intro index valid
    rw [entries.pgd] at valid ⊢
    split
    · exact tableEntry_table _
    · rename_i other
      rw [if_neg other] at valid
      simp at valid

/-- `after` is `mm` with the page `fresh` as a root that has the entry 0 of `model` only. -/
structure NewRoot (mm after : Mm) (model fresh : Nat) : Prop where
  isNew : ¬TablePage mm fresh
  page : TablePage after fresh
  shared : readEntry after.memory fresh 0 = readEntry mm.memory model 0
  empty : ∀ index, index ≠ 0 → readEntry after.memory fresh index = 0
  frame : ∀ other index, TablePage mm other →
    readEntry after.memory other index = readEntry mm.memory other index
  keeps : ∀ other, TablePage mm other → TablePage after other

theorem newRoot_of_alloc {mm after : Mm} {model fresh : Nat} (page : TablePage mm model)
    (allocated : mm.pageAlloc = (after, some fresh)) :
    NewRoot mm
      { after with
        memory := writeEntry after.memory fresh 0 (readEntry after.memory model 0) }
      model fresh := by
  obtain ⟨index, bound, unused, _, rfl, rfl⟩ := pageAlloc_some allocated
  have isNew := not_tablePage_unused unused
  have freshPage : TablePage (mm.take index 1) (pageAddress index) :=
    ⟨index, bound, rfl, by simp⟩
  constructor
  · exact isNew
  · exact freshPage
  · exact (readEntry_write_same _ _ _ _).trans (take_readEntry_other unused page 0)
  · intro slot other
    rw [readEntry_write_other _ _ fun same => other same.2, take_readEntry_fresh]
  · intro other slot otherPage
    rw [readEntry_write_other, take_readEntry_other unused otherPage]
    rintro ⟨sameFrame, _⟩
    exact isNew (otherPage.frame_inj freshPage sameFrame ▸ otherPage)
  · exact fun other otherPage => otherPage.take index 1

theorem NewRoot.joins {mm after : Mm} {model fresh : Nat} (new : NewRoot mm after model fresh) :
    TableTree.Joins (childTable mm.memory) (childTable after.memory) (TablePage mm) model 0
      fresh := by
  constructor
  · simp only [childTable, new.shared]
  · intro index other
    apply childTable_of_invalid
    rw [new.empty index other]
    exact hasBit_zero _
  · exact new.isNew
  · exact fun table index page => childTable_congr (new.frame table index page)

theorem Forest.addRoot {mm after : Mm} {roots : Set Nat} (forest : Forest mm roots)
    {model fresh : Nat} (isRoot : model ∈ roots) (new : NewRoot mm after model fresh) :
    Forest after (insert fresh roots) ∧
      ∀ root ∈ roots, ∀ vaddr, walk after.memory root vaddr = walk mm.memory root vaddr := by
  have joins := new.joins
  refine ⟨⟨?_, ?_, ?_⟩, ?_⟩
  · rintro root (rfl | member) path table short found
    · rcases joins.descend_fresh (forest.owned model isRoot) short found with
        ⟨_, rfl⟩ | ⟨_, inside⟩
      · exact new.page
      · exact new.keeps table (forest.owned model isRoot path table short inside)
    · rw [tableAt, joins.descend_old (forest.owned root member) path short] at found
      exact new.keeps table (forest.owned root member path table short found)
  · exact forest.partitioned.join (fun path shared => shared) joins isRoot forest.owned
  · rintro root (rfl | member) index valid
    · by_cases first : index = 0
      · subst first
        rw [new.shared] at valid ⊢
        exact forest.rootTables model isRoot 0 valid
      · rw [new.empty index first] at valid
        simp at valid
    · rw [new.frame root index (forest.rootPage member)] at valid ⊢
      exact forest.rootTables root member index valid
  · intro root member vaddr
    apply walk_congr fun path table short found =>
      (forest.owned root member path table short found).low
    intro level table bound reached
    exact Or.inl (new.frame table _ (forest.owned root member _ table (by simpa using bound) reached))

@[simp] theorem foldl_pageFree_memory (pages : List Nat) (mm : Mm) :
    (pages.foldl Mm.pageFree mm).memory = mm.memory := by
  induction pages generalizing mm with
  | nil => rfl
  | cons page rest ih => rw [List.foldl_cons, ih, pageFree_memory]

theorem foldl_pageFree_isUsed {pages : List Nat} {mm : Mm}
    (placed : ∀ page ∈ pages, ∃ index < maxPages, page = pageAddress index) (query : Nat) :
    (pages.foldl Mm.pageFree mm).isUsed query =
      (decide (pageAddress query ∉ pages) && mm.isUsed query) := by
  induction pages generalizing mm with
  | nil => simp
  | cons page rest ih =>
      obtain ⟨index, bound, rfl⟩ := placed page (List.mem_cons_self ..)
      have one : (mm.pageFree (pageAddress index)).isUsed query =
          (!decide (query = index) && mm.isUsed query) := by
        rw [pageFree_pageAddress mm bound]
        split
        · simp
        · rename_i unused
          by_cases here : query = index
          · subst here
            simpa using unused
          · simp [here]
      have same : pageAddress query = pageAddress index ↔ query = index :=
        ⟨pageAddress_inj, congrArg pageAddress⟩
      rw [List.foldl_cons, ih fun other listed => placed other (List.mem_cons_of_mem _ listed), one]
      by_cases here : query = index <;> simp [same, here]

theorem foldl_pageFree_usedPages {pages : List Nat} {mm : Mm}
    (used : ∀ page ∈ pages, TablePage mm page) (distinct : pages.Nodup) :
    (pages.foldl Mm.pageFree mm).usedPages = mm.usedPages - BitVec.ofNat 64 pages.length := by
  induction pages generalizing mm with
  | nil => simp
  | cons page rest ih =>
      obtain ⟨outside, restDistinct⟩ := List.nodup_cons.mp distinct
      obtain ⟨index, bound, rfl, set⟩ := used page (List.mem_cons_self ..)
      rw [List.foldl_cons, pageFree_pageAddress mm bound, if_pos set, ih ?_ restDistinct]
      · simp only [Mm.release, List.length_cons, BitVec.ofNat_add, BitVec.sub_sub]
        rw [BitVec.add_comm]
        rfl
      · intro other listed
        obtain ⟨position, otherBound, rfl, otherSet⟩ := used other (List.mem_cons_of_mem _ listed)
        refine ⟨position, otherBound, rfl, ?_⟩
        have different : position ≠ index := by
          rintro rfl
          exact outside listed
        simp [different, otherSet]

theorem Forest.free {mm : Mm} {roots kept : Set Nat} (forest : Forest mm roots)
    (subset : kept ⊆ roots) {pages : List Nat} (placed : ∀ page ∈ pages, TablePage mm page)
    (outside : ∀ root ∈ kept, ∀ path table, path.length ≤ 3 →
      tableAt mm.memory root path = some table → table ∉ pages) :
    Forest (pages.foldl Mm.pageFree mm) kept := by
  refine forest.sameTables subset ?_ ?_ ?_
  · intro root _ path _
    rw [foldl_pageFree_memory]
  · intro root member path table short found
    obtain ⟨index, bound, rfl, used⟩ := forest.owned root (subset member) path table short found
    refine ⟨index, bound, rfl, ?_⟩
    rw [foldl_pageFree_isUsed fun page listed => (placed page listed).imp fun _ page =>
      ⟨page.1, page.2.1⟩]
    simp [used, outside root member path _ short found]
  · intro root _ index
    rw [foldl_pageFree_memory]

theorem foldl_freeChildren {memory : Memory} {table : Nat} {visit : Mm → Nat → Mm}
    {freed : Nat → List Nat} {follow : Word → Bool} {indices : List (Fin 512)}
    (visits : ∀ mm next, mm.memory = memory → visit mm next = (freed next).foldl Mm.pageFree mm)
    (follows : ∀ index ∈ indices, follow (readEntry memory table index) =
      (hasBit (readEntry memory table index) pteValid &&
        hasBit (readEntry memory table index) pteTable))
    {mm : Mm} (same : mm.memory = memory) :
    indices.foldl (fun mm index =>
        if follow (readEntry mm.memory table index) then
          visit mm (tableAddress (readEntry mm.memory table index))
        else mm) mm =
      (TableTree.branch (childTable memory) freed indices table).foldl Mm.pageFree mm := by
  induction indices generalizing mm with
  | nil => rfl
  | cons index rest ih =>
      have here := follows index (List.mem_cons_self ..)
      have later := @ih fun other listed => follows other (List.mem_cons_of_mem _ listed)
      rw [List.foldl_cons, TableTree.branch, List.flatMap_cons, List.foldl_append,
        ← TableTree.branch, same, here]
      split
      · rename_i linked
        simp only [childTable, linked, if_true]
        rw [visits mm _ same, later ((foldl_pageFree_memory _ _).trans same)]
      · rename_i unlinked
        simp only [childTable, unlinked]
        exact later same

theorem vmFreeSubtree_eq (height : Nat) : ∀ (mm : Mm) (table : Nat),
    vmFreeSubtree mm table height =
      (TableTree.tables (childTable mm.memory) (List.finRange 512) height table).foldl
        Mm.pageFree mm := by
  induction height with
  | zero => intro mm table; rfl
  | succ height ih =>
      intro mm table
      have level := @foldl_freeChildren mm.memory table
        (fun mm next => vmFreeSubtree mm next height)
        (TableTree.tables (childTable mm.memory) (List.finRange 512) height)
        (fun entry => hasBit entry pteValid && hasBit entry pteTable) (List.finRange 512)
        (fun other next same => by rw [ih, same]) (fun _ _ => rfl) mm rfl
      rw [TableTree.tables, List.foldl_append, ← level]
      rfl

/-- The tables of one tree that no other tree shares, in the order of the teardown. -/
def privateTables (memory : Memory) (pgd : Nat) : List Nat :=
  TableTree.branch (childTable memory) (TableTree.tables (childTable memory) (List.finRange 512) 2)
    ((List.finRange 512).drop 1) pgd ++ [pgd]

theorem mem_drop_one (index : Fin 512) : index ∈ (List.finRange 512).drop 1 ↔ index ≠ 0 := by
  have split : List.finRange 512 = 0 :: (List.finRange 512).drop 1 := by
    rw [List.finRange_succ]
    rfl
  have distinct := List.nodup_finRange 512
  have listed := List.mem_finRange index
  rw [split] at distinct listed
  have outside := (List.nodup_cons.mp distinct).1
  constructor
  · rintro inside rfl
    exact outside inside
  · intro other
    exact (List.mem_cons.mp listed).resolve_left other

theorem mem_privateTables {memory : Memory} {pgd table : Nat} :
    table ∈ privateTables memory pgd ↔
      ∃ path, path.length ≤ 3 ∧ ¬SharedPath path ∧ tableAt memory pgd path = some table := by
  rw [privateTables, List.mem_append, TableTree.mem_branch_tables List.mem_finRange,
    List.mem_singleton]
  constructor
  · rintro (⟨index, listed, path, short, found⟩ | rfl)
    · refine ⟨index :: path, Nat.succ_le_succ short, ?_, found⟩
      simpa [SharedPath] using (mem_drop_one index).mp listed
    · exact ⟨[], by simp, by simp [SharedPath], rfl⟩
  · rintro ⟨path, short, unshared, found⟩
    cases path with
    | nil => exact Or.inr (by simpa [tableAt] using found.symm)
    | cons index rest =>
        left
        refine ⟨index, (mem_drop_one index).mpr ?_, rest, Nat.le_of_succ_le_succ short, found⟩
        rintro rfl
        exact unshared rfl

theorem Forest.privateTables_nodup {mm : Mm} {roots : Set Nat} (forest : Forest mm roots)
    {pgd : Nat} (isRoot : pgd ∈ roots) : (privateTables mm.memory pgd).Nodup := by
  have unique : TableTree.UniquePaths (childTable mm.memory) 3 pgd :=
    fun path other query short bound found same => forest.unique isRoot short bound found same
  rw [privateTables, List.nodup_append]
  refine ⟨?_, by simp, ?_⟩
  · apply TableTree.nodup_branch List.mem_finRange
      ((List.nodup_finRange 512).sublist (List.drop_sublist 1 _)) unique
    intro index next pointer
    exact TableTree.nodup_tables List.mem_finRange (List.nodup_finRange 512) 2 next
      (unique.below pointer)
  · intro table inside root atRoot same
    obtain ⟨index, _, path, short, found⟩ :=
      (TableTree.mem_branch_tables List.mem_finRange).mp inside
    have both := unique (index :: path) [] table (Nat.succ_le_succ short) (by simp) found
      (by rw [same, List.mem_singleton.mp atRoot]; rfl)
    simp at both

theorem Forest.privateTables_page {mm : Mm} {roots : Set Nat} (forest : Forest mm roots)
    {pgd table : Nat} (isRoot : pgd ∈ roots) (listed : table ∈ privateTables mm.memory pgd) :
    TablePage mm table := by
  obtain ⟨path, short, _, found⟩ := mem_privateTables.mp listed
  exact forest.owned pgd isRoot path table short found

theorem Forest.privateTables_outside {mm : Mm} {roots : Set Nat} (forest : Forest mm roots)
    {pgd root table : Nat} (isRoot : pgd ∈ roots) (member : root ∈ roots) (other : root ≠ pgd)
    {path : List (Fin 512)} (short : path.length ≤ 3)
    (found : tableAt mm.memory root path = some table) :
    table ∉ privateTables mm.memory pgd := by
  intro listed
  obtain ⟨place, bound, unshared, located⟩ := mem_privateTables.mp listed
  obtain ⟨samePath, sameRoot | shared⟩ := forest.partitioned root member pgd isRoot path place table
    short bound found located
  · exact other sameRoot
  · exact unshared (samePath ▸ shared)

theorem vmDestroy_eq {vm : Vm} {roots : Set Nat} (forest : Forest vm.mm roots)
    {space : AddressSpace} (isRoot : space.pgd ∈ roots) :
    vmDestroy vm space =
      ({ mm := (privateTables vm.mm.memory space.pgd).foldl Mm.pageFree vm.mm
         asidBitmap := asidFree vm.asidBitmap space.asid }, { pgd := 0, asid := 0 }) := by
  obtain ⟨index, _, address, _⟩ := forest.rootPage isRoot
  have present : space.pgd ≠ 0 := by
    rw [address, pageAddress_eq]
    omega
  have level := @foldl_freeChildren vm.mm.memory space.pgd
    (fun mm next => vmFreeSubtree mm next 2)
    (TableTree.tables (childTable vm.mm.memory) (List.finRange 512) 2)
    (fun entry => hasBit entry pteValid) ((List.finRange 512).drop 1)
    (fun other next same => by rw [vmFreeSubtree_eq, same])
    (fun index _ => by
      cases valid : hasBit (readEntry vm.mm.memory space.pgd index) pteValid with
      | false => rfl
      | true => rw [forest.rootTables space.pgd isRoot index valid, Bool.and_self])
    vm.mm rfl
  rw [privateTables, List.foldl_append, ← level, vmDestroy, if_neg present]
  rfl

end DragoonKernel
