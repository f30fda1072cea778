import DragoonKernel.AddressSpaceTeardown

/-!
Which pages each address space has as tables of its own, and how operations change
that: creation adds one table, mapping adds tables on unused pages, teardown removes
all of them, and memory that holds no tables does not matter.
-/

namespace DragoonKernel

variable {image : KernelImage} {tables : KernelTables image}

theorem SameTables.own {memory after : Memory} {roots : Set Nat} {root : Nat}
    (same : SameTables memory after roots) (member : root ∈ roots) (table : Nat) :
    OwnTable after root table ↔ OwnTable memory root table := by
  constructor
  · rintro ⟨path, short, unshared, found⟩
    exact ⟨path, short, unshared, same root member path short ▸ found⟩
  · rintro ⟨path, short, unshared, found⟩
    exact ⟨path, short, unshared, (same root member path short).trans found⟩

theorem SameTables.trans {memory middle after : Memory} {roots kept : Set Nat}
    (first : SameTables memory middle roots) (second : SameTables middle after kept)
    (subset : kept ⊆ roots) : SameTables memory after kept :=
  fun root member path short =>
    (second root member path short).trans (first root (subset member) path short)

theorem OwnTable.page {mm : Mm} {roots : Set Nat} (forest : Forest mm roots) {root table : Nat}
    (member : root ∈ roots) (own : OwnTable mm.memory root table) : TablePage mm table := by
  obtain ⟨path, short, _, found⟩ := own
  exact forest.owned root member path table short found

theorem tablePage_pageAddress {mm : Mm} {index : Nat} (page : TablePage mm (pageAddress index)) :
    index < maxPages ∧ mm.isUsed index = true := by
  obtain ⟨position, bound, same, used⟩ := page
  obtain rfl := pageAddress_inj same
  exact ⟨bound, used⟩

theorem OwnTable.used {mm : Mm} {roots : Set Nat} (forest : Forest mm roots) {root index : Nat}
    (member : root ∈ roots) (own : OwnTable mm.memory root (pageAddress index)) :
    mm.isUsed index = true :=
  (tablePage_pageAddress (own.page forest member)).2

theorem Forest.frame {mm after : Mm} {roots kept : Set Nat} (forest : Forest mm roots)
    (subset : kept ⊆ roots)
    (entries : ∀ table index, TablePage mm table →
      readEntry after.memory table index = readEntry mm.memory table index)
    (pages : ∀ root ∈ kept, ∀ path table, path.length ≤ 3 →
      tableAt mm.memory root path = some table → TablePage after table) :
    Forest after kept ∧ SameTables mm.memory after.memory kept := by
  have same : SameTables mm.memory after.memory kept := by
    intro root member path short
    apply TableTree.descend_congr _ path short
    intro other table below found index
    apply childTable_congr
    exact entries table index (forest.owned root (subset member) other table (by omega) found)
  refine ⟨forest.sameTables subset same pages ?_, same⟩
  exact fun root member index => entries root index (forest.rootPage (subset member))

theorem VmSystem.Sound.frame {vm after : Vm} {spaces : List AddressSpace}
    (sound : VmSystem.Sound tables ⟨vm, spaces⟩)
    (entries : ∀ table index, TablePage vm.mm table →
      readEntry after.mm.memory table index = readEntry vm.mm.memory table index)
    (pages : ∀ root ∈ VmSystem.roots tables ⟨vm, spaces⟩, ∀ path table, path.length ≤ 3 →
      tableAt vm.mm.memory root path = some table → TablePage after.mm table) :
    VmSystem.Sound tables ⟨after, spaces⟩ ∧
      SameTables vm.mm.memory after.mm.memory (VmSystem.roots tables ⟨vm, spaces⟩) := by
  obtain ⟨forest, same⟩ := sound.forest.frame Set.Subset.rfl entries pages
  have root : ∀ pgd ∈ VmSystem.roots tables ⟨vm, spaces⟩,
      readEntry after.mm.memory pgd 0 = readEntry vm.mm.memory pgd 0 :=
    fun pgd member => entries pgd 0 (sound.forest.rootPage member)
  have kernel := root _ (VmSystem.kernel_mem_roots _)
  refine ⟨⟨forest, sound.distinct, ?_, ?_⟩, same⟩
  · rw [kernel]
    exact sound.kernelEntry
  · intro pgd member
    rw [root pgd member, kernel]
    exact sound.sharedEntry pgd member

theorem VmSystem.Sound.take {vm : Vm} {spaces : List AddressSpace}
    (sound : VmSystem.Sound tables ⟨vm, spaces⟩) {start pages : Nat}
    (free : ∀ index, start ≤ index → index < start + pages → vm.mm.isUsed index = false) :
    VmSystem.Sound tables ⟨{ vm with mm := vm.mm.take start pages }, spaces⟩ ∧
      SameTables vm.mm.memory (vm.mm.take start pages).memory
        (VmSystem.roots tables ⟨vm, spaces⟩) := by
  refine sound.frame ?_ ?_
  · exact fun table index page => take_run_readEntry free page index
  · exact fun root member path table short found =>
      (sound.forest.owned root member path table short found).take start pages

theorem VmSystem.Sound.pagesFree {vm : Vm} {spaces : List AddressSpace}
    (sound : VmSystem.Sound tables ⟨vm, spaces⟩) {start pages : Nat}
    (inside : start + pages ≤ maxPages)
    (used : ∀ index, start ≤ index → index < start + pages → vm.mm.isUsed index = true)
    (apart : ∀ root ∈ VmSystem.roots tables ⟨vm, spaces⟩, ∀ path index, path.length ≤ 3 →
      tableAt vm.mm.memory root path = some (pageAddress index) →
      ¬(start ≤ index ∧ index < start + pages)) :
    VmSystem.Sound tables
      ⟨{ vm with mm := vm.mm.pagesFree (pageAddress start) pages }, spaces⟩ := by
  refine And.left (sound.frame ?_ ?_)
  · intro table index _
    simp only [pagesFree_memory]
  · intro root member path table short found
    obtain ⟨index, bound, rfl, marked⟩ := sound.forest.owned root member path table short found
    refine ⟨index, bound, rfl, ?_⟩
    rw [(pagesFree_run vm.mm start pages inside used).1, marked,
      decide_eq_false (apart root member path index short found)]
    rfl

/-- `space` is the address space that `vm_create` made from `vm` on an unused page. -/
structure SpaceMade (tables : KernelTables image) (vm after : Vm) (spaces : List AddressSpace)
    (space : AddressSpace) (index : Nat) : Prop where
  sound : VmSystem.Sound tables ⟨after, space :: spaces⟩
  address : space.pgd = pageAddress index
  bound : index < maxPages
  unused : vm.mm.isUsed index = false
  used : ∀ query, after.mm.isUsed query = true ↔ vm.mm.isUsed query = true ∨ query = index
  kept : SameTables vm.mm.memory after.mm.memory (VmSystem.roots tables ⟨vm, spaces⟩)
  own : ∀ table, OwnTable after.mm.memory space.pgd table ↔ table = space.pgd

theorem NewRoot.own {mm after : Mm} {roots : Set Nat} (forest : Forest mm roots) {model fresh : Nat}
    (isRoot : model ∈ roots) (new : NewRoot mm after model fresh) (table : Nat) :
    OwnTable after.memory fresh table ↔ table = fresh := by
  constructor
  · rintro ⟨path, short, unshared, found⟩
    rcases new.joins.descend_fresh (forest.owned model isRoot) short found with
      ⟨_, same⟩ | ⟨shared, _⟩
    · exact same
    · exact absurd shared unshared
  · rintro rfl
    exact ⟨[], by simp, by simp [SharedPath], rfl⟩

theorem VmSystem.Sound.vmCreate {vm after : Vm} {spaces : List AddressSpace}
    (sound : VmSystem.Sound tables ⟨vm, spaces⟩) {space : AddressSpace}
    (made : vmCreate tables.pgdTable vm ⟨0, 0⟩ = (after, space, 0)) :
    ∃ index, SpaceMade tables vm after spaces space index := by
  have isRoot : tables.pgdTable ∈ VmSystem.roots tables ⟨vm, spaces⟩ := kernel_mem_roots _
  have kernel : TablePage vm.mm tables.pgdTable := sound.forest.rootPage isRoot
  rcases allocated : vm.mm.pageAlloc with ⟨mm, _ | fresh⟩
  · rw [vmCreate_none _ allocated] at made
    simp at made
  · have new := newRoot_of_alloc kernel allocated
    obtain ⟨index, bound, unused, _, rfl, rfl⟩ := pageAlloc_some allocated
    rw [vmCreate_some _ allocated] at made
    simp only [Prod.mk.injEq, and_true] at made
    obtain ⟨rfl, rfl⟩ := made
    refine ⟨index, (sound.create new).1, rfl, bound, unused, ?_, ?_, new.own sound.forest isRoot⟩
    · intro query
      refine Iff.trans (Bool.eq_iff_iff.mp (take_isUsed vm.mm index 1 query)) ?_
      rw [Bool.or_eq_true, decide_eq_true_eq, or_comm]
      constructor
      · rintro (marked | range)
        · exact Or.inl marked
        · exact Or.inr (by omega)
      · rintro (marked | rfl)
        · exact Or.inl marked
        · exact Or.inr ⟨Nat.le_refl _, Nat.lt_succ_self _⟩
    · exact fun root member path short =>
        new.joins.descend_old (sound.forest.owned root member) path short

/-- `after` has at most more tables of `pgd` than `mm`, on pages that were unused. -/
structure TablesGrow (mm after : Mm) (roots : Set Nat) (pgd : Nat) : Prop where
  others : SameTables mm.memory after.memory (roots \ {pgd})
  kept : ∀ table, OwnTable mm.memory pgd table → OwnTable after.memory pgd table
  fresh : ∀ table, OwnTable after.memory pgd table →
    OwnTable mm.memory pgd table ∨ ¬TablePage mm table
  used : ∀ index, after.isUsed index = true ↔
    mm.isUsed index = true ∨ OwnTable after.memory pgd (pageAddress index)
  pages : ∀ table, TablePage mm table → TablePage after table

theorem TablesGrow.refl {mm : Mm} {roots : Set Nat} (forest : Forest mm roots) {pgd : Nat}
    (isRoot : pgd ∈ roots) : TablesGrow mm mm roots pgd where
  others _ _ _ _ := rfl
  kept _ own := own
  fresh _ own := Or.inl own
  used _ := ⟨Or.inl, fun either => either.elim id fun own => own.used forest isRoot⟩
  pages _ page := page

theorem TablesGrow.trans {first second third : Mm} {roots : Set Nat} {pgd : Nat}
    (before : TablesGrow first second roots pgd) (later : TablesGrow second third roots pgd) :
    TablesGrow first third roots pgd := by
  constructor
  · exact before.others.trans later.others Set.Subset.rfl
  · exact fun table own => later.kept table (before.kept table own)
  · intro table own
    rcases later.fresh table own with old | isNew
    · exact before.fresh table old
    · exact Or.inr fun page => isNew (before.pages table page)
  · intro index
    rw [later.used, before.used]
    constructor
    · rintro ((marked | own) | own)
      · exact Or.inl marked
      · exact Or.inr (later.kept _ own)
      · exact Or.inr own
    · rintro (marked | own)
      · exact Or.inl (Or.inl marked)
      · exact Or.inr own
  · exact fun table page => later.pages table (before.pages table page)

theorem Forest.link_grows {mm after : Mm} {roots : Set Nat} (forest : Forest mm roots)
    {owner table index : Nat} {place : List (Fin 512)} {slot : Fin 512} (isRoot : owner ∈ roots)
    (located : tableAt mm.memory owner place = some table) (shallow : place.length < 3)
    (unshared : ¬SharedPath (place ++ [slot]))
    (invalid : hasBit (readEntry mm.memory table slot) pteValid = false)
    (new : NewTable mm after table slot (pageAddress index))
    (used : ∀ query, after.isUsed query = true ↔ mm.isUsed query = true ∨ query = index) :
    TablesGrow mm after roots owner := by
  have links := new.links invalid
  have paths : ∀ root ∈ roots, ∀ path, path.length ≤ 3 →
      tableAt after.memory root path = tableAt mm.memory root path ∨
        (tableAt after.memory root path = some (pageAddress index) ∧ path = place ++ [slot] ∧
          owner = root) := by
    intro root member path short
    rcases TableTree.descend_link_any forest.partitioned links shallow isRoot located member
      (forest.owned root member) path short with old | ⟨linked, atPlace, same | shared⟩
    · exact Or.inl old
    · exact Or.inr ⟨linked, atPlace, same⟩
    · exact absurd (sharedPath_append place slot shared) unshared
  have linked : OwnTable after.memory owner (pageAddress index) := by
    have short : (place ++ [slot]).length ≤ 3 := by
      rw [List.length_append, List.length_singleton]
      omega
    refine ⟨place ++ [slot], short, unshared, ?_⟩
    exact TableTree.descend_snoc_some
      (links.descend_kept (forest.owned owner isRoot) place table (by omega) located) links.pointer
  constructor
  · rintro root ⟨member, other⟩ path short
    rcases paths root member path short with old | ⟨_, _, same⟩
    · exact old
    · exact absurd same.symm other
  · rintro query ⟨path, short, apart, found⟩
    exact ⟨path, short, apart,
      links.descend_kept (forest.owned owner isRoot) path query short found⟩
  · rintro query ⟨path, short, apart, found⟩
    rcases paths owner isRoot path short with old | ⟨isFresh, _, _⟩
    · exact Or.inl ⟨path, short, apart, old ▸ found⟩
    · rw [isFresh, Option.some.injEq] at found
      exact Or.inr (found ▸ new.isNew)
  · intro query
    rw [used]
    constructor
    · rintro (marked | rfl)
      · exact Or.inl marked
      · exact Or.inr linked
    · rintro (marked | own)
      · exact Or.inl marked
      · rw [← used]
        exact own.used (forest.link isRoot located shallow invalid new) isRoot
  · exact new.keeps

theorem nextTable_grows {mm after : Mm} {roots : Set Nat} (forest : Forest mm roots)
    {owner table : Nat} {place : List (Fin 512)} {index : Fin 512} {checkBlock : Bool}
    {result : Option Nat} (isRoot : owner ∈ roots)
    (located : tableAt mm.memory owner place = some table) (shallow : place.length < 3)
    (unshared : ¬SharedPath (place ++ [index]))
    (stepped : mm.nextTable table index checkBlock = (after, result)) :
    TablesGrow mm after roots owner := by
  simp only [Mm.nextTable] at stepped
  split at stepped
  · split at stepped
    · simp only [Prod.mk.injEq] at stepped
      exact stepped.1 ▸ .refl forest isRoot
    · simp only [Prod.mk.injEq] at stepped
      exact stepped.1 ▸ .refl forest isRoot
  next invalid =>
    simp only [Bool.not_eq_true] at invalid
    split at stepped
    next allocated fresh allocation =>
      simp only [Prod.mk.injEq] at stepped
      obtain ⟨rfl, _⟩ := stepped
      have page := forest.owned owner isRoot place table (by omega) located
      have new := newTable_of_alloc index page allocation
      obtain ⟨position, _, _, _, rfl, rfl⟩ := pageAlloc_some allocation
      refine forest.link_grows isRoot located shallow unshared invalid new ?_
      intro query
      refine Iff.trans (Bool.eq_iff_iff.mp (take_isUsed mm position 1 query)) ?_
      rw [Bool.or_eq_true, decide_eq_true_eq, or_comm]
      exact or_congr_right (by omega)
    next allocated missing =>
      simp only [Prod.mk.injEq] at stepped
      obtain ⟨rfl, _⟩ := pageAlloc_none missing
      exact stepped.1 ▸ .refl forest isRoot

theorem walkPath_unshared {vaddr : Nat} (ownHalf : tableIndex vaddr 39 ≠ 0) (level : Nat) :
    ¬SharedPath (walkPath vaddr level) := by
  have head : (walkPath vaddr level).head? = if level = 0 then none else some (tableIndex vaddr 39) := by
    induction level with
    | zero => rfl
    | succ level ih =>
        rw [walkPath, List.head?_append, ih]
        cases level <;> simp
  rw [SharedPath, head]
  split
  next => simp
  next => simpa using ownHalf

theorem LeafWrite.grows {mm after : Mm} {roots : Set Nat} (forest : Forest mm roots)
    {owner leaf : Nat} {place : List (Fin 512)} {slot : Fin 512} {entry : Word}
    (isRoot : owner ∈ roots) (located : tableAt mm.memory owner place = some leaf)
    (deepest : place.length = 3) (write : LeafWrite mm after leaf slot entry)
    (used : ∀ index, after.isUsed index = mm.isUsed index) : TablesGrow mm after roots owner := by
  have same : SameTables mm.memory after.memory roots := fun root member path short =>
    write.paths_kept forest isRoot located deepest member path short
  constructor
  · exact fun root member => same root member.1
  · exact fun table own => (same.own isRoot table).mpr own
  · exact fun table own => Or.inl ((same.own isRoot table).mp own)
  · intro index
    rw [used, same.own isRoot]
    exact ⟨Or.inl, fun either => either.elim id fun own => own.used forest isRoot⟩
  · exact write.keeps

theorem mapPage_grows {mm : Mm} {roots : Set Nat} (forest : Forest mm roots) {pgd : Nat}
    (isRoot : pgd ∈ roots) {vaddr : Nat} (ownHalf : tableIndex vaddr 39 ≠ 0) (paddr : Nat)
    (flags : Word) : TablesGrow mm (mm.mapPage pgd vaddr paddr flags) roots pgd := by
  have apart : ∀ level, ¬SharedPath (walkPath vaddr level) := walkPath_unshared ownHalf
  have reachL0 : tableAt mm.memory pgd (walkPath vaddr 0) = some pgd := rfl
  unfold Mm.mapPage
  split
  next failed => exact nextTable_grows forest isRoot reachL0 (by simp) (apart 1) failed
  next first l1 found =>
    have growsL1 := nextTable_grows forest isRoot reachL0 (by simp) (apart 1) found
    obtain ⟨sameL1, reachL1⟩ : SameWalks mm first roots ∧
        tableAt first.memory pgd (walkPath vaddr 1) = some l1 :=
      nextTable_some forest isRoot reachL0 (by simp) (Or.inr rfl) found
    split
    next failed =>
      exact growsL1.trans
        (nextTable_grows sameL1.forest isRoot reachL1 (by simp) (apart 2) failed)
    next second l2 found =>
      have growsL2 := growsL1.trans
        (nextTable_grows sameL1.forest isRoot reachL1 (by simp) (apart 2) found)
      obtain ⟨sameL2, reachL2⟩ : SameWalks first second roots ∧
          tableAt second.memory pgd (walkPath vaddr 2) = some l2 :=
        nextTable_some sameL1.forest isRoot reachL1 (by simp) (Or.inl rfl) found
      split
      next failed =>
        exact growsL2.trans
          (nextTable_grows sameL2.forest isRoot reachL2 (by simp) (apart 3) failed)
      next third l3 found =>
        have growsL3 := growsL2.trans
          (nextTable_grows sameL2.forest isRoot reachL2 (by simp) (apart 3) found)
        obtain ⟨sameL3, reachL3⟩ : SameWalks second third roots ∧
            tableAt third.memory pgd (walkPath vaddr 3) = some l3 :=
          nextTable_some sameL2.forest isRoot reachL2 (by simp) (Or.inl rfl) found
        have page := sameL3.forest.owned pgd isRoot _ l3 (by simp) reachL3
        exact growsL3.trans ((leafWrite_writeEntry page _ _).grows sameL3.forest isRoot reachL3
          (by simp) fun _ => rfl)

end DragoonKernel
