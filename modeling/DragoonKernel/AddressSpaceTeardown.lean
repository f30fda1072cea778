import DragoonKernel.AddressSpaceIsolation

/-!
`vm_destroy` frees exactly the tables that its address space does not share, and the
ASID bitmap holds exactly the ASIDs of the live address spaces.
-/

namespace DragoonKernel

variable {image : KernelImage} {tables : KernelTables image}

/-- The bitmap knows the live ASIDs, and only ASID 0 is ever shared. -/
structure VmSystem.AsidsHeld (system : VmSystem) : Prop where
  held : ∀ asid, Bitmap.test system.vm.asidBitmap asid = true ↔
    asid ≠ 0 ∧ ∃ space ∈ system.spaces, space.asid = asid
  bound : ∀ space ∈ system.spaces, space.asid < asidMax
  distinct : ∀ first ∈ system.spaces, ∀ second ∈ system.spaces,
    first.asid = second.asid → first.asid ≠ 0 → first = second

theorem boot_asidsHeld (mm : Mm) : (VmSystem.boot tables mm).AsidsHeld := by
  constructor <;> simp [VmSystem.boot, Bitmap.test_empty]

theorem VmSystem.AsidsHeld.create {system : VmSystem} (asids : system.AsidsHeld) (mm : Mm)
    (fresh : Nat) :
    VmSystem.AsidsHeld
      { vm := { mm := mm, asidBitmap := (asidAlloc system.vm.asidBitmap).1 }
        spaces := ⟨fresh, (asidAlloc system.vm.asidBitmap).2⟩ :: system.spaces } := by
  rcases asidAlloc_cases system.vm.asidBitmap with ⟨asid, positive, bound, free, allocated⟩ |
    ⟨_, allocated⟩
  · have unheld : ∀ space ∈ system.spaces, space.asid ≠ asid := by
      intro space live same
      have taken := (asids.held asid).mpr ⟨by omega, space, live, same⟩
      rw [free] at taken
      simp at taken
    rw [allocated]
    constructor
    · intro query
      rw [Bitmap.test_set, Bool.or_eq_true, decide_eq_true_eq, asids.held]
      simp only [List.mem_cons, exists_eq_or_imp]
      constructor
      · rintro (rfl | ⟨nonzero, live⟩)
        · exact ⟨by omega, Or.inl rfl⟩
        · exact ⟨nonzero, Or.inr live⟩
      · rintro ⟨nonzero, rfl | live⟩
        · exact Or.inl rfl
        · exact Or.inr ⟨nonzero, live⟩
    · simp only [List.mem_cons, forall_eq_or_imp]
      exact ⟨bound, asids.bound⟩
    · simp only [List.mem_cons, forall_eq_or_imp]
      refine ⟨⟨fun _ _ => trivial, fun second live same _ => absurd same.symm (unheld second live)⟩, ?_⟩
      intro first live
      exact ⟨fun same _ => absurd same (unheld first live), asids.distinct first live⟩
  · rw [allocated]
    constructor
    · intro query
      rw [asids.held]
      simp only [List.mem_cons, exists_eq_or_imp]
      constructor
      · rintro ⟨nonzero, live⟩
        exact ⟨nonzero, Or.inr live⟩
      · rintro ⟨nonzero, same | live⟩
        · exact absurd same.symm nonzero
        · exact ⟨nonzero, live⟩
    · simp only [List.mem_cons, forall_eq_or_imp]
      exact ⟨by decide, asids.bound⟩
    · simp only [List.mem_cons, forall_eq_or_imp]
      refine ⟨⟨fun _ _ => trivial, fun _ _ _ nonzero => absurd rfl nonzero⟩, ?_⟩
      intro first live
      exact ⟨fun same nonzero => absurd same nonzero, asids.distinct first live⟩

theorem VmSystem.AsidsHeld.asidFree {system : VmSystem} (asids : system.AsidsHeld)
    {space : AddressSpace} (live : space ∈ system.spaces) (query : Nat) :
    Bitmap.test (asidFree system.vm.asidBitmap space.asid) query =
      (!decide (query = space.asid) && Bitmap.test system.vm.asidBitmap query) := by
  have bound := asids.bound space live
  unfold DragoonKernel.asidFree
  by_cases zero : space.asid = 0
  · have skip : ¬(0 < space.asid ∧ space.asid < asidMax) := by omega
    rw [if_neg skip, zero]
    by_cases here : query = 0
    · have unheld : ¬Bitmap.test system.vm.asidBitmap 0 = true := by simp [asids.held]
      simpa [here] using unheld
    · simp [here]
  · rw [if_pos ⟨by omega, bound⟩, Bitmap.test_clear]

theorem VmSystem.AsidsHeld.destroy {system : VmSystem} (asids : system.AsidsHeld)
    (distinct : system.spaces.Nodup) {space : AddressSpace} (live : space ∈ system.spaces)
    (mm : Mm) :
    VmSystem.AsidsHeld
      { vm := { mm := mm, asidBitmap := DragoonKernel.asidFree system.vm.asidBitmap space.asid }
        spaces := system.spaces.erase space } := by
  have remaining : ∀ other ∈ system.spaces.erase space, other ∈ system.spaces :=
    fun other listed => List.mem_of_mem_erase listed
  constructor
  · intro query
    simp only [asids.asidFree live, Bool.and_eq_true, Bool.not_eq_true', decide_eq_false_iff_not,
      asids.held, distinct.mem_erase_iff]
    constructor
    · rintro ⟨other, nonzero, owner, listed, rfl⟩
      exact ⟨nonzero, owner, ⟨fun same => other (congrArg AddressSpace.asid same), listed⟩, rfl⟩
    · rintro ⟨nonzero, owner, ⟨different, listed⟩, rfl⟩
      exact ⟨fun same => different (asids.distinct owner listed space live same nonzero), nonzero,
        owner, listed, rfl⟩
  · exact fun other listed => asids.bound other (remaining other listed)
  · exact fun first firstLive second secondLive =>
      asids.distinct first (remaining first firstLive) second (remaining second secondLive)

/-- A table of the space at `pgd` that is not part of the shared kernel subtree: the L0 table
or one that its entries 1 to 511 lead to. -/
def OwnTable (memory : Memory) (pgd table : Nat) : Prop :=
  ∃ path, path.length ≤ 3 ∧ ¬SharedPath path ∧ tableAt memory pgd path = some table

/-- The teardown of `space` from `before` to `after` reclaims what the space owns. -/
structure Reclaims (tables : KernelTables image) (before : VmSystem) (space : AddressSpace)
    (after : VmSystem) : Prop where
  freedOnce : ∃ freed : List Nat, freed.Nodup ∧
    (∀ table, table ∈ freed ↔ OwnTable before.vm.mm.memory space.pgd table) ∧
    (∀ table ∈ freed, TablePage before.vm.mm table) ∧
    after.vm.mm = freed.foldl Mm.pageFree before.vm.mm ∧
    after.vm.mm.usedPages = before.vm.mm.usedPages - BitVec.ofNat 64 freed.length
  pages : ∀ index, after.vm.mm.isUsed index = true ↔
    before.vm.mm.isUsed index = true ∧
      ¬OwnTable before.vm.mm.memory space.pgd (pageAddress index)
  kernelKept : ∀ path table, path.length ≤ 3 →
    tableAt before.vm.mm.memory tables.pgdTable path = some table → TablePage after.vm.mm table
  othersKept : ∀ other ∈ before.spaces, other ≠ space → ∀ path table, path.length ≤ 3 →
    tableAt before.vm.mm.memory other.pgd path = some table → TablePage after.vm.mm table
  asidHeld : space.asid ≠ 0 → Bitmap.test before.vm.asidBitmap space.asid = true
  asidReleased : ∀ asid, Bitmap.test after.vm.asidBitmap asid = true ↔
    Bitmap.test before.vm.asidBitmap asid = true ∧ asid ≠ space.asid

theorem VmSystem.Sound.destroy_used {system : VmSystem} (sound : system.Sound tables)
    {space : AddressSpace} (live : space ∈ system.spaces) (index : Nat) :
    (vmDestroy system.vm space).1.mm.isUsed index = true ↔
      system.vm.mm.isUsed index = true ∧
        ¬OwnTable system.vm.mm.memory space.pgd (pageAddress index) := by
  have isRoot : space.pgd ∈ system.roots tables := system.space_mem_roots live
  have owned : ∀ page ∈ privateTables system.vm.mm.memory space.pgd, TablePage system.vm.mm page :=
    fun page listed => sound.forest.privateTables_page isRoot listed
  rw [congrArg Prod.fst (vmDestroy_eq sound.forest isRoot),
    foldl_pageFree_isUsed fun page listed => (owned page listed).imp fun _ page =>
      ⟨page.1, page.2.1⟩]
  simp only [Bool.and_eq_true, decide_eq_true_eq, mem_privateTables, OwnTable]
  exact and_comm

theorem VmSystem.Sound.reclaims {system : VmSystem} (sound : system.Sound tables)
    (asids : system.AsidsHeld) {space : AddressSpace} (live : space ∈ system.spaces) :
    Reclaims tables system space
      { vm := (vmDestroy system.vm space).1, spaces := system.spaces.erase space } := by
  have isRoot : space.pgd ∈ system.roots tables := system.space_mem_roots live
  have destroyed := congrArg Prod.fst (vmDestroy_eq sound.forest isRoot)
  have owned : ∀ page ∈ privateTables system.vm.mm.memory space.pgd, TablePage system.vm.mm page :=
    fun page listed => sound.forest.privateTables_page isRoot listed
  have distinct := sound.forest.privateTables_nodup isRoot
  obtain ⟨after, memory⟩ := sound.destroy live
  have rest := sound.roots_erase live (vmDestroy system.vm space).1
  constructor
  · refine ⟨privateTables system.vm.mm.memory space.pgd, distinct, fun table => mem_privateTables,
      owned, ?_, ?_⟩
    · rw [destroyed]
    · rw [destroyed]
      exact foldl_pageFree_usedPages owned distinct
  · exact sound.destroy_used live
  · intro path table short found
    apply after.forest.owned _ (kernel_mem_roots _) path table short
    rw [memory]
    exact found
  · intro other listed different path table short found
    have member : other.pgd ∈ system.roots tables := system.space_mem_roots listed
    apply after.forest.owned other.pgd ((rest _).mpr ⟨member, ?_⟩) path table short
    · rw [memory]
      exact found
    · exact fun same => different (sound.pgd_inj listed live same)
  · exact fun nonzero => (asids.held space.asid).mpr ⟨nonzero, space, live, rfl⟩
  · intro asid
    rw [destroyed, asids.asidFree live]
    simp only [Bool.and_eq_true, Bool.not_eq_true', decide_eq_false_iff_not]
    exact and_comm

def ReclaimsOnDestroy (tables : KernelTables image) (before : VmSystem) (action : VmAction)
    (after : VmSystem) : Prop :=
  match action with
  | .destroy space => Reclaims tables before space after
  | _ => True

theorem VmSystem.step_asids {system after : VmSystem} {action : VmAction}
    (sound : system.Sound tables) (asids : system.AsidsHeld)
    (stepped : system.step tables action = some after) :
    after.AsidsHeld ∧ ReclaimsOnDestroy tables system action after := by
  cases action with
  | create =>
      refine ⟨?_, trivial⟩
      rcases step_create system (sound.forest.rootPage system.kernel_mem_roots) with
        ⟨_, unchanged⟩ | ⟨fresh, mm, _, created⟩
      · rw [unchanged, Option.some.injEq] at stepped
        exact stepped ▸ asids
      · rw [created, Option.some.injEq] at stepped
        exact stepped ▸ asids.create mm fresh
  | map pgd vaddr paddr flags =>
      simp only [VmSystem.step, Option.ite_none_right_eq_some, Option.some.injEq] at stepped
      obtain ⟨_, rfl⟩ := stepped
      exact ⟨⟨asids.held, asids.bound, asids.distinct⟩, trivial⟩
  | destroy space =>
      simp only [VmSystem.step, Option.ite_none_right_eq_some, Option.some.injEq] at stepped
      obtain ⟨live, rfl⟩ := stepped
      refine ⟨?_, sound.reclaims asids live⟩
      have isRoot : space.pgd ∈ system.roots tables := system.space_mem_roots live
      rw [vmDestroy_eq sound.forest isRoot]
      exact asids.destroy (List.nodup_cons.mp sound.distinct).2.of_map live _

theorem VmSystem.AsidsHeld.free_asid {system : VmSystem} (asids : system.AsidsHeld)
    (few : system.spaces.length < asidMax - 1) :
    (asidAlloc system.vm.asidBitmap).2 ≠ 0 := by
  rcases asidAlloc_cases system.vm.asidBitmap with ⟨asid, positive, _, _, allocated⟩ | ⟨full, _⟩
  · rw [allocated]
    exact Nat.ne_of_gt positive
  · have listed : List.range' 1 (asidMax - 1) ⊆ system.spaces.map AddressSpace.asid := by
      intro asid inside
      simp only [List.mem_range'_1, asidMax] at inside
      obtain ⟨_, space, live, same⟩ := (asids.held asid).mp
        (full asid (by omega) (by simp only [asidMax]; omega))
      exact List.mem_map.mpr ⟨space, live, same⟩
    have long := (List.subperm_of_subset List.nodup_range' listed).length_le
    simp only [List.length_range', List.length_map] at long
    omega

def VmSystem.NonzeroAsids (system : VmSystem) : Prop := ∀ space ∈ system.spaces, space.asid ≠ 0

theorem VmSystem.step_nonzero {system after : VmSystem} {action : VmAction}
    (sound : system.Sound tables) (asids : system.AsidsHeld) (nonzero : system.NonzeroAsids)
    (stepped : system.step tables action = some after)
    (few : after.spaces.length ≤ asidMax - 1) : after.NonzeroAsids := by
  cases action with
  | create =>
      rcases step_create system (sound.forest.rootPage system.kernel_mem_roots) with
        ⟨_, unchanged⟩ | ⟨fresh, mm, _, created⟩
      · rw [unchanged, Option.some.injEq] at stepped
        exact stepped ▸ nonzero
      · rw [created, Option.some.injEq] at stepped
        subst stepped
        simp only [List.length_cons] at few
        simp only [VmSystem.NonzeroAsids, List.mem_cons, forall_eq_or_imp]
        exact ⟨asids.free_asid (by omega), nonzero⟩
  | map pgd vaddr paddr flags =>
      simp only [VmSystem.step, Option.ite_none_right_eq_some, Option.some.injEq] at stepped
      obtain ⟨_, rfl⟩ := stepped
      exact nonzero
  | destroy space =>
      simp only [VmSystem.step, Option.ite_none_right_eq_some, Option.some.injEq] at stepped
      obtain ⟨_, rfl⟩ := stepped
      exact fun other listed => nonzero other (List.mem_of_mem_erase listed)

def VmSystem.SharesOnlyZero (system : VmSystem) : Prop :=
  system.spaces.Pairwise fun first second => first.asid = second.asid → first.asid = 0

def VmSystem.DistinctAsids (system : VmSystem) : Prop :=
  (system.spaces.map AddressSpace.asid).Nodup ∧ 0 ∉ system.spaces.map AddressSpace.asid

theorem VmSystem.Sound.sharesOnlyZero {system : VmSystem} (sound : system.Sound tables)
    (asids : system.AsidsHeld) : system.SharesOnlyZero := by
  have distinct : system.spaces.Nodup := (List.nodup_cons.mp sound.distinct).2.of_map
  apply distinct.imp_of_mem
  intro first second firstLive secondLive different same
  by_contra nonzero
  exact different (asids.distinct first firstLive second secondLive same nonzero)

theorem VmSystem.Sound.distinctAsids {system : VmSystem} (sound : system.Sound tables)
    (asids : system.AsidsHeld) (nonzero : system.NonzeroAsids) : system.DistinctAsids := by
  constructor
  · rw [List.nodup_map_iff_inj_on (List.nodup_cons.mp sound.distinct).2.of_map]
    exact fun first firstLive second secondLive same =>
      asids.distinct first firstLive second secondLive same (nonzero first firstLive)
  · intro listed
    obtain ⟨space, live, zero⟩ := List.mem_map.mp listed
    exact nonzero space live zero

structure VmSystem.Consistent (tables : KernelTables image) (system : VmSystem) : Prop where
  sound : system.Sound tables
  asids : system.AsidsHeld

theorem boot_consistent {mm : Mm}
    (reserved : ∀ index < kernelPages image.stackTop, mm.isUsed index = true) :
    (VmSystem.boot tables mm).Consistent tables :=
  ⟨boot_sound reserved, boot_asidsHeld mm⟩

theorem VmSystem.Consistent.step {system after : VmSystem} {action : VmAction}
    (consistent : system.Consistent tables)
    (stepped : system.step tables action = some after) :
    after.Consistent tables ∧ ReclaimsOnDestroy tables system action after := by
  obtain ⟨asids, reclaims⟩ := VmSystem.step_asids consistent.sound consistent.asids stepped
  exact ⟨⟨(consistent.sound.step stepped).1, asids⟩, reclaims⟩

theorem boot_run_consistent {mm : Mm}
    (reserved : ∀ index < kernelPages image.stackTop, mm.isUsed index = true)
    {actions : List VmAction} {system : VmSystem}
    (run : Transition.exec (VmSystem.step tables) (VmSystem.boot tables mm) actions =
      some system) : system.Consistent tables :=
  Transition.exec_invariant
    (fun _ _ _ consistent stepped => (VmSystem.Consistent.step consistent stepped).1)
    (boot_consistent reserved) run

/-- Every `vm_destroy` reclaims exactly what its space owns, and until more than 255
spaces have been live at once all live ASIDs are distinct and non-zero. -/
theorem vmDestroy_reclaims (tables : KernelTables image) (mm : Mm)
    (reserved : ∀ index < kernelPages image.stackTop, mm.isUsed index = true)
    (actions : List VmAction) :
    Transition.EveryStep (VmSystem.step tables) (ReclaimsOnDestroy tables)
        (VmSystem.boot tables mm) actions ∧
      Transition.EveryState (VmSystem.step tables) VmSystem.SharesOnlyZero
        (VmSystem.boot tables mm) actions ∧
      (Transition.EveryState (VmSystem.step tables)
          (fun system => system.spaces.length ≤ asidMax - 1) (VmSystem.boot tables mm) actions →
        Transition.EveryState (VmSystem.step tables) VmSystem.DistinctAsids
          (VmSystem.boot tables mm) actions) := by
  have start : (VmSystem.boot tables mm).Consistent tables := boot_consistent reserved
  refine ⟨?_, ?_, ?_⟩
  · refine Transition.everyStep_of_invariant ?_ start actions
    intro system action after consistent stepped
    exact consistent.step stepped
  · apply Transition.EveryState.mono fun system (consistent : system.Consistent tables) =>
      consistent.sound.sharesOnlyZero consistent.asids
    exact Transition.everyState_of_invariant
      (fun _ _ _ consistent stepped => (VmSystem.Consistent.step consistent stepped).1)
      start actions
  · intro few
    have nonzero : (VmSystem.boot tables mm).NonzeroAsids := by
      simp [VmSystem.NonzeroAsids, VmSystem.boot]
    apply Transition.EveryState.mono fun system
      (both : system.Consistent tables ∧ system.NonzeroAsids) =>
        both.1.sound.distinctAsids both.1.asids both.2
    apply Transition.everyState_of_guard _ ⟨start, nonzero⟩ few.everyStep
    rintro system action after ⟨consistent, positive⟩ stepped short
    exact ⟨(consistent.step stepped).1,
      VmSystem.step_nonzero consistent.sound consistent.asids positive stepped short⟩

theorem vmDestroy_reclaims_two_spaces :
    Transition.EveryStep (VmSystem.step smallTables) (ReclaimsOnDestroy smallTables)
        (VmSystem.boot smallTables smallMm) twoSpaces ∧
      Transition.EveryState (VmSystem.step smallTables) VmSystem.SharesOnlyZero
        (VmSystem.boot smallTables smallMm) twoSpaces ∧
      (Transition.EveryState (VmSystem.step smallTables)
          (fun system => system.spaces.length ≤ asidMax - 1)
          (VmSystem.boot smallTables smallMm) twoSpaces →
        Transition.EveryState (VmSystem.step smallTables) VmSystem.DistinctAsids
          (VmSystem.boot smallTables smallMm) twoSpaces) :=
  vmDestroy_reclaims smallTables smallMm smallMm_reserved twoSpaces

theorem creates_live (count : Nat) (bound : count ≤ 256) :
    ∃ system, Transition.exec (VmSystem.step smallTables) (VmSystem.boot smallTables smallMm)
        (List.replicate count .create) = some system ∧
      system.Consistent smallTables ∧ system.spaces.length = count ∧
      ∀ index, 4 + count ≤ index → system.vm.mm.isUsed index = false := by
  induction count with
  | zero =>
      refine ⟨_, rfl, boot_consistent smallMm_reserved, rfl, ?_⟩
      intro index above
      have unused : smallMm.isUsed index = false := by
        have pages : kernelPages smallImage.stackTop = 4 := by decide
        rw [smallMm, mmInit_isUsed, pages]
        simpa using above
      exact unused
  | succ count ih =>
      obtain ⟨system, run, consistent, length, free⟩ := ih (by omega)
      cases allocated : system.vm.mm.pageAlloc with
      | mk mm result =>
        cases result with
        | none =>
            have used := (pageAlloc_none allocated).2 (4 + count) (by rw [maxPages_eq]; omega)
            rw [free _ (Nat.le_refl _)] at used
            simp at used
        | some fresh =>
            obtain ⟨index, _, _, lowest, rfl, rfl⟩ := pageAlloc_some allocated
            have stepped : system.step smallTables .create = some _ := step_create_some allocated
            refine ⟨_, ?_, (consistent.step stepped).1, ?_, ?_⟩
            · rw [List.replicate_succ', Transition.exec_append_iff]
              exact ⟨system, run, Transition.exec_cons_iff.mpr ⟨_, stepped, rfl⟩⟩
            · simp [length]
            · intro query above
              have low : index ≤ 4 + count := by
                by_contra higher
                have used := lowest (4 + count) (by omega)
                rw [free _ (Nat.le_refl _)] at used
                simp at used
              have kept : (system.vm.mm.take index 1).isUsed query = false := by
                rw [take_isUsed, free query (by omega)]
                simpa using fun _ => by omega
              exact kept

/-- No page that is mapped in the private half is freed. -/
def FreesNoLeaf (tables : KernelTables image) (before : VmSystem) (action : VmAction)
    (after : VmSystem) : Prop :=
  ∀ space, action = .destroy space → ∀ root ∈ before.roots tables, ∀ vaddr translation,
    2 ^ 39 ≤ vaddr → walk before.vm.mm.memory root vaddr = some translation →
    ∀ index < maxPages, translation.output / pageSize = ramFrame + index →
    before.vm.mm.isUsed index = true → after.vm.mm.isUsed index = true

def selfMapped : List VmAction :=
  [.create, .map (pageAddress 4) (2 ^ 39) (pageAddress 4) pageNormal]

theorem selfMapped_freed :
    ¬Transition.EveryStep (VmSystem.step smallTables) (FreesNoLeaf smallTables)
      (VmSystem.boot smallTables smallMm) (selfMapped ++ [.destroy ⟨pageAddress 4, 1⟩]) := by
  intro all
  have mapped : (Transition.exec (VmSystem.step smallTables) (VmSystem.boot smallTables smallMm)
      selfMapped).any (fun system =>
        decide (⟨pageAddress 4, 1⟩ ∈ system.spaces) && system.vm.mm.isUsed 4 &&
        decide (walk system.vm.mm.memory (pageAddress 4) (2 ^ 39) =
          some ⟨pageAddress 4, pageNormal⟩)) = true := by decide +kernel
  obtain ⟨system, run, facts⟩ := (Option.any_eq_true _ _).mp mapped
  simp only [Bool.and_eq_true, decide_eq_true_eq] at facts
  obtain ⟨⟨live, used⟩, leaf⟩ := facts
  have stepped : system.step smallTables (.destroy ⟨pageAddress 4, 1⟩) =
      some { vm := (vmDestroy system.vm ⟨pageAddress 4, 1⟩).1
             spaces := system.spaces.erase ⟨pageAddress 4, 1⟩ } := if_pos live
  have kept := all.snoc run stepped ⟨pageAddress 4, 1⟩ rfl (pageAddress 4)
    (system.space_mem_roots live) (2 ^ 39) _ (Nat.le_refl _) leaf 4 (by decide) rfl used
  have consistent := boot_run_consistent smallMm_reserved run
  have reclaims := consistent.sound.reclaims consistent.asids live
  have own : OwnTable system.vm.mm.memory (pageAddress 4) (pageAddress 4) :=
    ⟨[], by simp, by simp [SharedPath], rfl⟩
  exact ((reclaims.pages 4).mp kept).2 own

theorem fallback_asid_stays :
    ∃ actions, ¬Transition.EveryState (VmSystem.step smallTables)
      (fun system => system.spaces.length ≤ asidMax - 1 → system.DistinctAsids)
      (VmSystem.boot smallTables smallMm) actions := by
  obtain ⟨system, run, consistent, length, _⟩ := creates_live 256 (Nat.le_refl _)
  have fallback : ∃ space ∈ system.spaces, space.asid = 0 := by
    by_contra none
    have nonzero : system.NonzeroAsids := fun space live zero => none ⟨space, live, zero⟩
    have distinct := (consistent.sound.distinctAsids consistent.asids nonzero).1
    have inside : system.spaces.map AddressSpace.asid ⊆ List.range' 1 (asidMax - 1) := by
      intro asid listed
      obtain ⟨space, live, rfl⟩ := List.mem_map.mp listed
      have bound := consistent.asids.bound space live
      have positive := nonzero space live
      simp only [asidMax] at bound
      simp only [List.mem_range'_1, asidMax]
      omega
    have short := (List.subperm_of_subset distinct inside).length_le
    simp [length, asidMax] at short
  obtain ⟨space, live, zero⟩ := fallback
  have distinct : system.spaces.Nodup :=
    (List.nodup_cons.mp consistent.sound.distinct).2.of_map
  obtain ⟨other, listed, different⟩ : ∃ other ∈ system.spaces, other ≠ space := by
    by_contra none
    have inside : system.spaces ⊆ [space] := by
      intro other listed
      rw [List.mem_singleton]
      by_contra different
      exact none ⟨other, listed, different⟩
    have short := (List.subperm_of_subset distinct inside).length_le
    simp [length] at short
  have stepped : system.step smallTables (.destroy other) =
      some { vm := (vmDestroy system.vm other).1, spaces := system.spaces.erase other } :=
    if_pos listed
  refine ⟨List.replicate 256 .create ++ [.destroy other], fun all => ?_⟩
  have after := all.last (Transition.exec_append_iff.mpr
    ⟨system, run, Transition.exec_cons_iff.mpr ⟨_, stepped, rfl⟩⟩)
  have distinctAsids := after (by simp [List.length_erase_of_mem listed, length, asidMax])
  apply distinctAsids.2
  exact List.mem_map.mpr ⟨space, distinct.mem_erase_iff.mpr ⟨different.symm, live⟩, zero⟩

/-- Two limits of the teardown: a page that is both a mapped leaf and a table of the
space is freed, and ASID 0 outlives the time with more than 255 spaces. -/
theorem teardown_limits :
    (¬∀ actions, Transition.EveryStep (VmSystem.step smallTables) (FreesNoLeaf smallTables)
      (VmSystem.boot smallTables smallMm) actions) ∧
    ¬∀ actions, Transition.EveryState (VmSystem.step smallTables)
      (fun system => system.spaces.length ≤ asidMax - 1 → system.DistinctAsids)
      (VmSystem.boot smallTables smallMm) actions := by
  refine ⟨fun all => selfMapped_freed (all _), fun all => ?_⟩
  obtain ⟨actions, fails⟩ := fallback_asid_stays
  exact fails (all actions)

end DragoonKernel
