import DragoonKernel.AddressSpaceForest
import DragoonKernel.Library.Transition

/-!
All address spaces translate the kernel's half of memory alike, and no operation on
the private half of one of them changes a translation of another.
-/

namespace DragoonKernel

variable {image : KernelImage} {tables : KernelTables image}

def VmSystem.roots (tables : KernelTables image) (system : VmSystem) : Set Nat :=
  {root | root = tables.pgdTable ∨ root ∈ system.spaces.map AddressSpace.pgd}

structure VmSystem.Sound (tables : KernelTables image) (system : VmSystem) : Prop where
  forest : Forest system.vm.mm (system.roots tables)
  distinct : (tables.pgdTable :: system.spaces.map AddressSpace.pgd).Nodup
  kernelEntry : hasBit (readEntry system.vm.mm.memory tables.pgdTable 0) pteValid = true
  sharedEntry : ∀ root ∈ system.roots tables, readEntry system.vm.mm.memory root 0 =
    readEntry system.vm.mm.memory tables.pgdTable 0

theorem VmSystem.kernel_mem_roots (system : VmSystem) : tables.pgdTable ∈ system.roots tables :=
  Or.inl rfl

theorem VmSystem.space_mem_roots {system : VmSystem} {space : AddressSpace}
    (live : space ∈ system.spaces) : space.pgd ∈ system.roots tables :=
  Or.inr (List.mem_map_of_mem live)

theorem boot_sound {mm : Mm}
    (reserved : ∀ index < kernelPages image.stackTop, mm.isUsed index = true) :
    (VmSystem.boot tables mm).Sound tables := by
  have single : (VmSystem.boot tables mm).roots tables = {tables.pgdTable} := by
    ext root
    simp [VmSystem.roots, VmSystem.boot]
  constructor
  · rw [single]
    exact boot_forest tables reserved
  · simp [VmSystem.boot]
  · simp only [VmSystem.boot, (bootEntries tables mm.memory).pgd, if_true]
    exact tableEntry_valid _
  · rw [single]
    rintro root rfl
    rfl

theorem step_create_some {system : VmSystem} {mm : Mm} {fresh : Nat}
    (allocated : system.vm.mm.pageAlloc = (mm, some fresh)) :
    system.step tables .create = some {
      vm := {
        mm := { mm with
          memory := writeEntry mm.memory fresh 0 (readEntry mm.memory tables.pgdTable 0) }
        asidBitmap := (asidAlloc system.vm.asidBitmap).1 }
      spaces := ⟨fresh, (asidAlloc system.vm.asidBitmap).2⟩ :: system.spaces } := by
  have created : vmCreate tables.pgdTable system.vm ⟨0, 0⟩ = _ := vmCreate_some _ allocated
  rw [VmSystem.step, created]
  simp

theorem step_create (system : VmSystem) (page : TablePage system.vm.mm tables.pgdTable) :
    (system.vm.mm.Exhausted ∧ system.step tables .create = some system) ∨
    (∃ fresh mm, NewRoot system.vm.mm mm tables.pgdTable fresh ∧
      system.step tables .create = some {
        vm := { mm := mm, asidBitmap := (asidAlloc system.vm.asidBitmap).1 }
        spaces := ⟨fresh, (asidAlloc system.vm.asidBitmap).2⟩ :: system.spaces }) := by
  cases allocated : system.vm.mm.pageAlloc with
  | mk mm result =>
    cases result with
    | none =>
        have created : vmCreate tables.pgdTable system.vm ⟨0, 0⟩ = _ := vmCreate_none _ allocated
        obtain ⟨rfl, exhausted⟩ := pageAlloc_none allocated
        refine Or.inl ⟨exhausted, ?_⟩
        rw [VmSystem.step, created]
        simp
    | some fresh =>
        exact Or.inr ⟨fresh, _, newRoot_of_alloc page allocated, step_create_some allocated⟩

theorem VmSystem.Sound.create {system : VmSystem} (sound : system.Sound tables)
    {fresh asid : Nat} {mm : Mm} {asidBitmap : Nat → BitVec 8}
    (new : NewRoot system.vm.mm mm tables.pgdTable fresh) :
    VmSystem.Sound tables
        { vm := { mm := mm, asidBitmap := asidBitmap }, spaces := ⟨fresh, asid⟩ :: system.spaces } ∧
      ∀ root ∈ system.roots tables, ∀ vaddr,
        walk mm.memory root vaddr = walk system.vm.mm.memory root vaddr := by
  obtain ⟨forest, walks⟩ := sound.forest.addRoot system.kernel_mem_roots new
  have more : VmSystem.roots tables
      { vm := { mm := mm, asidBitmap := asidBitmap }, spaces := ⟨fresh, asid⟩ :: system.spaces } =
      insert fresh (system.roots tables) := by
    ext root
    simp only [VmSystem.roots, List.map_cons, List.mem_cons, Set.mem_ofPred_eq, Set.mem_insert_iff]
    tauto
  have kept : ∀ root ∈ system.roots tables, ∀ index,
      readEntry mm.memory root index = readEntry system.vm.mm.memory root index :=
    fun root member index => new.frame root index (sound.forest.rootPage member)
  have kernel := kept _ system.kernel_mem_roots 0
  refine ⟨⟨more ▸ forest, ?_, ?_, ?_⟩, walks⟩
  · have outside : fresh ∉ tables.pgdTable :: system.spaces.map AddressSpace.pgd := by
      intro listed
      exact new.isNew (sound.forest.rootPage (by simpa [VmSystem.roots] using listed))
    have distinct := sound.distinct
    simp only [List.map_cons, List.nodup_cons, List.mem_cons, not_or] at outside distinct ⊢
    exact ⟨⟨Ne.symm outside.1, distinct.1⟩, outside.2, distinct.2⟩
  · rw [kernel]
    exact sound.kernelEntry
  · rw [more]
    rintro root (rfl | member)
    · rw [new.shared, kernel]
    · rw [kept root member, kernel]
      exact sound.sharedEntry root member

theorem VmSystem.Sound.map {system : VmSystem} (sound : system.Sound tables)
    {pgd vaddr : Nat} (isRoot : pgd ∈ system.roots tables) (bound : vaddr < 2 ^ 48)
    (paddr : Nat) (flags : Word) :
    VmSystem.Sound tables
        { system with vm :=
          { system.vm with mm := system.vm.mm.mapPage pgd vaddr paddr flags } } ∧
      (tableIndex vaddr 39 ≠ 0 → ∀ root ∈ system.roots tables, root ≠ pgd → ∀ address,
        walk (system.vm.mm.mapPage pgd vaddr paddr flags).memory root address =
          walk system.vm.mm.memory root address) := by
  have close : ∀ after : Mm, Forest after (system.roots tables) →
      (∀ root ∈ system.roots tables,
        readEntry after.memory root 0 = readEntry system.vm.mm.memory root 0) →
      VmSystem.Sound tables { system with vm := { system.vm with mm := after } } := by
    intro after forest entries
    have kernel := entries _ system.kernel_mem_roots
    refine ⟨forest, sound.distinct, ?_, ?_⟩
    · rw [kernel]
      exact sound.kernelEntry
    · intro root member
      rw [entries root member, kernel]
      exact sound.sharedEntry root member
  have validEntry : ∀ root ∈ system.roots tables,
      hasBit (readEntry system.vm.mm.memory root 0) pteValid = true := by
    intro root member
    rw [sound.sharedEntry root member]
    exact sound.kernelEntry
  rcases mapPage_outcome sound.forest isRoot vaddr paddr flags with
    ⟨level, table, same, _, _, _⟩ | ⟨middle, leaf, same, located, write⟩
  · exact ⟨close _ same.forest fun root member => same.rootEntries root member 0
      (validEntry root member), fun _ root member _ => same.walks root member⟩
  · obtain ⟨forest, entries⟩ := write.forest_kept same.forest isRoot located (by simp)
    refine ⟨close _ forest ?_, ?_⟩
    · intro root member
      rw [entries root member, same.rootEntries root member 0 (validEntry root member)]
    · intro notShared root member other address
      have unshared : ¬SharedPath (walkPath vaddr 3) := by
        simpa [SharedPath, walkPath] using notShared
      rw [write.walk_other same.forest bound isRoot located member (Or.inr ⟨other, unshared⟩)]
      exact same.walks root member address

theorem VmSystem.Sound.pgd_inj {system : VmSystem} (sound : system.Sound tables)
    {first second : AddressSpace} (firstLive : first ∈ system.spaces)
    (secondLive : second ∈ system.spaces) (same : first.pgd = second.pgd) : first = second :=
  List.inj_on_of_nodup_map (List.nodup_cons.mp sound.distinct).2 firstLive secondLive same

theorem VmSystem.Sound.roots_erase {system : VmSystem} (sound : system.Sound tables)
    {space : AddressSpace} (live : space ∈ system.spaces) (vm : Vm) (root : Nat) :
    root ∈ VmSystem.roots tables ⟨vm, system.spaces.erase space⟩ ↔
      root ∈ system.roots tables ∧ root ≠ space.pgd := by
  have distinct := List.nodup_cons.mp sound.distinct
  simp only [VmSystem.roots, List.mem_map, Set.mem_ofPred_eq, (distinct.2.of_map).mem_erase_iff]
  constructor
  · rintro (rfl | ⟨other, ⟨different, listed⟩, rfl⟩)
    · refine ⟨Or.inl rfl, ?_⟩
      intro same
      exact distinct.1 (same ▸ List.mem_map_of_mem live)
    · exact ⟨Or.inr ⟨other, listed, rfl⟩, fun same => different (sound.pgd_inj listed live same)⟩
  · rintro ⟨rfl | ⟨other, listed, rfl⟩, different⟩
    · exact Or.inl rfl
    · exact Or.inr ⟨other, ⟨fun same => different (congrArg AddressSpace.pgd same), listed⟩, rfl⟩

theorem VmSystem.Sound.destroy {system : VmSystem} (sound : system.Sound tables)
    {space : AddressSpace} (live : space ∈ system.spaces) :
    VmSystem.Sound tables
        { vm := (vmDestroy system.vm space).1, spaces := system.spaces.erase space } ∧
      (vmDestroy system.vm space).1.mm.memory = system.vm.mm.memory := by
  have isRoot : space.pgd ∈ system.roots tables := system.space_mem_roots live
  have rest := sound.roots_erase live
  have destroyed := congrArg Prod.fst (vmDestroy_eq sound.forest isRoot)
  have memory : (vmDestroy system.vm space).1.mm.memory = system.vm.mm.memory := by
    rw [destroyed, foldl_pageFree_memory]
  refine ⟨⟨?_, ?_, ?_, ?_⟩, memory⟩
  · rw [destroyed]
    apply sound.forest.free (fun root member => ((rest _ root).mp member).1)
    · exact fun page listed => sound.forest.privateTables_page isRoot listed
    · intro root member path table short found
      obtain ⟨before, other⟩ := (rest _ root).mp member
      exact sound.forest.privateTables_outside isRoot before other short found
  · exact sound.distinct.sublist ((List.erase_sublist.map _).cons_cons _)
  · rw [memory]
    exact sound.kernelEntry
  · rw [memory]
    exact fun root member => sound.sharedEntry root ((rest _ root).mp member).1

/-- The step keeps every translation that `action` does not own. -/
def Isolated (tables : KernelTables image) (before : VmSystem) (action : VmAction)
    (after : VmSystem) : Prop :=
  let keeps (root : Nat) : Prop :=
    ∀ address, walk after.vm.mm.memory root address = walk before.vm.mm.memory root address
  match action with
  | .create => ∀ root ∈ before.roots tables, keeps root
  | .map pgd vaddr _ _ =>
      tableIndex vaddr 39 ≠ 0 → ∀ root ∈ before.roots tables, root ≠ pgd → keeps root
  | .destroy space => ∀ root ∈ before.roots tables, root ≠ space.pgd → keeps root

theorem VmSystem.Sound.step {system after : VmSystem} {action : VmAction}
    (sound : system.Sound tables) (stepped : system.step tables action = some after) :
    after.Sound tables ∧ Isolated tables system action after := by
  cases action with
  | create =>
      rcases step_create system (sound.forest.rootPage system.kernel_mem_roots) with
        ⟨_, unchanged⟩ | ⟨fresh, mm, new, created⟩
      · rw [unchanged, Option.some.injEq] at stepped
        subst stepped
        exact ⟨sound, fun root _ address => rfl⟩
      · rw [created, Option.some.injEq] at stepped
        subst stepped
        exact sound.create new
  | map pgd vaddr paddr flags =>
      simp only [VmSystem.step, Option.ite_none_right_eq_some, Option.some.injEq] at stepped
      obtain ⟨⟨isRoot, bound, _⟩, rfl⟩ := stepped
      exact sound.map isRoot bound paddr flags
  | destroy space =>
      simp only [VmSystem.step, Option.ite_none_right_eq_some, Option.some.injEq] at stepped
      obtain ⟨live, rfl⟩ := stepped
      obtain ⟨after, memory⟩ := sound.destroy live
      exact ⟨after, fun root _ _ address => by rw [memory]⟩

theorem walk_shared {memory : Memory} {first second vaddr : Nat} (low : vaddr < 2 ^ 39)
    (same : readEntry memory first 0 = readEntry memory second 0) :
    walk memory first vaddr = walk memory second vaddr := by
  have entry : tableIndex vaddr 39 = 0 := by
    apply Fin.ext
    rw [tableIndex_val, Nat.div_eq_of_lt low]
    rfl
  simp only [walk, walkFrom, Nat.reduceAdd, Nat.reduceMul, entry, same]

def SharesKernel (tables : KernelTables image) (system : VmSystem) : Prop :=
  ∀ space ∈ system.spaces, ∀ vaddr < 2 ^ 39,
    walk system.vm.mm.memory space.pgd vaddr = walk system.vm.mm.memory tables.pgdTable vaddr

theorem VmSystem.Sound.sharesKernel {system : VmSystem} (sound : system.Sound tables) :
    SharesKernel tables system := by
  intro space live vaddr low
  exact walk_shared low (sound.sharedEntry space.pgd (system.space_mem_roots live))

/-- In every run after `mm_create_page_tables` all address spaces share the kernel's
translations below 2^39, and every step keeps the translations of all spaces it does
not act on, unless it maps a page in the shared part. -/
theorem addressSpaces_isolated (tables : KernelTables image) (mm : Mm)
    (reserved : ∀ index < kernelPages image.stackTop, mm.isUsed index = true)
    (actions : List VmAction) :
    Transition.EveryState (VmSystem.step tables) (SharesKernel tables)
        (VmSystem.boot tables mm) actions ∧
      Transition.EveryStep (VmSystem.step tables) (Isolated tables)
        (VmSystem.boot tables mm) actions := by
  have start : (VmSystem.boot tables mm).Sound tables := boot_sound reserved
  constructor
  · apply Transition.EveryState.mono fun system => VmSystem.Sound.sharesKernel
    exact Transition.everyState_of_invariant
      (fun _ _ _ sound stepped => (VmSystem.Sound.step sound stepped).1) start actions
  · refine Transition.everyStep_of_invariant ?_ start actions
    intro system action after sound stepped
    exact sound.step stepped

def smallImage : KernelImage := ⟨ramBase + 4 * pageSize, by decide, by decide⟩

def smallTables : KernelTables smallImage where
  pgdTable := pageAddress 0
  pudTable := pageAddress 1
  pmdTableDev := pageAddress 2
  pmdTableRam := pageAddress 3
  placed := by
    have pages : kernelPages smallImage.stackTop = 4 := by decide
    simp only [pages, List.mem_cons, List.not_mem_nil, or_false]
    rintro table (rfl | rfl | rfl | rfl)
    · exact ⟨0, by decide, rfl⟩
    · exact ⟨1, by decide, rfl⟩
    · exact ⟨2, by decide, rfl⟩
    · exact ⟨3, by decide, rfl⟩
  distinct := by decide

def smallMm : Mm := mmInit smallImage.stackTop fun _ _ => 0

theorem smallMm_reserved : ∀ index < kernelPages smallImage.stackTop,
    smallMm.isUsed index = true := by
  intro index bound
  rw [smallMm, mmInit_isUsed]
  simpa using bound

def twoSpaces : List VmAction := [.create, .create,
  .map (pageAddress 4) (2 ^ 39) 0x40100000 pageNormal,
  .map (pageAddress 5) (2 ^ 32) 0x09000000 pageDevice,
  .destroy ⟨pageAddress 4, 1⟩]

theorem addressSpaces_isolated_two_spaces :
    Transition.EveryState (VmSystem.step smallTables) (SharesKernel smallTables)
        (VmSystem.boot smallTables smallMm) twoSpaces ∧
      Transition.EveryStep (VmSystem.step smallTables) (Isolated smallTables)
        (VmSystem.boot smallTables smallMm) twoSpaces :=
  addressSpaces_isolated smallTables smallMm smallMm_reserved twoSpaces

example : (Transition.exec (VmSystem.step smallTables) (VmSystem.boot smallTables smallMm)
    twoSpaces).isSome = true := by decide +kernel

end DragoonKernel
