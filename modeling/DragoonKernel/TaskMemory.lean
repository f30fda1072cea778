import Mathlib.Algebra.Order.BigOperators.Group.Finset
import Mathlib.Data.Set.Card
import Mathlib.Order.Interval.Finset.Nat
import DragoonKernel.AddressSpaceTables
import DragoonKernel.Library.Ledger
import DragoonKernel.TaskAsids

/-!
The pages of the live tasks. As long as no task exits, every used page belongs to the
boot image or to exactly one live task, as part of its stack or as a table of its own.
-/

namespace DragoonKernel

variable {image : KernelImage} {tables : KernelTables image}

inductive PageOwner where
  | boot
  | stack (task : Nat)
  | tables (task : Nat)
  deriving DecidableEq

def Population.owns (base : Mm) (population : Population) : PageOwner → Nat → Prop
  | .boot, index => base.isUsed index = true
  | .stack task, index => ∃ held start, population.holdings task = some held ∧
      held.stackBase = pageAddress start ∧ start ≤ index ∧ index < start + stackPages
  | .tables task, index => ∃ held, population.holdings task = some held ∧
      OwnTable population.vm.mm.memory held.space.pgd (pageAddress index)

/-- The bookkeeping of a population without exits; `spaces` are the live address spaces. -/
structure Population.Accounted (tables : KernelTables image) (base : Mm)
    (spaces : List AddressSpace) (population : Population) : Prop where
  inside : population.Inside
  sound : VmSystem.Sound tables ⟨population.vm, spaces⟩
  listed : ∀ space, space ∈ spaces ↔
    ∃ task held, population.holdings task = some held ∧ held.space = space
  stackPlaced : ∀ task held, population.holdings task = some held →
    ∃ start, held.stackBase = pageAddress start ∧ start + stackPages ≤ maxPages
  ledger : Ledger.Balanced (fun index => population.vm.mm.isUsed index = true)
    (population.owns base)
  kernel : ∀ path index, path.length ≤ 3 →
    tableAt population.vm.mm.memory tables.pgdTable path = some (pageAddress index) →
    base.isUsed index = true

variable {base : Mm} {spaces : List AddressSpace} {population : Population} {task : Nat}
  {held : Holding}

theorem Population.Accounted.live (accounted : population.Accounted tables base spaces)
    (holds : population.holdings task = some held) : held.space ∈ spaces :=
  (accounted.listed held.space).mpr ⟨task, held, holds, rfl⟩

theorem Population.Accounted.isRoot (accounted : population.Accounted tables base spaces)
    (holds : population.holdings task = some held) :
    held.space.pgd ∈ VmSystem.roots tables ⟨population.vm, spaces⟩ :=
  VmSystem.space_mem_roots (accounted.live holds)

theorem Population.Accounted.pgd_owned (accounted : population.Accounted tables base spaces)
    (holds : population.holdings task = some held) :
    ∃ index, held.space.pgd = pageAddress index ∧ population.owns base (.tables task) index := by
  obtain ⟨index, _, address, _⟩ := accounted.sound.forest.rootPage (accounted.isRoot holds)
  refine ⟨index, address, held, holds, ?_⟩
  exact ⟨[], by simp, by simp [SharedPath], congrArg some address⟩

theorem Population.Accounted.pgd_inj (accounted : population.Accounted tables base spaces)
    {other : Nat} {otherHeld : Holding} (holds : population.holdings task = some held)
    (otherHolds : population.holdings other = some otherHeld)
    (same : held.space.pgd = otherHeld.space.pgd) : task = other := by
  obtain ⟨index, address, own⟩ := accounted.pgd_owned holds
  obtain ⟨position, otherAddress, otherOwn⟩ := accounted.pgd_owned otherHolds
  obtain rfl : index = position := pageAddress_inj (by rw [← address, same, otherAddress])
  have owner := accounted.ledger.unique _ _ index own otherOwn
  exact PageOwner.tables.inj owner

theorem VmSystem.Sound.shared_path {system : VmSystem} (sound : system.Sound tables) {root : Nat}
    (member : root ∈ system.roots tables) {path : List (Fin 512)} (shared : SharedPath path) :
    tableAt system.vm.mm.memory root path = tableAt system.vm.mm.memory tables.pgdTable path := by
  cases path with
  | nil => simp [SharedPath] at shared
  | cons index rest =>
      obtain rfl : index = 0 := by simpa [SharedPath] using shared
      have entry : childTable system.vm.mm.memory root 0 =
          childTable system.vm.mm.memory tables.pgdTable 0 := by
        simp only [childTable, sound.sharedEntry root member]
      rw [tableAt, tableAt, TableTree.descend, TableTree.descend, entry]

/-- Every table that a walk can reach belongs to the boot image or to one task. -/
theorem Population.Accounted.reached (accounted : population.Accounted tables base spaces)
    {root index : Nat} (member : root ∈ VmSystem.roots tables ⟨population.vm, spaces⟩)
    {path : List (Fin 512)} (short : path.length ≤ 3)
    (found : tableAt population.vm.mm.memory root path = some (pageAddress index)) :
    population.owns base .boot index ∨ ∃ task, population.owns base (.tables task) index := by
  by_cases shared : SharedPath path
  · have same := accounted.sound.shared_path member shared
    exact Or.inl (accounted.kernel path index short (same.symm.trans found))
  · rcases member with rfl | listed
    · exact Or.inl (accounted.kernel path index short found)
    · obtain ⟨space, live, rfl⟩ := List.mem_map.mp listed
      obtain ⟨task, held, holds, rfl⟩ := (accounted.listed space).mp live
      exact Or.inr ⟨task, held, holds, path, short, shared, found⟩

theorem Population.Accounted.stack_apart (accounted : population.Accounted tables base spaces)
    {start : Nat} (holds : population.holdings task = some held)
    (address : held.stackBase = pageAddress start) {root index : Nat}
    (member : root ∈ VmSystem.roots tables ⟨population.vm, spaces⟩)
    {path : List (Fin 512)} (short : path.length ≤ 3)
    (found : tableAt population.vm.mm.memory root path = some (pageAddress index)) :
    ¬(start ≤ index ∧ index < start + stackPages) := by
  rintro ⟨lower, upper⟩
  have own : population.owns base (.stack task) index := ⟨held, start, holds, address, lower, upper⟩
  rcases accounted.reached member short found with boot | ⟨other, table⟩
  · cases accounted.ledger.unique _ _ index own boot
  · cases accounted.ledger.unique _ _ index own table

theorem Population.Accounted.stack_used (accounted : population.Accounted tables base spaces)
    {start : Nat} (holds : population.holdings task = some held)
    (address : held.stackBase = pageAddress start) (index : Nat) (lower : start ≤ index)
    (upper : index < start + stackPages) : population.vm.mm.isUsed index = true :=
  (accounted.ledger.used_iff index).mpr ⟨.stack task, held, start, holds, address, lower, upper⟩

theorem owns_removed {vm : Vm} (memory : vm.mm.memory = population.vm.mm.memory)
    (owner : PageOwner) (index : Nat) :
    Population.owns base ⟨Function.update population.holdings task none, vm⟩ owner index ↔
      population.owns base owner index ∧ ¬(owner = .stack task ∨ owner = .tables task) := by
  cases owner with
  | boot => simp [Population.owns]
  | stack other =>
      simp only [Population.owns, removed_some, PageOwner.stack.injEq, reduceCtorEq, or_false]
      constructor
      · rintro ⟨held, start, ⟨apart, holds⟩, range⟩
        exact ⟨⟨held, start, holds, range⟩, apart⟩
      · rintro ⟨⟨held, start, holds, range⟩, apart⟩
        exact ⟨held, start, ⟨apart, holds⟩, range⟩
  | tables other =>
      simp only [Population.owns, removed_some, PageOwner.tables.injEq, reduceCtorEq, false_or,
        memory]
      constructor
      · rintro ⟨held, ⟨apart, holds⟩, own⟩
        exact ⟨⟨held, holds, own⟩, apart⟩
      · rintro ⟨⟨held, holds, own⟩, apart⟩
        exact ⟨held, ⟨apart, holds⟩, own⟩

theorem Population.Accounted.destroy (accounted : population.Accounted tables base spaces)
    (holds : population.holdings task = some held) :
    Population.Accounted tables base (spaces.erase held.space)
      { holdings := Function.update population.holdings task none
        vm := (vmDestroy { population.vm with
          mm := population.vm.mm.pagesFree held.stackBase stackPages } held.space).1 } := by
  obtain ⟨start, address, inside⟩ := accounted.stackPlaced task held holds
  have live := accounted.live holds
  have used := accounted.stack_used holds address
  rw [address]
  have freed := accounted.sound.pagesFree inside used
    fun root member path index short found =>
      accounted.stack_apart holds address member short found
  obtain ⟨sound, memory⟩ := freed.destroy live
  simp only [pagesFree_memory] at memory
  have marks := freed.destroy_used live
  simp only [pagesFree_memory, (pagesFree_run population.vm.mm start stackPages inside used).1]
    at marks
  have nodup : spaces.Nodup := (List.nodup_cons.mp accounted.sound.distinct).2.of_map
  constructor
  · exact fun other otherHeld otherHolds =>
      accounted.inside other otherHeld (removed_some.mp otherHolds).2
  · exact sound
  · intro space
    simp only [nodup.mem_erase_iff, accounted.listed, removed_some]
    constructor
    · rintro ⟨different, other, otherHeld, otherHolds, rfl⟩
      refine ⟨other, otherHeld, ⟨?_, otherHolds⟩, rfl⟩
      rintro rfl
      rw [holds, Option.some.injEq] at otherHolds
      exact different (congrArg Holding.space otherHolds.symm)
    · rintro ⟨other, otherHeld, ⟨apart, otherHolds⟩, rfl⟩
      refine ⟨fun same => apart ?_, other, otherHeld, otherHolds, rfl⟩
      exact accounted.pgd_inj otherHolds holds (congrArg AddressSpace.pgd same)
  · exact fun other otherHeld otherHolds =>
      accounted.stackPlaced other otherHeld (removed_some.mp otherHolds).2
  · refine (accounted.ledger.giveUp fun owner => owner = .stack task ∨ owner = .tables task).congr
      ?_ (owns_removed memory)
    intro index
    rw [marks]
    simp only [Bool.and_eq_true, Bool.not_eq_true', decide_eq_false_iff_not]
    constructor
    · rintro ⟨⟨outside, marked⟩, notTable⟩
      refine ⟨marked, ?_⟩
      rintro owner (rfl | rfl) own
      · obtain ⟨other, begins, same, otherAddress, range⟩ := own
        rw [holds, Option.some.injEq] at same
        obtain rfl : begins = start := pageAddress_inj (by rw [← otherAddress, ← same, address])
        exact outside range
      · obtain ⟨other, same, table⟩ := own
        rw [holds, Option.some.injEq] at same
        exact notTable (same ▸ table)
    · rintro ⟨marked, kept⟩
      refine ⟨⟨?_, marked⟩, ?_⟩
      · exact fun range => kept _ (Or.inl rfl) ⟨held, start, holds, address, range⟩
      · exact fun table => kept _ (Or.inr rfl) ⟨held, holds, table⟩
  · intro path index short found
    rw [memory] at found
    exact accounted.kernel path index short found

theorem owns_congr {vm : Vm} {roots : Set Nat}
    (isRoot : ∀ task held, population.holdings task = some held → held.space.pgd ∈ roots)
    (same : SameTables population.vm.mm.memory vm.mm.memory roots) (owner : PageOwner)
    (index : Nat) : Population.owns base ⟨population.holdings, vm⟩ owner index ↔
      population.owns base owner index := by
  cases owner with
  | boot => rfl
  | stack task => rfl
  | tables task =>
      constructor
      · rintro ⟨held, holds, table⟩
        exact ⟨held, holds, (same.own (isRoot task held holds) _).mp table⟩
      · rintro ⟨held, holds, table⟩
        exact ⟨held, holds, (same.own (isRoot task held holds) _).mpr table⟩

theorem Population.Accounted.lackStack (accounted : population.Accounted tables base spaces)
    {vm : Vm} {space : AddressSpace}
    (made : vmCreate tables.pgdTable population.vm ⟨0, 0⟩ = (vm, space, 0)) :
    Population.Accounted tables base spaces
      { population with vm := (vmDestroy vm space).1 } := by
  obtain ⟨index, new⟩ := accounted.sound.vmCreate made
  obtain ⟨sound, memory⟩ := new.sound.destroy (List.mem_cons_self ..)
  have marks := new.sound.destroy_used (List.mem_cons_self ..)
  simp only [List.erase_cons_head] at sound memory marks
  have same : SameTables population.vm.mm.memory (vmDestroy vm space).1.mm.memory
      (VmSystem.roots tables ⟨population.vm, spaces⟩) := by
    rw [memory]
    exact new.kept
  constructor
  · exact accounted.inside
  · exact sound
  · exact accounted.listed
  · exact accounted.stackPlaced
  · refine accounted.ledger.congr ?_ (owns_congr (fun _ _ holds => accounted.isRoot holds) same)
    intro query
    rw [marks, new.used, new.own, new.address]
    constructor
    · rintro ⟨marked | rfl, apart⟩
      · exact marked
      · exact absurd rfl apart
    · intro marked
      refine ⟨Or.inl marked, fun here => ?_⟩
      rw [pageAddress_inj here, new.unused] at marked
      cases marked
  · intro path query short found
    rw [same _ (VmSystem.kernel_mem_roots _) path short] at found
    exact accounted.kernel path query short found

theorem roots_cons {vm other : Vm} {space : AddressSpace} :
    VmSystem.roots tables ⟨vm, spaces⟩ ⊆ VmSystem.roots tables ⟨other, space :: spaces⟩ := by
  rintro root (rfl | listed)
  · exact Or.inl rfl
  · exact Or.inr (List.mem_cons_of_mem _ listed)

theorem owns_filled {slot start index : Nat} {vm : Vm} {space : AddressSpace}
    {capTable : Nat → Int} {roots : Set Nat} (vacant : population.holdings slot = none)
    (isRoot : ∀ task held, population.holdings task = some held → held.space.pgd ∈ roots)
    (same : SameTables population.vm.mm.memory vm.mm.memory roots)
    (own : ∀ table, OwnTable vm.mm.memory space.pgd table ↔ table = pageAddress index)
    (owner : PageOwner) (query : Nat) :
    Population.owns base ⟨Function.update population.holdings slot
        (some ⟨pageAddress start, space, capTable, 0⟩), vm⟩ owner query ↔
      (population.owns base owner query ∨ (owner = .tables slot ∧ query = index)) ∨
        (owner = .stack slot ∧ start ≤ query ∧ query < start + stackPages) := by
  have apart : ∀ task held, population.holdings task = some held → task ≠ slot := by
    rintro task held holds rfl
    rw [vacant] at holds
    cases holds
  cases owner with
  | boot => simp [Population.owns]
  | stack task =>
      simp only [Population.owns, filled_some, PageOwner.stack.injEq, reduceCtorEq, false_and,
        or_false]
      constructor
      · rintro ⟨held, begins, ⟨rfl, rfl⟩ | ⟨_, holds⟩, address, range⟩
        · rw [← pageAddress_inj address] at range
          exact Or.inr ⟨rfl, range⟩
        · exact Or.inl ⟨held, begins, holds, address, range⟩
      · rintro (⟨held, begins, holds, address, range⟩ | ⟨rfl, range⟩)
        · exact ⟨held, begins, Or.inr ⟨apart task held holds, holds⟩, address, range⟩
        · exact ⟨_, start, Or.inl ⟨rfl, rfl⟩, rfl, range⟩
  | tables task =>
      simp only [Population.owns, filled_some, PageOwner.tables.injEq, reduceCtorEq, false_and,
        or_false]
      constructor
      · rintro ⟨held, ⟨rfl, rfl⟩ | ⟨_, holds⟩, table⟩
        · exact Or.inr ⟨rfl, pageAddress_inj ((own _).mp table)⟩
        · exact Or.inl ⟨held, holds, (same.own (isRoot task held holds) _).mp table⟩
      · rintro (⟨held, holds, table⟩ | ⟨rfl, rfl⟩)
        · exact ⟨held, Or.inr ⟨apart task held holds, holds⟩,
            (same.own (isRoot task held holds) _).mpr table⟩
        · exact ⟨_, Or.inl ⟨rfl, rfl⟩, (own _).mpr rfl⟩

theorem Population.Accounted.create (accounted : population.Accounted tables base spaces)
    {slot stack : Nat} {vm : Vm} {space : AddressSpace} {mm : Mm} {capTable : Nat → Int}
    (bound : slot < maxTasks) (vacant : population.holdings slot = none)
    (made : vmCreate tables.pgdTable population.vm ⟨0, 0⟩ = (vm, space, 0))
    (allocated : vm.mm.pagesAlloc stackPages = (mm, some stack)) :
    Population.Accounted tables base (space :: spaces)
      { holdings := Function.update population.holdings slot (some ⟨stack, space, capTable, 0⟩)
        vm := { vm with mm := mm } } := by
  obtain ⟨index, new⟩ := accounted.sound.vmCreate made
  obtain ⟨start, _, inside, free, rfl, rfl⟩ := pagesAlloc_some allocated
  obtain ⟨sound, later⟩ := new.sound.take free
  have same : SameTables population.vm.mm.memory (vm.mm.take start stackPages).memory
      (VmSystem.roots tables ⟨population.vm, spaces⟩) := by
    intro root member path short
    rw [later root (roots_cons member) path short]
    exact new.kept root member path short
  have own : ∀ table, OwnTable (vm.mm.take start stackPages).memory space.pgd table ↔
      table = pageAddress index := by
    intro table
    rw [later.own (VmSystem.space_mem_roots (List.mem_cons_self ..)), new.own, new.address]
  constructor
  · intro task held holds
    rcases filled_some.mp holds with ⟨rfl, _⟩ | ⟨_, before⟩
    · exact bound
    · exact accounted.inside task held before
  · exact sound
  · intro query
    simp only [List.mem_cons, accounted.listed, filled_some]
    constructor
    · rintro (rfl | ⟨task, held, holds, rfl⟩)
      · exact ⟨slot, _, Or.inl ⟨rfl, rfl⟩, rfl⟩
      · refine ⟨task, held, Or.inr ⟨?_, holds⟩, rfl⟩
        rintro rfl
        rw [vacant] at holds
        cases holds
    · rintro ⟨task, held, ⟨_, rfl⟩ | ⟨_, holds⟩, rfl⟩
      · exact Or.inl rfl
      · exact Or.inr ⟨task, held, holds, rfl⟩
  · intro task held holds
    rcases filled_some.mp holds with ⟨_, rfl⟩ | ⟨_, before⟩
    · exact ⟨start, rfl, inside⟩
    · exact accounted.stackPlaced task held before
  · have withTable := accounted.ledger.gain (.tables slot) (fun query => query = index)
      fun query here => by rw [here, new.unused]; decide
    have withStack := withTable.gain (.stack slot)
      (fun query => start ≤ query ∧ query < start + stackPages) ?_
    · refine withStack.congr ?_
        (owns_filled vacant (fun _ _ holds => accounted.isRoot holds) same own)
      intro query
      refine Iff.trans (Bool.eq_iff_iff.mp (take_isUsed vm.mm start stackPages query)) ?_
      rw [Bool.or_eq_true, decide_eq_true_eq, new.used, or_comm]
    · intro query range marked
      rw [← new.used, free query range.1 range.2] at marked
      cases marked
  · intro path query short found
    rw [same _ (VmSystem.kernel_mem_roots _) path short] at found
    exact accounted.kernel path query short found

theorem Population.Accounted.kernel_ne (accounted : population.Accounted tables base spaces)
    (holds : population.holdings task = some held) : tables.pgdTable ≠ held.space.pgd := by
  intro same
  apply (List.nodup_cons.mp accounted.sound.distinct).1
  rw [same]
  exact List.mem_map_of_mem (accounted.live holds)

theorem Population.Accounted.map (accounted : population.Accounted tables base spaces)
    {vaddr : Nat} (holds : population.holdings task = some held) (bound : vaddr < 2 ^ 48)
    (ownHalf : tableIndex vaddr 39 ≠ 0) (paddr : Nat) (flags : Word) :
    Population.Accounted tables base spaces { population with vm := { population.vm with
      mm := population.vm.mm.mapPage held.space.pgd vaddr paddr flags } } := by
  have isRoot := accounted.isRoot holds
  have sound := (accounted.sound.map isRoot bound paddr flags).1
  have grows := mapPage_grows accounted.sound.forest isRoot ownHalf paddr flags
  have others : ∀ root ∈ VmSystem.roots tables ⟨population.vm, spaces⟩, root ≠ held.space.pgd →
      root ∈ VmSystem.roots tables ⟨population.vm, spaces⟩ \ {held.space.pgd} :=
    fun root member different => ⟨member, different⟩
  have gained : ∀ index, OwnTable
      (population.vm.mm.mapPage held.space.pgd vaddr paddr flags).memory held.space.pgd
        (pageAddress index) ↔
      OwnTable population.vm.mm.memory held.space.pgd (pageAddress index) ∨
        (population.vm.mm.isUsed index = false ∧ OwnTable
          (population.vm.mm.mapPage held.space.pgd vaddr paddr flags).memory held.space.pgd
            (pageAddress index)) := by
    intro index
    constructor
    · intro own
      rcases grows.fresh _ own with old | isNew
      · exact Or.inl old
      · refine Or.inr ⟨?_, own⟩
        have placed := (tablePage_pageAddress (own.page sound.forest isRoot)).1
        rw [← Bool.not_eq_true]
        exact fun marked => isNew ⟨index, placed, rfl, marked⟩
    · rintro (old | ⟨_, own⟩)
      · exact grows.kept _ old
      · exact own
  constructor
  · exact accounted.inside
  · exact sound
  · exact accounted.listed
  · exact accounted.stackPlaced
  · refine (accounted.ledger.gain (.tables task) (fun index =>
      population.vm.mm.isUsed index = false ∧ OwnTable
        (population.vm.mm.mapPage held.space.pgd vaddr paddr flags).memory held.space.pgd
          (pageAddress index)) fun index isNew => by simp [isNew.1]).congr ?_ ?_
    · intro index
      rw [grows.used]
      cases marked : population.vm.mm.isUsed index <;> simp
    · intro owner index
      cases owner with
      | boot => simp [Population.owns]
      | stack other => simp [Population.owns]
      | tables other =>
          simp only [Population.owns, PageOwner.tables.injEq]
          by_cases here : other = task
          · subst here
            simp only [holds, Option.some.injEq, exists_eq_left', true_and]
            exact gained index
          · simp only [here, false_and, or_false]
            refine exists_congr fun otherHeld => and_congr_right fun otherHolds => ?_
            apply grows.others.own
            exact others _ (accounted.isRoot otherHolds)
              fun same => here (accounted.pgd_inj otherHolds holds same)
  · intro path index short found
    rw [grows.others _ (others _ (VmSystem.kernel_mem_roots _) (accounted.kernel_ne holds)) path
      short] at found
    exact accounted.kernel path index short found

noncomputable def Population.taskPages (population : Population) (task : Nat) : Nat :=
  match population.holdings task with
  | none => 0
  | some held =>
      stackPages + {table | OwnTable population.vm.mm.memory held.space.pgd table}.ncard

/-- Beyond the pages of `base`, the live tasks account for all used pages. -/
def Conserved (base : Mm) (system : TaskSystem) : Prop :=
  system.vm.mm.usedCount = base.usedCount +
    ∑ task ∈ Finset.range maxTasks, system.population.taskPages task

theorem Population.Accounted.taskPages_eq [∀ owner, DecidablePred (population.owns base owner)]
    (accounted : population.Accounted tables base spaces) (task : Nat) :
    ((Finset.range maxPages).filter (population.owns base (.stack task))).card +
        ((Finset.range maxPages).filter (population.owns base (.tables task))).card =
      population.taskPages task := by
  cases holds : population.holdings task with
  | none => simp [Population.taskPages, Population.owns, holds]
  | some held =>
      obtain ⟨start, address, inside⟩ := accounted.stackPlaced task held holds
      have stack : (Finset.range maxPages).filter (population.owns base (.stack task)) =
          Finset.Ico start (start + stackPages) := by
        ext index
        simp only [Finset.mem_filter, Finset.mem_range, Finset.mem_Ico]
        constructor
        · rintro ⟨_, other, begins, same, otherAddress, range⟩
          rw [holds, Option.some.injEq] at same
          obtain rfl : begins = start := pageAddress_inj (by rw [← otherAddress, ← same, address])
          exact range
        · exact fun range => ⟨by omega, held, start, holds, address, range⟩
      have own : {table | OwnTable population.vm.mm.memory held.space.pgd table} =
          pageAddress '' ((Finset.range maxPages).filter (population.owns base (.tables task))) := by
        ext table
        simp only [Set.mem_ofPred_eq, Set.mem_image, Finset.mem_coe, Finset.mem_filter,
          Finset.mem_range]
        constructor
        · intro isTable
          obtain ⟨index, bound, rfl, _⟩ := isTable.page accounted.sound.forest (accounted.isRoot holds)
          exact ⟨index, ⟨bound, held, holds, isTable⟩, rfl⟩
        · rintro ⟨index, ⟨_, other, same, isTable⟩, rfl⟩
          rw [holds, Option.some.injEq] at same
          exact same ▸ isTable
      have pages : population.taskPages task = stackPages +
          {table | OwnTable population.vm.mm.memory held.space.pgd table}.ncard := by
        rw [Population.taskPages, holds]
      rw [stack, Nat.card_Ico, pages, own,
        Set.ncard_image_of_injective _ fun _ _ => pageAddress_inj, Set.ncard_coe_finset]
      omega

theorem Population.Accounted.conserved {system : TaskSystem}
    (accounted : system.population.Accounted tables base spaces) : Conserved base system := by
  classical
  have parts := accounted.ledger.card_used (Finset.range maxPages)
    (insert .boot ((Finset.range maxTasks).image PageOwner.stack ∪
      (Finset.range maxTasks).image PageOwner.tables)) (by
    intro owner index _ own
    simp only [Finset.mem_insert, Finset.mem_union, Finset.mem_image, Finset.mem_range]
    cases owner with
    | boot => exact Or.inl rfl
    | stack task =>
        obtain ⟨held, _, holds, _⟩ := own
        exact Or.inr (Or.inl ⟨task, accounted.inside task held holds, rfl⟩)
    | tables task =>
        obtain ⟨held, holds, _⟩ := own
        exact Or.inr (Or.inr ⟨task, accounted.inside task held holds, rfl⟩))
  have apart : Disjoint ((Finset.range maxTasks).image PageOwner.stack)
      ((Finset.range maxTasks).image PageOwner.tables) := by
    rw [Finset.disjoint_left]
    simp
  rw [Finset.sum_insert (by simp), Finset.sum_union apart,
    Finset.sum_image fun _ _ _ _ same => PageOwner.stack.inj same,
    Finset.sum_image fun _ _ _ _ same => PageOwner.tables.inj same,
    ← Finset.sum_add_distrib] at parts
  simp only [accounted.taskPages_eq] at parts
  have boot : ((Finset.range maxPages).filter (system.population.owns base .boot)).card =
      base.usedCount := by
    rw [Mm.usedCount]
    congr
  have all : ((Finset.range maxPages).filter
      fun index => system.population.vm.mm.isUsed index = true).card = system.vm.mm.usedCount := by
    rw [Mm.usedCount]
    congr
  rw [Conserved, ← all, ← boot]
  exact parts

/-- The condition at each step: no live task returns from its entry or calls `SYS_EXIT`. -/
def NoExit (system : TaskSystem) (action : TaskAction) (_ : TaskSystem) : Prop :=
  match action with
  | .taskExitHandler cpu | .sysExit cpu =>
      system.states (system.machine.smp.current cpu).toNat = .dead
  | _ => True

theorem boot_accounted {mm : Mm}
    (reserved : ∀ index < kernelPages image.stackTop, mm.isUsed index = true) :
    (TaskSystem.boot tables mm).population.Accounted tables mm [] := by
  have vacant : ∀ task, (TaskSystem.boot tables mm).population.holdings task = none :=
    fun task => rfl
  have sound : (VmSystem.boot tables mm).Sound tables := boot_sound reserved
  refine ⟨boot_inside tables mm, sound, ?_, ?_, ⟨?_, ?_⟩, ?_⟩
  · simp [vacant]
  · simp [vacant]
  · intro index
    constructor
    · exact fun marked => ⟨.boot, marked⟩
    · rintro ⟨_ | task | task, own⟩
      · exact own
      · simp [Population.owns, vacant] at own
      · simp [Population.owns, vacant] at own
  · rintro (_ | task | task) (_ | other | other) index own also
    · rfl
    all_goals simp [Population.owns, vacant] at own also
  · intro path index short found
    exact (tablePage_pageAddress
      (sound.forest.owned _ (VmSystem.kernel_mem_roots _) path _ short found)).2

theorem Population.Accounted.lifecycle {system next : TaskSystem} {action : TaskAction}
    {reached : Population} (accounted : system.population.Accounted tables base spaces)
    (changed : Lifecycle tables.pgdTable system action reached)
    (stays : NoExit system action next) :
    ∃ after, reached.Accounted tables base after := by
  cases changed with
  | keeps => exact ⟨spaces, accounted⟩
  | exits exit current live =>
      rename_i cpu task held
      refine absurd ?_ (holdings_some live)
      have dead : system.states task = .dead := by
        rcases exit with rfl | rfl <;> simpa [NoExit, current] using stays
      exact dead
  | destroys live => exact ⟨_, accounted.destroy live⟩
  | lacksStack made => exact ⟨_, accounted.lackStack made⟩
  | creates found made allocated =>
      obtain ⟨vacant, bound⟩ := freeSlot_some found
      exact ⟨_, accounted.create bound (holdings_none.mpr vacant) made allocated⟩
  | maps live bound ownHalf => exact ⟨_, accounted.map live bound ownHalf _ _⟩

theorem exit_unconserved {system next : TaskSystem} {action : TaskAction}
    (accounted : system.population.Accounted tables base spaces)
    (changed : Lifecycle tables.pgdTable system action next.population)
    (leaves : ¬NoExit system action next) : ¬Conserved base next := by
  have before := accounted.conserved
  generalize reached : next.population = population at changed
  cases changed with
  | keeps still =>
      refine absurd ?_ leaves
      cases action <;> simp_all [NoExit, TaskSystem.Changes]
  | exits exit current live =>
      rename_i cpu task held
      intro after
      have vm : next.vm = system.vm := congrArg Population.vm reached
      have others : ∀ other, next.population.taskPages other =
          if other = task then 0 else system.population.taskPages other := by
        intro other
        by_cases here : other = task
        · simp [Population.taskPages, reached, here]
        · simp only [Population.taskPages, reached, Function.update_of_ne here, if_neg here]
      have fewer : ∑ other ∈ Finset.range maxTasks, next.population.taskPages other <
          ∑ other ∈ Finset.range maxTasks, system.population.taskPages other := by
        apply Finset.sum_lt_sum
        · intro other _
          rw [others]
          split <;> omega
        · refine ⟨task, Finset.mem_range.mpr (accounted.inside task held live), ?_⟩
          rw [others, if_pos rfl, Population.taskPages, live]
          exact Nat.lt_of_lt_of_le (by decide) (Nat.le_add_right stackPages _)
      rw [Conserved, vm] at after
      rw [Conserved] at before
      omega
  | _ => exact absurd trivial leaves

theorem Population.Accounted.step {cpus : Nat} {taskTrampoline : Word} {system next : TaskSystem}
    {action : TaskAction} (before : ∃ spaces, system.population.Accounted tables base spaces)
    (stepped : system.step cpus tables.pgdTable taskTrampoline action = some next)
    (stays : NoExit system action next) :
    ∃ spaces, next.population.Accounted tables base spaces := by
  obtain ⟨spaces, accounted⟩ := before
  exact accounted.lifecycle (step_lifecycle accounted.inside stepped) stays

/-- The live tasks account for all pages taken since boot exactly in the runs in which
no live task exits by itself. -/
theorem taskMemory_conserved_iff (tables : KernelTables image) (mm : Mm)
    (reserved : ∀ index < kernelPages image.stackTop, mm.isUsed index = true)
    (cpus : Nat) (taskTrampoline : Word) (actions : List TaskAction) :
    Transition.EveryState (TaskSystem.step cpus tables.pgdTable taskTrampoline) (Conserved mm)
        (TaskSystem.boot tables mm) actions ↔
      Transition.EveryStep (TaskSystem.step cpus tables.pgdTable taskTrampoline) NoExit
        (TaskSystem.boot tables mm) actions := by
  have spoils : ∀ (system : TaskSystem) action next,
      (∃ spaces, system.population.Accounted tables mm spaces) →
      TaskSystem.step cpus tables.pgdTable taskTrampoline system action = some next →
      ¬NoExit system action next → ¬Conserved mm next := by
    rintro system action next ⟨spaces, accounted⟩ stepped leaves
    exact exit_unconserved accounted (step_lifecycle accounted.inside stepped) leaves
  exact Transition.everyState_iff_everyStep (fun _ ⟨_, accounted⟩ => accounted.conserved)
    (fun _ _ _ => Population.Accounted.step) spoils ⟨[], boot_accounted reserved⟩ actions

def destroyedTasks : List TaskAction := [.create [] 0, .create [] 0,
  .map 0 (2 ^ 39) 0x40100000 pageNormal, .destroy 0, .create [] 0]

theorem taskMemory_conserved_destroyed :
    Transition.EveryState oneCpuStep (Conserved smallMm) (TaskSystem.boot smallTables smallMm)
      destroyedTasks := by
  refine (taskMemory_conserved_iff smallTables smallMm smallMm_reserved 1 0 destroyedTasks).mpr ?_
  exact fun _ _ => ⟨trivial, fun _ _ => ⟨trivial, fun _ _ => ⟨trivial, fun _ _ =>
    ⟨trivial, fun _ _ => ⟨trivial, trivial⟩⟩⟩⟩⟩

example : (Transition.exec oneCpuStep (TaskSystem.boot smallTables smallMm)
    destroyedTasks).isSome = true := by decide +kernel

/-- The five pages of a task that returns from its entry stay used. -/
theorem exit_leaks :
    ¬∀ actions, Transition.EveryState oneCpuStep (Conserved smallMm)
      (TaskSystem.boot smallTables smallMm) actions := by
  intro all
  have runs : (Transition.exec oneCpuStep (TaskSystem.boot smallTables smallMm)
      [.create [] 0, .schedule 0, .contextSwitch 0]).any (fun system =>
        decide (system.runsTask 1 0) &&
        decide (system.states (system.machine.smp.current 0).toNat ≠ .dead)) = true := by
    decide +kernel
  obtain ⟨system, run, facts⟩ := (Option.any_eq_true _ _).mp runs
  simp only [Bool.and_eq_true, decide_eq_true_eq] at facts
  have guarded : Transition.EveryStep oneCpuStep NoExit (TaskSystem.boot smallTables smallMm)
      [.create [] 0, .schedule 0, .contextSwitch 0] :=
    fun _ _ => ⟨trivial, fun _ _ => ⟨trivial, fun _ _ => ⟨trivial, trivial⟩⟩⟩
  obtain ⟨spaces, accounted⟩ := (Transition.everyState_of_guard
    (fun _ _ _ => Population.Accounted.step) ⟨[], boot_accounted smallMm_reserved⟩ guarded).last run
  have stepped : oneCpuStep system (.taskExitHandler 0) = some (system.taskExitHandler 0) :=
    if_pos facts.1
  have last : Transition.exec oneCpuStep system [.taskExitHandler 0] =
      some (system.taskExitHandler 0) := Transition.exec_cons_iff.mpr ⟨_, stepped, rfl⟩
  have conserved : Conserved smallMm (system.taskExitHandler 0) :=
    (all _).last (Transition.exec_append_iff.mpr ⟨system, run, last⟩)
  exact exit_unconserved accounted (step_lifecycle accounted.inside stepped) facts.2 conserved

end DragoonKernel
