import DragoonKernel.AddressSpaceIsolation
import DragoonKernel.TaskRunSpec

/-!
ASIDs of live tasks. Exits never give an ASID back, and `task_create` falls back to
ASID 0 once the bitmap is full: live tasks have their own ASIDs exactly in the runs in
which every `task_create` that succeeds finds a free one.
-/

namespace DragoonKernel

def Smp.asid (smp : Smp) (task : Nat) : Nat := (smp.tasks task).addressSpace.asid

def UniqueAsids (system : TaskSystem) : Prop :=
  ∀ task, system.states task ≠ .dead → system.machine.smp.asid task ≠ 0 ∧
    ∀ other, system.states other ≠ .dead → other ≠ task →
      system.machine.smp.asid other ≠ system.machine.smp.asid task

/-- The condition at each `task_create` that does not fail. -/
def FindsAsid (pgdTable : Nat) (system : TaskSystem) (action : TaskAction) (_ : TaskSystem) :
    Prop :=
  match action with
  | .create _ _ => freeSlot system.states ≠ none → CreateFits pgdTable system.vm →
      ∃ asid, 0 < asid ∧ asid < asidMax ∧ Bitmap.test system.vm.asidBitmap asid = false
  | _ => True

structure Population.AsidsOwned (population : Population) : Prop where
  inside : population.Inside
  held : ∀ task held, population.holdings task = some held → 0 < held.space.asid ∧
    Bitmap.test population.vm.asidBitmap held.space.asid = true
  distinct : ∀ task other held otherHeld, population.holdings task = some held →
    population.holdings other = some otherHeld → held.space.asid = otherHeld.space.asid →
    task = other

variable {pgdTable : Nat} {system : TaskSystem} {population : Population}

theorem Population.AsidsOwned.unique (owned : system.population.AsidsOwned) :
    UniqueAsids system := by
  intro task live
  refine ⟨Nat.ne_of_gt (owned.held task _ (holdings_live live)).1, ?_⟩
  intro other otherLive different same
  exact different (owned.distinct other task _ _ (holdings_live otherLive) (holdings_live live) same)

theorem vmDestroy_asids (vm : Vm) (space : AddressSpace) {asid : Nat} (other : asid ≠ space.asid) :
    Bitmap.test (vmDestroy vm space).1.asidBitmap asid = Bitmap.test vm.asidBitmap asid := by
  unfold vmDestroy
  split
  next => rfl
  next =>
    simp only [asidFree]
    split
    next => rw [Bitmap.test_clear, decide_eq_false other, Bool.not_false, Bool.true_and]
    next => rfl

theorem vmCreate_asids {vm after : Vm} {space : AddressSpace}
    (made : vmCreate pgdTable vm ⟨0, 0⟩ = (after, space, 0)) :
    asidAlloc vm.asidBitmap = (after.asidBitmap, space.asid) := by
  rcases allocated : vm.mm.pageAlloc with ⟨mm, _ | fresh⟩
  · rw [vmCreate_none _ allocated] at made
    simp at made
  · rw [vmCreate_some _ allocated] at made
    simp only [Prod.mk.injEq, and_true] at made
    obtain ⟨rfl, rfl⟩ := made
    rfl

theorem Population.AsidsOwned.keep {holdings : Nat → Option Holding} {vm : Vm}
    (owned : population.AsidsOwned)
    (kept : ∀ task held, holdings task = some held → population.holdings task = some held)
    (marked : ∀ task held, holdings task = some held →
      Bitmap.test population.vm.asidBitmap held.space.asid = true →
      Bitmap.test vm.asidBitmap held.space.asid = true) :
    Population.AsidsOwned ⟨holdings, vm⟩ := by
  constructor
  · exact fun task held holds => owned.inside task held (kept task held holds)
  · intro task held holds
    obtain ⟨positive, bit⟩ := owned.held task held (kept task held holds)
    exact ⟨positive, marked task held holds bit⟩
  · intro task other held otherHeld holds otherHolds
    exact owned.distinct task other held otherHeld (kept task held holds)
      (kept other otherHeld otherHolds)

theorem Population.AsidsOwned.fill (owned : population.AsidsOwned) {slot asid : Nat}
    {held : Holding} {vm : Vm} (bound : slot < maxTasks) (positive : 0 < asid)
    (free : Bitmap.test population.vm.asidBitmap asid = false) (named : held.space.asid = asid)
    (marked : vm.asidBitmap = Bitmap.set population.vm.asidBitmap asid) :
    Population.AsidsOwned ⟨Function.update population.holdings slot (some held), vm⟩ := by
  have unowned : ∀ task other, population.holdings task = some other →
      other.space.asid ≠ asid := by
    rintro task other holds rfl
    rw [(owned.held task other holds).2] at free
    cases free
  constructor
  · intro task other holds
    rcases filled_some.mp holds with ⟨rfl, _⟩ | ⟨_, before⟩
    · exact bound
    · exact owned.inside task other before
  · intro task other holds
    rw [marked, Bitmap.test_set]
    rcases filled_some.mp holds with ⟨_, rfl⟩ | ⟨_, before⟩
    · rw [named]
      exact ⟨positive, by simp⟩
    · obtain ⟨nonzero, bit⟩ := owned.held task other before
      exact ⟨nonzero, by rw [bit, Bool.or_true]⟩
  · intro first second firstHeld secondHeld firstHolds secondHolds same
    rcases filled_some.mp firstHolds with ⟨rfl, rfl⟩ | ⟨_, firstBefore⟩ <;>
      rcases filled_some.mp secondHolds with ⟨rfl, rfl⟩ | ⟨_, secondBefore⟩
    · rfl
    · exact absurd (same.symm.trans named) (unowned second secondHeld secondBefore)
    · exact absurd (same.trans named) (unowned first firstHeld firstBefore)
    · exact owned.distinct first second firstHeld secondHeld firstBefore secondBefore same

theorem createFits_of_made {vm : Vm} {space : AddressSpace} {mm : Mm} {stack : Nat}
    (made : vmCreate pgdTable system.vm ⟨0, 0⟩ = (vm, space, 0))
    (allocated : vm.mm.pagesAlloc stackPages = (mm, some stack)) :
    CreateFits pgdTable system.vm := by
  rw [stackPages] at allocated
  simp [CreateFits, made, allocated]

theorem not_createFits_of_missing {vm : Vm} {space : AddressSpace} {mm : Mm}
    (made : vmCreate pgdTable system.vm ⟨0, 0⟩ = (vm, space, 0))
    (missing : vm.mm.pagesAlloc stackPages = (mm, none)) :
    ¬CreateFits pgdTable system.vm := by
  rw [stackPages] at missing
  simp [CreateFits, made, missing]

theorem Population.AsidsOwned.lifecycle {action : TaskAction} {next : TaskSystem}
    {reached : Population} (owned : system.population.AsidsOwned)
    (changed : Lifecycle pgdTable system action reached)
    (finds : FindsAsid pgdTable system action next) : reached.AsidsOwned := by
  cases changed with
  | keeps => exact owned
  | exits =>
      exact owned.keep (fun task held holds => (removed_some.mp holds).2)
        (fun _ _ _ marked => marked)
  | destroys live =>
      refine owned.keep (fun task held holds => (removed_some.mp holds).2) ?_
      intro task held holds marked
      obtain ⟨other, held⟩ := removed_some.mp holds
      rw [vmDestroy_asids]
      · exact marked
      · exact fun same => other (owned.distinct _ _ _ _ held live same)
  | lacksStack made =>
      refine owned.keep (fun _ _ holds => holds) ?_
      intro task held holds marked
      have bits := vmCreate_asids made
      rcases asidAlloc_cases system.vm.asidBitmap with ⟨asid, positive, _, free, allocated⟩ |
        ⟨_, allocated⟩
      · rw [allocated, Prod.mk.injEq] at bits
        have apart : held.space.asid ≠ asid := by
          rintro rfl
          exact absurd (marked.symm.trans free) (by decide)
        rw [vmDestroy_asids _ _ (bits.2 ▸ apart), ← bits.1, Bitmap.test_set, Bool.or_eq_true]
        exact Or.inr marked
      · rw [allocated, Prod.mk.injEq] at bits
        have nonzero := (owned.held task held holds).1
        rw [vmDestroy_asids _ _ (by omega), ← bits.1]
        exact marked
  | creates found made allocated =>
      obtain ⟨free, positive, bound, unmarked⟩ := finds (by simp [found])
        (createFits_of_made made allocated)
      have bits := vmCreate_asids made
      rcases asidAlloc_cases system.vm.asidBitmap with ⟨asid, nonzero, _, fresh, taken⟩ | ⟨full, _⟩
      · rw [taken, Prod.mk.injEq] at bits
        exact owned.fill (freeSlot_some found).2 nonzero fresh bits.2.symm bits.1.symm
      · rw [full free positive bound] at unmarked
        cases unmarked
  | maps => exact owned.keep (fun _ _ holds => holds) (fun _ _ _ marked => marked)

/-- A `task_create` that finds no free ASID succeeds with ASID 0. -/
theorem create_without_asid {action : TaskAction} {next : TaskSystem}
    (changed : Lifecycle pgdTable system action next.population)
    (full : ¬FindsAsid pgdTable system action next) : ¬UniqueAsids next := by
  intro unique
  cases action with
  | create name entry =>
      simp only [FindsAsid, Classical.not_imp, not_exists, not_and, Bool.not_eq_false] at full
      obtain ⟨room, fits, taken⟩ := full
      generalize reached : next.population = population at changed
      cases changed with
      | keeps still => exact still ⟨room, fits⟩
      | exits exit => rcases exit with impossible | impossible <;> cases impossible
      | lacksStack made missing => exact not_createFits_of_missing made missing fits
      | creates found made allocated =>
          rename_i slot stack vm space mm capTable
          have holds : next.population.holdings slot = some ⟨stack, space, capTable, 0⟩ := by
            rw [reached]
            exact Function.update_self slot _ _
          obtain ⟨live, same⟩ := holdings_eq_some.mp holds
          have bits := vmCreate_asids made
          rcases asidAlloc_cases system.vm.asidBitmap with ⟨asid, positive, bound, free, _⟩ | ⟨_, zero⟩
          · exact absurd (taken asid positive bound) (by simp [free])
          · rw [zero, Prod.mk.injEq] at bits
            rw [Holding.mk.injEq] at same
            apply (unique slot live).1
            rw [Smp.asid, ← same.2.1]
            exact bits.2.symm
  | _ => exact full trivial

theorem boot_asidsOwned {image : KernelImage} (tables : KernelTables image) (mm : Mm) :
    (TaskSystem.boot tables mm).population.AsidsOwned := by
  refine ⟨boot_inside tables mm, ?_, ?_⟩
  · intro task held holds
    cases holds
  · intro task other held otherHeld holds
    cases holds

/-- Live tasks have ASIDs of their own, none of them 0, exactly in the runs in which
every `task_create` that succeeds finds a free ASID. -/
theorem liveAsids_unique_iff {image : KernelImage} (tables : KernelTables image) (mm : Mm)
    (cpus : Nat) (taskTrampoline : Word) (actions : List TaskAction) :
    Transition.EveryState (TaskSystem.step cpus tables.pgdTable taskTrampoline) UniqueAsids
        (TaskSystem.boot tables mm) actions ↔
      Transition.EveryStep (TaskSystem.step cpus tables.pgdTable taskTrampoline)
        (FindsAsid tables.pgdTable) (TaskSystem.boot tables mm) actions := by
  have keeps : ∀ system action next, system.population.AsidsOwned →
      TaskSystem.step cpus tables.pgdTable taskTrampoline system action = some next →
      FindsAsid tables.pgdTable system action next → next.population.AsidsOwned :=
    fun system action next owned stepped finds =>
      owned.lifecycle (step_lifecycle owned.inside stepped) finds
  have spoils : ∀ (system : TaskSystem) action next, system.population.AsidsOwned →
      TaskSystem.step cpus tables.pgdTable taskTrampoline system action = some next →
      ¬FindsAsid tables.pgdTable system action next → ¬UniqueAsids next :=
    fun system action next owned stepped full =>
      create_without_asid (step_lifecycle owned.inside stepped) full
  exact Transition.everyState_iff_everyStep (fun _ owned => owned.unique) keeps spoils
    (boot_asidsOwned tables mm) actions

abbrev oneCpuStep : TaskSystem → TaskAction → Option TaskSystem :=
  TaskSystem.step 1 smallTables.pgdTable 0

theorem switch_run {system : TaskSystem} (phase : system.machine.phases 0 = .running)
    (moves : (system.machine.smp.schedule 0).1.current 0 ≠ system.machine.smp.current 0) :
    ∃ after, Transition.exec oneCpuStep system [.schedule 0, .contextSwitch 0] = some after ∧
      after.population = system.population ∧ after.machine.phases 0 = .running ∧
      after.machine.smp.current 0 = (system.machine.smp.schedule 0).1.current 0 := by
  obtain ⟨smp, old, new, ttbr0, decided⟩ : ∃ smp old new ttbr0,
      system.machine.smp.schedule 0 = (smp, .switch old new ttbr0) := by
    rcases schedule_cases system.machine.smp 0 with ⟨_, _, same⟩ | ⟨_, _, same⟩ |
      ⟨next, _, current, same⟩ | ⟨next, _, _, same⟩
    · rw [same] at moves
      exact absurd (oldContext_current _ _ _) moves
    · exact ⟨_, _, _, _, same⟩
    · rw [same, setState_current] at moves
      exact absurd (oldContext_current _ _ _) moves
    · exact ⟨_, _, _, _, same⟩
  have left : system.machine.schedule 0 = system.machine.leave 0 smp old new ttbr0 := by
    rw [Machine.schedule, decided]
    rfl
  have holdings := schedule_holdings system.machine.smp 0
  rw [decided] at holdings ⊢
  refine ⟨(system.withMachine (system.machine.schedule 0)).withMachine
    ((system.machine.schedule 0).contextSwitch 0 old new ttbr0), ?_, ?_, ?_, ?_⟩
  · have entering : (system.withMachine (system.machine.schedule 0)).machine.phases 0 =
        .switching old new ttbr0 := by
      rw [TaskSystem.withMachine, left]
      exact leave_phase _ _ _ _ _ _
    simp only [Transition.exec, TaskSystem.step, phase, and_self, Nat.lt_one_iff, if_true,
      Option.bind_some, entering]
    rfl
  · have saved : ((system.machine.schedule 0).contextSwitch 0 old new ttbr0).smp.holdings =
        system.machine.smp.holdings := by
      rw [left]
      exact (save_holdings _ _ _).trans holdings
    rw [TaskSystem.population, TaskSystem.population]
    exact congrArg (Population.mk · system.vm) saved
  · have entered := contextSwitch_phases (system.machine.schedule 0) 0 old new ttbr0 0
    rwa [if_pos rfl] at entered
  · rw [left]
    exact contextSwitch_current _ _ _ _ _ _

/-- `count` tasks have come and gone, and CPU 0 is idle. -/
structure Spent (count : Nat) (system : TaskSystem) : Prop where
  dead : ∀ task, system.population.holdings task = none
  idle : system.machine.smp.current 0 = -1
  phase : system.machine.phases 0 = .running
  taken : ∀ asid, 0 < asid → asid < asidMax →
    (Bitmap.test system.vm.asidBitmap asid = true ↔ asid ≤ count)
  pages : ∀ index, 4 + 5 * count ≤ index → system.vm.mm.isUsed index = false

theorem boot_spent : Spent 0 (TaskSystem.boot smallTables smallMm) := by
  refine ⟨fun _ => rfl, rfl, rfl, ?_, ?_⟩
  · intro asid positive _
    have empty : Bitmap.test (TaskSystem.boot smallTables smallMm).vm.asidBitmap asid = false :=
      Bitmap.test_empty asid
    rw [empty]
    simp only [Bool.false_eq_true, false_iff]
    omega
  · intro index above
    have pages : kernelPages smallImage.stackTop = 4 := by decide
    have unused : smallMm.isUsed index = false := by
      rw [smallMm, mmInit_isUsed, pages]
      simpa using above
    exact unused

theorem Spent.allocates {count : Nat} {system : TaskSystem} (spent : Spent count system)
    (few : count ≤ 255) : ∃ index ≤ 4 + 5 * count,
      system.vm.mm.pageAlloc = (system.vm.mm.take index 1, some (pageAddress index)) := by
  rcases allocated : system.vm.mm.pageAlloc with ⟨mm, _ | fresh⟩
  · have used := (pageAlloc_none allocated).2 (4 + 5 * count) (by rw [maxPages_eq]; omega)
    rw [spent.pages _ (Nat.le_refl _)] at used
    cases used
  · obtain ⟨index, _, _, below, rfl, rfl⟩ := pageAlloc_some allocated
    refine ⟨index, ?_, rfl⟩
    by_contra above
    have used := below (4 + 5 * count) (by omega)
    rw [spent.pages _ (Nat.le_refl _)] at used
    cases used

structure Filled (count : Nat) (system after : TaskSystem) : Prop where
  created : oneCpuStep system (.create [] 0) = some after
  percpu : after.machine.smp.percpu = system.machine.smp.percpu
  phases : after.machine.phases = system.machine.phases
  ready : after.states 0 = .ready
  others : ∀ task, task ≠ 0 → after.population.holdings task = none
  asids : asidAlloc system.vm.asidBitmap = (after.vm.asidBitmap, after.machine.smp.asid 0)
  pages : ∀ index, 4 + 5 * (count + 1) ≤ index → after.vm.mm.isUsed index = false

theorem Spent.fill {count : Nat} {system : TaskSystem} (spent : Spent count system)
    (few : count ≤ 255) : ∃ after, Filled count system after := by
  have slot : freeSlot system.states = some 0 := by
    have dead : system.states 0 = .dead := holdings_none.mp (spent.dead 0)
    rw [freeSlot, List.find?_range_eq_some]
    simp [dead, maxTasks]
  obtain ⟨index, low, allocated⟩ := spent.allocates few
  have made : vmCreate smallTables.pgdTable system.vm (system.machine.smp.tasks 0).addressSpace =
      _ := vmCreate_some _ allocated
  generalize written : writeEntry _ _ _ _ = memory at made
  have free : ∀ query, 4 + 5 * count + 1 ≤ query →
      Mm.isUsed { system.vm.mm.take index 1 with memory := memory } query = false := by
    intro query above
    have bits : Mm.isUsed { system.vm.mm.take index 1 with memory := memory } query =
        (system.vm.mm.take index 1).isUsed query := rfl
    rw [bits, take_isUsed, spent.pages query (by omega)]
    simpa using fun _ => by omega
  have positive : 0 < taskStackSize / pageSize := by decide
  obtain ⟨start, before, stack⟩ := pagesAlloc_first positive
    (by rw [maxPages_eq, taskStackSize, pageSize]; omega) (fun query above _ => free query above)
  obtain ⟨after, result⟩ : ∃ after, after = (system.taskCreate smallTables.pgdTable 0 [] 0).1 :=
    ⟨_, rfl⟩
  have created : oneCpuStep system (.create [] 0) = some after := congrArg some result.symm
  simp only [TaskSystem.taskCreate, slot, TaskSystem.createIn, made, Int.lt_irrefl, if_false,
    stack] at result
  subst result
  refine ⟨_, created, rfl, rfl, ?_, ?_, ?_, ?_⟩
  · simp [TaskSystem.states, TaskSystem.withSmp, Smp.states, Smp.setTask]
  · intro task other
    simp only [TaskSystem.population, TaskSystem.withSmp, setTask_holdings,
      Function.update_of_ne other]
    exact spent.dead task
  · simp [TaskSystem.withSmp, Smp.asid, Smp.setTask]
  · intro query above
    refine (take_isUsed _ start _ query).trans ?_
    rw [free query (by omega)]
    have outside : ¬(start ≤ query ∧ query < start + taskStackSize / pageSize) := by
      rw [taskStackSize, pageSize]
      omega
    simp [outside]

theorem Filled.found {count : Nat} {system after : TaskSystem}
    (filled : Filled count system after) : findReady after.states 0 = some 0 := by
  refine findReady_some.mpr ⟨maxTasks, by decide, Nat.le_refl _, by decide, filled.ready, ?_⟩
  intro earlier positive below ready
  have place : scanSlot 0 earlier = earlier := by
    rw [scanSlot, Nat.zero_add, Nat.mod_eq_of_lt below]
  have dead := holdings_none.mp (filled.others earlier (by omega))
  rw [place, TaskSystem.states, dead] at ready
  cases ready

def taskLifetime : List TaskAction := [.create [] 0, .schedule 0, .contextSwitch 0,
  .taskExitHandler 0, .schedule 0, .contextSwitch 0]

theorem Spent.lifetime {count : Nat} {system : TaskSystem} (spent : Spent count system)
    (few : count < 255) :
    ∃ after, Transition.exec oneCpuStep system taskLifetime = some after ∧
      Spent (count + 1) after := by
  obtain ⟨created, filled⟩ := spent.fill (by omega)
  have idle : created.machine.smp.current 0 = -1 := by
    rw [Smp.current, filled.percpu, ← Smp.current, spent.idle]
  have starts : (created.machine.smp.schedule 0).1.current 0 = 0 := by
    have found : findReady created.machine.smp.states (scanStart (-1)) = some 0 := filled.found
    rw [schedule_current, idle, found]
    rfl
  obtain ⟨runs, toTask, sameTask, phase, current⟩ := switch_run
    (by rw [filled.phases, spent.phase]) (by rw [starts, idle]; decide)
  rw [starts] at current
  have holds : runs.machine.smp.holdings = created.machine.smp.holdings :=
    congrArg Population.holdings sameTask
  have vm : runs.vm = created.vm := congrArg Population.vm sameTask
  have exits : oneCpuStep runs (.taskExitHandler 0) = some (runs.taskExitHandler 0) :=
    if_pos ⟨by decide, phase, by rw [current]⟩
  have gone : ∀ task, (runs.taskExitHandler 0).population.holdings task = none := by
    intro task
    have removed : (runs.taskExitHandler 0).population.holdings =
        Function.update created.machine.smp.holdings 0 none := by
      rw [← holds]
      exact (setState_holdings_dead _ _).trans (by rw [current]; rfl)
    rw [removed]
    by_cases here : task = 0
    · rw [here, Function.update_self]
    · rw [Function.update_of_ne here]
      exact filled.others task here
  have leaves : ((runs.taskExitHandler 0).machine.smp.schedule 0).1.current 0 = -1 := by
    have found : findReady (runs.taskExitHandler 0).machine.smp.states
        (scanStart 0) = none := by
      rw [findReady_none]
      intro offset _ _ ready
      rw [holdings_none.mp (gone (scanSlot (scanStart 0) offset))] at ready
      cases ready
    have still : (runs.taskExitHandler 0).machine.smp.current 0 = 0 := current
    rw [schedule_current, still, found]
    rfl
  have stillRunning : (runs.taskExitHandler 0).machine.phases 0 = .running := phase
  obtain ⟨after, toIdle, sameIdle, phaseIdle, currentIdle⟩ := switch_run stillRunning
    (by rw [leaves]; exact current ▸ by decide)
  have vmIdle : after.vm = created.vm := (congrArg Population.vm sameIdle).trans vm
  have unmarked : Bitmap.test system.vm.asidBitmap (count + 1) = false := by
    rw [← Bool.not_eq_true, spent.taken (count + 1) (by omega) (by rw [asidMax]; omega)]
    omega
  have marked : Bitmap.set system.vm.asidBitmap (count + 1) = after.vm.asidBitmap := by
    have taken := asidAlloc_lowest (by omega) (by rw [asidMax]; omega) unmarked
      fun lower positive below =>
        (spent.taken lower positive (by rw [asidMax]; omega)).mpr (by omega)
    rw [filled.asids, Prod.mk.injEq] at taken
    rw [vmIdle, taken.1]
  refine ⟨after, ?_, ?_, ?_, phaseIdle, ?_, ?_⟩
  · have whole : taskLifetime = ([.create [] 0] : List TaskAction) ++
        (([.schedule 0, .contextSwitch 0] : List TaskAction) ++
        (([.taskExitHandler 0] : List TaskAction) ++ [.schedule 0, .contextSwitch 0])) := rfl
    have creates : Transition.exec oneCpuStep system [.create [] 0] = some created :=
      Transition.exec_cons_iff.mpr ⟨created, filled.created, rfl⟩
    have ends : Transition.exec oneCpuStep runs [.taskExitHandler 0] =
        some (runs.taskExitHandler 0) := Transition.exec_cons_iff.mpr ⟨_, exits, rfl⟩
    simp only [whole, Transition.exec_append_iff]
    exact ⟨created, creates, runs, toTask, _, ends, toIdle⟩
  · intro task
    rw [sameIdle]
    exact gone task
  · rw [currentIdle, leaves]
  · intro asid positive bound
    rw [← marked, Bitmap.test_set, Bool.or_eq_true, decide_eq_true_eq,
      spent.taken asid positive bound]
    omega
  · intro index above
    rw [vmIdle]
    exact filled.pages index above

theorem lifetimes_spent (count : Nat) (bound : count ≤ 255) :
    ∃ system, Transition.exec oneCpuStep (TaskSystem.boot smallTables smallMm)
        (List.replicate count taskLifetime).flatten = some system ∧ Spent count system := by
  induction count with
  | zero => exact ⟨_, rfl, boot_spent⟩
  | succ count ih =>
      obtain ⟨system, run, spent⟩ := ih (by omega)
      obtain ⟨after, lived, next⟩ := spent.lifetime (by omega)
      refine ⟨after, ?_, next⟩
      rw [List.replicate_succ', List.flatten_append, Transition.exec_append_iff]
      exact ⟨system, run, by simpa using lived⟩

/-- The first task after 255 tasks have returned from their entries has ASID 0. -/
theorem exited_asids_exhausted :
    ¬∀ actions, Transition.EveryState oneCpuStep UniqueAsids
      (TaskSystem.boot smallTables smallMm) actions := by
  intro all
  obtain ⟨system, run, spent⟩ := lifetimes_spent 255 (Nat.le_refl _)
  obtain ⟨after, filled⟩ := spent.fill (Nat.le_refl _)
  have last : Transition.exec oneCpuStep system [.create [] 0] = some after :=
    Transition.exec_cons_iff.mpr ⟨after, filled.created, rfl⟩
  have unique : UniqueAsids after :=
    (all _).last (Transition.exec_append_iff.mpr ⟨system, run, last⟩)
  apply (unique 0 (by rw [filled.ready]; decide)).1
  have asids := filled.asids
  rcases asidAlloc_cases system.vm.asidBitmap with ⟨asid, positive, bound, free, _⟩ | ⟨_, zero⟩
  · have taken := (spent.taken asid positive bound).mpr (by rw [asidMax] at bound; omega)
    rw [free] at taken
    cases taken
  · rw [zero, Prod.mk.injEq] at asids
    exact asids.2.symm

end DragoonKernel
