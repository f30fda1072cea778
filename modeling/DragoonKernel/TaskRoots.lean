import DragoonKernel.TaskMemory

/-!
The page tables that the CPUs translate through. A CPU that goes idle keeps the TTBR0
of the task it leaves, and `task_destroy` does not look at it: the roots stay live
exactly in the runs in which no destroyed task's table is still in some TTBR0.
-/

namespace DragoonKernel

variable {image : KernelImage} {tables : KernelTables image}

/-- The runs without exits in which `task_destroy` gets no task that is current somewhere. -/
def TaskSystem.MayStep (cpus : Nat) (system : TaskSystem) : TaskAction → Prop
  | .destroy taskId => ∀ cpu < cpus, 0 ≤ system.machine.smp.current cpu →
      system.machine.smp.current cpu ≠ taskId
  | .taskExitHandler _ | .sysExit _ => False
  | _ => True

instance (cpus : Nat) (system : TaskSystem) : ∀ action, Decidable (system.MayStep cpus action)
  | .destroy taskId =>
      inferInstanceAs (Decidable (∀ cpu < cpus, 0 ≤ system.machine.smp.current cpu →
        system.machine.smp.current cpu ≠ taskId))
  | .taskExitHandler _ | .sysExit _ => inferInstanceAs (Decidable False)
  | .create _ _ | .schedule _ | .contextSwitch _ | .block _ | .wake _ | .map _ _ _ _ =>
      inferInstanceAs (Decidable True)

def TaskSystem.rootStep (cpus pgdTable : Nat) (taskTrampoline : Word) (system : TaskSystem)
    (action : TaskAction) : Option TaskSystem :=
  if system.MayStep cpus action then system.step cpus pgdTable taskTrampoline action else none

def RootsLive (tables : KernelTables image) (cpus : Nat) (system : TaskSystem) : Prop :=
  ∀ cpu < cpus,
    (ttbr0Root (system.machine.ttbr0 cpu) = tables.pgdTable ∨
      ∃ task, system.states task ≠ .dead ∧
        (system.machine.smp.tasks task).addressSpace.pgd =
          ttbr0Root (system.machine.ttbr0 cpu)) ∧
    TablePage system.vm.mm (ttbr0Root (system.machine.ttbr0 cpu))

/-- The condition at each `task_destroy` of a live task: no CPU still translates with it. -/
def FreesNoRoot (cpus : Nat) (system : TaskSystem) (action : TaskAction) (_ : TaskSystem) : Prop :=
  match action with
  | .destroy taskId => ∀ task, taskGet system.states taskId = some task → ∀ cpu < cpus,
      ttbr0Root (system.machine.ttbr0 cpu) ≠ (system.machine.smp.tasks task).addressSpace.pgd
  | _ => True

theorem ttbr0Root_task {mm : Mm} {space : AddressSpace} (page : TablePage mm space.pgd) :
    ttbr0Root (taskTtbr0 space) = space.pgd := by
  obtain ⟨index, bound, address, _⟩ := page
  obtain ⟨low, aligned⟩ := pageAddress_low bound
  rw [← address] at low aligned
  have present : space.pgd ≠ 0 := by
    rw [address, pageAddress_eq]
    omega
  have bits : taskTtbr0 space &&& outputMask = BitVec.ofNat 64 space.pgd := by
    apply BitVec.eq_of_getLsbD_eq
    intro position inside
    rw [taskTtbr0, if_neg present, BitVec.getLsbD_and, BitVec.getLsbD_or,
      getLsbD_outputMask _ inside, BitVec.getLsbD_shiftLeft]
    by_cases address : 12 ≤ position ∧ position < 48
    · simp [address]
    · rw [getLsbD_aligned aligned low position (by omega)]
      simp [address]
  rw [ttbr0Root, outputAddress, bits, BitVec.toNat_ofNat, Nat.mod_eq_of_lt (by omega)]

structure Rooted (tables : KernelTables image) (base : Mm) (cpus : Nat) (system : TaskSystem) :
    Prop where
  accounted : ∃ spaces, system.population.Accounted tables base spaces
  roots : ∀ cpu < cpus, ttbr0Root (system.machine.ttbr0 cpu) = tables.pgdTable ∨
    ∃ task held, system.population.holdings task = some held ∧
      held.space.pgd = ttbr0Root (system.machine.ttbr0 cpu)
  pending : ∀ cpu < cpus, ∀ old new ttbr0, system.machine.phases cpu = .switching old new ttbr0 →
    ttbr0 = 0 ∨ ∃ task held, system.machine.smp.current cpu = (task : Nat) ∧
      system.population.holdings task = some held ∧ held.space.pgd = ttbr0Root ttbr0

variable {base : Mm} {cpus cpu : Nat} {taskTrampoline : Word} {system after : TaskSystem}
  {action : TaskAction}

theorem Rooted.rootsLive (rooted : Rooted tables base cpus system) :
    RootsLive tables cpus system := by
  obtain ⟨spaces, accounted⟩ := rooted.accounted
  intro cpu bound
  rcases rooted.roots cpu bound with kernel | ⟨task, held, holds, root⟩
  · refine ⟨Or.inl kernel, ?_⟩
    rw [kernel]
    exact accounted.sound.forest.rootPage (VmSystem.kernel_mem_roots _)
  · obtain ⟨live, same⟩ := holdings_eq_some.mp holds
    refine ⟨Or.inr ⟨task, live, ?_⟩, ?_⟩
    · rw [← root, same]
    · rw [← root]
      exact accounted.sound.forest.rootPage (accounted.isRoot holds)

theorem Rooted.other (rooted : Rooted tables base cpus system)
    (same : SameCpus system after) (may : system.MayStep cpus action)
    (changed : Lifecycle tables.pgdTable system action after.population)
    (frees : FreesNoRoot cpus system action after) : Rooted tables base cpus after := by
  obtain ⟨spaces, accounted⟩ := rooted.accounted
  have stays : NoExit system action after := by
    cases action <;> first | exact may.elim | exact trivial
  constructor
  · exact accounted.lifecycle changed stays
  · intro cpu bound
    rw [same.ttbr0]
    rcases rooted.roots cpu bound with kernel | ⟨task, held, holds, root⟩
    · exact Or.inl kernel
    · refine Or.inr ⟨task, held, changed.holdings_kept holds fun ends => ?_, root⟩
      cases action with
      | destroy taskId =>
          obtain ⟨live, space⟩ := holdings_eq_some.mp holds
          have found : taskGet system.states taskId = some task :=
            taskGet_some.mpr ⟨ends, accounted.inside task held holds, live⟩
          exact frees task found cpu bound (by rw [← root, space])
      | taskExitHandler => exact may
      | sysExit => exact may
      | _ => exact ends
  · intro cpu bound old new ttbr0 switching
    rw [same.phases] at switching
    rcases rooted.pending cpu bound old new ttbr0 switching with
      zero | ⟨task, held, current, holds, root⟩
    · exact Or.inl zero
    · refine Or.inr ⟨task, held, (same.current cpu).trans current,
        changed.holdings_kept holds fun ends => ?_, root⟩
      cases action with
      | destroy taskId => exact may cpu bound (by omega) (current.trans ends.symm)
      | taskExitHandler => exact may
      | sysExit => exact may
      | _ => exact ends

/-- `schedule()` leaves TTBR0 alone, and plans to load nothing or the table of the task
that it has made current. -/
theorem schedule_plan (machine : Machine) (cpu : Nat) :
    (machine.schedule cpu).ttbr0 = machine.ttbr0 ∧
      (∀ other, other ≠ cpu → (machine.schedule cpu).phases other = machine.phases other) ∧
      ∀ old new ttbr0, (machine.schedule cpu).phases cpu = .switching old new ttbr0 →
        machine.phases cpu = .switching old new ttbr0 ∨ ttbr0 = 0 ∨
        ∃ task held, (machine.schedule cpu).smp.current cpu = (task : Nat) ∧
          machine.smp.holdings task = some held ∧ ttbr0 = taskTtbr0 held.space := by
  rcases schedule_cases machine.smp cpu with ⟨_, _, same⟩ | ⟨_, _, same⟩ | ⟨next, _, _, same⟩ |
    ⟨next, found, _, same⟩
  · rw [Machine.schedule, same]
    exact ⟨rfl, fun _ _ => rfl, fun _ _ _ switching => Or.inl switching⟩
  · rw [Machine.schedule, same]
    refine ⟨rfl, fun other different => Function.update_of_ne different _ _, ?_⟩
    intro old new ttbr0 switching
    simp only [Function.update_self, Phase.switching.injEq] at switching
    exact Or.inr (Or.inl switching.2.2.symm)
  · rw [Machine.schedule, same]
    exact ⟨rfl, fun _ _ => rfl, fun _ _ _ switching => Or.inl switching⟩
  · rw [Machine.schedule, same]
    refine ⟨rfl, fun other different => Function.update_of_ne different _ _, ?_⟩
    intro old new ttbr0 switching
    simp only [Function.update_self, Phase.switching.injEq] at switching
    have live : (machine.smp.oldContext cpu).1.states next ≠ .dead := by
      rw [Ne, ← holdings_none, oldContext_holdings, holdings_none, (findReady_ready found).1]
      decide
    have holds := holdings_live live
    rw [oldContext_holdings] at holds
    exact Or.inr (Or.inr ⟨next, _, by simp, holds, switching.2.2.symm⟩)

theorem Rooted.schedule (rooted : Rooted tables base cpus system)
    (phase : system.machine.phases cpu = .running) :
    Rooted tables base cpus (system.withMachine (system.machine.schedule cpu)) := by
  obtain ⟨spaces, accounted⟩ := rooted.accounted
  obtain ⟨ttbr0s, others, planned⟩ := schedule_plan system.machine cpu
  have same : (system.withMachine (system.machine.schedule cpu)).population =
      system.population := by
    have holdings := schedule_holdings system.machine.smp cpu
    rw [← machine_schedule_smp] at holdings
    exact congrArg (Population.mk · system.vm) holdings
  have still : ∀ other, other ≠ cpu →
      (system.machine.schedule cpu).smp.current other = system.machine.smp.current other := by
    intro other different
    rw [machine_schedule_smp, schedule_current, if_neg different]
  constructor
  · rw [same]
    exact ⟨spaces, accounted⟩
  · rw [same]
    simp only [TaskSystem.withMachine, ttbr0s]
    exact rooted.roots
  · rw [same]
    simp only [TaskSystem.withMachine]
    intro other otherBound old new ttbr0 switching
    by_cases here : other = cpu
    · subst here
      rcases planned old new ttbr0 switching with before | zero | ⟨task, held, current, holds, root⟩
      · cases phase.symm.trans before
      · exact Or.inl zero
      · refine Or.inr ⟨task, held, current, holds, ?_⟩
        rw [root, ttbr0Root_task (accounted.sound.forest.rootPage (accounted.isRoot holds))]
    · rw [others other here] at switching
      rw [still other here]
      exact rooted.pending other otherBound old new ttbr0 switching

theorem Rooted.contextSwitch (rooted : Rooted tables base cpus system) (bound : cpu < cpus)
    {old new : ContextRef} {ttbr0 : Word}
    (phase : system.machine.phases cpu = .switching old new ttbr0) :
    Rooted tables base cpus
      (system.withMachine (system.machine.contextSwitch cpu old new ttbr0)) := by
  have same : (system.withMachine (system.machine.contextSwitch cpu old new ttbr0)).population =
      system.population :=
    congrArg (Population.mk · system.vm) (save_holdings _ _ _)
  constructor
  · rw [same]
    exact rooted.accounted
  · rw [same]
    simp only [TaskSystem.withMachine, Machine.contextSwitch]
    intro other otherBound
    split
    next => exact rooted.roots other otherBound
    next loads =>
      by_cases here : other = cpu
      · subst here
        rw [Function.update_self]
        rcases rooted.pending other otherBound old new ttbr0 phase with
          zero | ⟨task, held, _, holds, root⟩
        · exact absurd zero loads
        · exact Or.inr ⟨task, held, holds, root⟩
      · rw [Function.update_of_ne here]
        exact rooted.roots other otherBound
  · rw [same]
    simp only [TaskSystem.withMachine, contextSwitch_current]
    intro other otherBound left entered root switching
    exact rooted.pending other otherBound left entered root
      (switching_of_contextSwitch switching).2

theorem Rooted.step (rooted : Rooted tables base cpus system)
    (stepped : system.rootStep cpus tables.pgdTable taskTrampoline action = some after)
    (frees : FreesNoRoot cpus system action after) : Rooted tables base cpus after := by
  rw [TaskSystem.rootStep, Option.ite_none_right_eq_some] at stepped
  obtain ⟨may, stepped⟩ := stepped
  obtain ⟨spaces, accounted⟩ := rooted.accounted
  by_cases other : ∀ cpu, action ≠ .schedule cpu ∧ action ≠ .contextSwitch cpu
  · exact rooted.other (step_sameCpus stepped other) may
      (step_lifecycle accounted.inside stepped) frees
  · cases action with
    | schedule cpu =>
        simp only [TaskSystem.step, Option.ite_none_right_eq_some, Option.some.injEq] at stepped
        obtain ⟨⟨_, phase⟩, rfl⟩ := stepped
        exact rooted.schedule phase
    | contextSwitch cpu =>
        obtain ⟨_, _, _, phase, bound, rfl⟩ := contextSwitch_step stepped
        exact rooted.contextSwitch bound phase
    | _ => exact absurd (fun _ => by simp) other

theorem Rooted.freed (rooted : Rooted tables base cpus system)
    (stepped : system.rootStep cpus tables.pgdTable taskTrampoline action = some after)
    (freed : ¬FreesNoRoot cpus system action after) : ¬RootsLive tables cpus after := by
  rw [TaskSystem.rootStep, Option.ite_none_right_eq_some] at stepped
  obtain ⟨_, stepped⟩ := stepped
  obtain ⟨spaces, accounted⟩ := rooted.accounted
  intro live
  cases action with
  | destroy taskId =>
      simp only [FreesNoRoot, not_forall, not_not] at freed
      obtain ⟨task, found, cpu, bound, root⟩ := freed
      obtain ⟨rfl, _, alive⟩ := taskGet_some.mp found
      have holds := holdings_live alive
      have same := step_sameCpus stepped fun _ => by simp
      have gone := step_lifecycle accounted.inside stepped
      have survivor := (live cpu bound).1
      rw [same.ttbr0, root] at survivor
      rcases survivor with kernel | ⟨other, otherAlive, samePgd⟩
      · exact accounted.kernel_ne holds kernel.symm
      · have otherHolds := holdings_live otherAlive
        generalize reached : after.population = population at gone
        cases gone with
        | keeps still => exact still (by simp [TaskSystem.Changes, found])
        | exits exit => rcases exit with impossible | impossible <;> cases impossible
        | destroys =>
            have holdings : after.machine.smp.holdings =
                Function.update system.population.holdings task none :=
              congrArg Population.holdings reached
            rw [holdings] at otherHolds
            obtain ⟨apart, held⟩ := removed_some.mp otherHolds
            exact apart (accounted.pgd_inj held holds samePgd)
  | _ => exact freed trivial

theorem boot_rooted {mm : Mm}
    (reserved : ∀ index < kernelPages image.stackTop, mm.isUsed index = true) (cpus : Nat) :
    Rooted tables mm cpus (TaskSystem.boot tables mm) := by
  constructor
  · exact ⟨[], boot_accounted reserved⟩
  · intro cpu _
    left
    obtain ⟨index, bound, address⟩ := tables.placed tables.pgdTable (List.mem_cons_self ..)
    have place := Nat.lt_of_lt_of_le bound image.kernelPages_le
    obtain ⟨low, aligned⟩ := pageAddress_low place
    have page : TablePage mm tables.pgdTable := ⟨index, place, address, reserved index bound⟩
    have entry : ttbr0Root (taskTtbr0 ⟨tables.pgdTable, 0⟩) = tables.pgdTable :=
      ttbr0Root_task page
    have word : taskTtbr0 ⟨tables.pgdTable, 0⟩ = BitVec.ofNat 64 tables.pgdTable := by
      have present : tables.pgdTable ≠ 0 := by
        rw [address, pageAddress_eq]
        omega
      rw [taskTtbr0, if_neg present]
      simp
    rw [word] at entry
    exact entry
  · intro cpu _ old new ttbr0 switching
    cases switching

/-- No CPU translates through a freed table exactly in the runs in which no destroyed
task's table is still in the TTBR0 of some CPU. -/
theorem ttbr0Roots_live_iff (tables : KernelTables image) (mm : Mm)
    (reserved : ∀ index < kernelPages image.stackTop, mm.isUsed index = true)
    (cpus : Nat) (taskTrampoline : Word) (actions : List TaskAction) :
    Transition.EveryState (TaskSystem.rootStep cpus tables.pgdTable taskTrampoline)
        (RootsLive tables cpus) (TaskSystem.boot tables mm) actions ↔
      Transition.EveryStep (TaskSystem.rootStep cpus tables.pgdTable taskTrampoline)
        (FreesNoRoot cpus) (TaskSystem.boot tables mm) actions :=
  Transition.everyState_iff_everyStep (fun _ => Rooted.rootsLive)
    (fun _ _ _ => Rooted.step) (fun _ _ _ => Rooted.freed) (boot_rooted reserved cpus) actions

/-- Task 0 blocks and its CPU goes idle. -/
def idleAfterBlock : List TaskAction := [.create [] 0, .schedule 0, .contextSwitch 0, .block 0,
  .schedule 0, .contextSwitch 0]

theorem idleAfterBlock_frees :
    Transition.EveryStep (TaskSystem.rootStep 1 smallTables.pgdTable 0) (FreesNoRoot 1)
      (TaskSystem.boot smallTables smallMm) idleAfterBlock :=
  fun _ _ => ⟨trivial, fun _ _ => ⟨trivial, fun _ _ => ⟨trivial, fun _ _ =>
    ⟨trivial, fun _ _ => ⟨trivial, fun _ _ => ⟨trivial, trivial⟩⟩⟩⟩⟩⟩

theorem ttbr0Roots_live_idle :
    Transition.EveryState (TaskSystem.rootStep 1 smallTables.pgdTable 0)
      (RootsLive smallTables 1) (TaskSystem.boot smallTables smallMm) idleAfterBlock :=
  (ttbr0Roots_live_iff smallTables smallMm smallMm_reserved 1 0 idleAfterBlock).mpr
    idleAfterBlock_frees

/-- The idle CPU still translates through the table of the task once it is destroyed. -/
theorem idleCpu_keeps_freed_root :
    ¬∀ actions, Transition.EveryState (TaskSystem.rootStep 1 smallTables.pgdTable 0)
      (RootsLive smallTables 1) (TaskSystem.boot smallTables smallMm) actions := by
  intro all
  have idles : (Transition.exec (TaskSystem.rootStep 1 smallTables.pgdTable 0)
      (TaskSystem.boot smallTables smallMm) idleAfterBlock).any (fun system =>
        decide (system.MayStep 1 (.destroy 0)) &&
        decide (taskGet system.states 0 = some 0) &&
        decide (ttbr0Root (system.machine.ttbr0 0) =
          (system.machine.smp.tasks 0).addressSpace.pgd)) = true := by decide +kernel
  obtain ⟨system, run, facts⟩ := (Option.any_eq_true _ _).mp idles
  simp only [Bool.and_eq_true, decide_eq_true_eq] at facts
  obtain ⟨⟨may, live⟩, loaded⟩ := facts
  have rooted : Rooted smallTables smallMm 1 system := (Transition.everyState_of_guard
    (fun _ _ _ => Rooted.step) (boot_rooted smallMm_reserved 1) idleAfterBlock_frees).last run
  have stepped : system.rootStep 1 smallTables.pgdTable 0 (.destroy 0) =
      some (system.taskDestroy 0) := if_pos may
  have last : Transition.exec (TaskSystem.rootStep 1 smallTables.pgdTable 0) system [.destroy 0] =
      some (system.taskDestroy 0) := Transition.exec_cons_iff.mpr ⟨_, stepped, rfl⟩
  refine rooted.freed stepped (fun frees => ?_)
    ((all _).last (Transition.exec_append_iff.mpr ⟨system, run, last⟩))
  exact frees 0 live 0 (by decide) loaded

end DragoonKernel
