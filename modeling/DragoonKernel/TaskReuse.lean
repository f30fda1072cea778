import DragoonKernel.TaskHistory

/-!
Slots that `task_create` takes over from exited tasks. New tasks start at their entry,
and no code is saved into or continues as a later task of its slot, in runs in which
`task_create` only takes slots that every CPU has left.
-/

namespace DragoonKernel

variable {cpus cpu pgdTable : Nat} {taskTrampoline : Word} {history after : TaskHistory}

theorem create_cases {name : List UInt8} {entry : Word}
    (stepped : history.step cpus pgdTable taskTrampoline (.create name entry) = some after) :
    (∃ system, CreateOutcome pgdTable taskTrampoline history.system entry system (-1) ∧
      after = { history with system := system }) ∨
    ∃ system slot, CreateOutcome pgdTable taskTrampoline history.system entry system
        (slot : Nat) ∧
      after = TaskHistory.created { history with system := system } slot
        ⟨entry, (system.machine.smp.tasks slot).stackBase⟩ := by
  have outcome := taskCreate_outcome pgdTable taskTrampoline history.system name entry
  simp only [TaskHistory.step] at stepped
  cases made : history.system.taskCreate pgdTable taskTrampoline name entry with
  | mk system id =>
      rw [made] at outcome stepped
      simp only at outcome stepped
      have valid : id = -1 ∨ 0 ≤ id := by
        cases outcome with
        | failed => exact Or.inl rfl
        | created => exact Or.inr (by omega)
      rcases valid with rfl | valid
      · left
        exact ⟨system, outcome, (Option.some.inj stepped).symm⟩
      · right
        obtain ⟨slot, rfl⟩ := Int.eq_ofNat_of_zero_le valid
        rw [if_pos valid] at stepped
        exact ⟨system, slot, outcome, (Option.some.inj stepped).symm⟩

theorem Lived.fails (lived : Lived cpus taskTrampoline history) {system : TaskSystem} {smp : Smp}
    (machine : system.machine = { history.system.machine with smp := smp })
    (percpu : smp.percpu = history.system.machine.smp.percpu)
    (states : smp.states = history.system.machine.smp.states)
    (contexts : ∀ task, (smp.tasks task).ctx = (history.system.machine.smp.tasks task).ctx) :
    Lived cpus taskTrampoline { history with system := system } := by
  have current : ∀ other, smp.current other = history.system.machine.smp.current other := by
    intro other
    rw [Smp.current, Smp.current, percpu]
  have owner : ∀ other, system.machine.owner other = history.system.machine.owner other := by
    intro other
    rw [machine]
    exact owner_congr rfl (current other)
  refine ⟨?_, ?_, ?_, ?_⟩
  · simp only [machine]
    exact lived.current.congr states current
  · intro other otherBound old new ttbr0 switching
    simp only [machine] at switching
    obtain ⟨target, running⟩ := lived.entering other otherBound old new ttbr0 switching
    refine ⟨?_, fun task named => ?_⟩
    · simp only [machine]
      rw [target, Smp.currentContext, Smp.currentContext, current]
    · simp only [TaskSystem.states, machine]
      exact (congrFun states task).trans (running task named)
  · intro other otherBound task owns
    exact lived.code other otherBound task ((owner other).symm.trans owns)
  · intro task start unstarted
    obtain ⟨context, stack, unowned⟩ := lived.fresh task start unstarted
    refine ⟨?_, stack, fun other otherBound owns => ?_⟩
    · simp only [machine]
      exact (contexts task).trans context
    · exact unowned other otherBound ((owner other).symm.trans owns)

theorem not_stillUsed {machine : Machine} {slot : Nat} (left : ¬StillUsed machine cpu slot) :
    machine.smp.current cpu ≠ slot ∧ machine.owner cpu ≠ .task slot := by
  refine ⟨fun current => left (Or.inl current), fun owns => left ?_⟩
  cases phase : machine.phases cpu with
  | running =>
      rw [owner_running phase, currentContext_task] at owns
      exact Or.inl owns
  | switching old new ttbr0 =>
      rw [owner_switching phase] at owns
      subst owns
      exact Or.inr ⟨new, ttbr0, phase⟩

theorem Lived.creates (lived : Lived cpus taskTrampoline history) {system : TaskSystem} {smp : Smp}
    {slot index : Nat} {entry : Word}
    (left : ∀ cpu < cpus, ¬StillUsed history.system.machine cpu slot)
    (machine : system.machine = { history.system.machine with smp := smp })
    (fills : Fills history.system.machine.smp smp slot .ready
      (initialContext taskTrampoline entry (pageAddress index))) :
    Lived cpus taskTrampoline (TaskHistory.created { history with system := system } slot
      ⟨entry, pageAddress index⟩) := by
  have current : ∀ other, smp.current other = history.system.machine.smp.current other := by
    intro other
    rw [Smp.current, Smp.current, fills.percpu]
  have owner : ∀ other, system.machine.owner other = history.system.machine.owner other := by
    intro other
    rw [machine]
    exact owner_congr rfl (current other)
  have apart : ∀ other < cpus, ∀ task : Nat,
      history.system.machine.smp.current other = task → task ≠ slot := by
    rintro other otherBound task runs rfl
    exact (not_stillUsed (left other otherBound)).1 runs
  have unowned : ∀ other < cpus, history.system.machine.owner other ≠ .task slot :=
    fun other otherBound => (not_stillUsed (left other otherBound)).2
  refine ⟨?_, ?_, ?_, ?_⟩
  · simp only [TaskHistory.created, machine]
    constructor
    · intro other otherBound task runs
      rw [current] at runs
      rw [fills.states, if_neg (apart other otherBound task runs)]
      exact lived.current.states other otherBound task runs
    · simp only [current]
      exact lived.current.distinct
  · intro other otherBound old new ttbr0 switching
    simp only [TaskHistory.created, machine] at switching
    obtain ⟨target, running⟩ := lived.entering other otherBound old new ttbr0 switching
    refine ⟨?_, fun task named => ?_⟩
    · simp only [TaskHistory.created, machine]
      rw [target, Smp.currentContext, Smp.currentContext, current]
    · have runs := currentContext_task.mp (target.symm.trans named)
      simp only [TaskHistory.created, TaskSystem.states, machine]
      rw [fills.states, if_neg (apart other otherBound task runs)]
      exact running task named
  · intro other otherBound task owns
    have before := (owner other).symm.trans owns
    have different : task ≠ slot := by
      rintro rfl
      exact unowned other otherBound before
    simp only [TaskHistory.created, Function.update_of_ne different]
    exact lived.code other otherBound task before
  · intro task start unstarted
    have ctx : (system.machine.smp.tasks task).ctx = (smp.tasks task).ctx := by rw [machine]
    by_cases here : task = slot
    · subst here
      simp only [TaskHistory.created, Function.update_self, Option.some.injEq] at unstarted
      subst unstarted
      refine ⟨?_, ⟨index, rfl⟩, fun other otherBound owns => ?_⟩
      · exact ctx.trans ((fills.contexts task).trans (if_pos rfl))
      · exact unowned other otherBound ((owner other).symm.trans owns)
    · simp only [TaskHistory.created, Function.update_of_ne here] at unstarted
      obtain ⟨context, stack, free⟩ := lived.fresh task start unstarted
      refine ⟨?_, stack, fun other otherBound owns => ?_⟩
      · exact ctx.trans ((fills.contexts task).trans ((if_neg here).trans context))
      · exact free other otherBound ((owner other).symm.trans owns)

theorem Lived.create (lived : Lived cpus taskTrampoline history) {name : List UInt8} {entry : Word}
    (stepped : history.step cpus pgdTable taskTrampoline (.create name entry) = some after)
    (guarded : TakesLeftSlot cpus pgdTable history (.create name entry) after) :
    Lived cpus taskTrampoline after := by
  rcases create_cases stepped with ⟨system, outcome, rfl⟩ | ⟨system, slot, outcome, rfl⟩
  · cases outcome with
    | failed _ machine percpu states contexts =>
        exact lived.fails machine percpu states contexts
  · generalize result : (slot : Int) = id at outcome
    cases outcome with
    | failed => omega
    | created found fits machine fills stack =>
        obtain rfl := Int.ofNat.inj result
        rw [machine]
        rw [stack]
        exact lived.creates (guarded slot found fits) machine fills

theorem Lived.step {action : LifeAction} (lived : Lived cpus taskTrampoline history)
    (stepped : history.step cpus pgdTable taskTrampoline action = some after)
    (guarded : TakesLeftSlot cpus pgdTable history action after) :
    Lived cpus taskTrampoline after ∧ KeepsTasks taskTrampoline history action after := by
  have vacuous (noSwitch : ∀ cpu, action ≠ .contextSwitch cpu)
      (noSchedule : ∀ cpu, action ≠ .schedule cpu) :
      KeepsTasks taskTrampoline history action after :=
    ⟨fun cpu _ _ _ _ same => absurd same (noSwitch cpu),
      fun cpu _ _ _ same => absurd same (noSwitch cpu),
      fun cpu _ same => absurd same (noSchedule cpu)⟩
  cases action with
  | run cpu regs =>
      refine ⟨?_, vacuous (by simp) (by simp)⟩
      simp only [TaskHistory.step, Option.ite_none_right_eq_some, Option.some.injEq] at stepped
      obtain ⟨_, rfl⟩ := stepped
      exact ⟨lived.current, lived.entering, lived.code, lived.fresh⟩
  | taskExitHandler cpu =>
      refine ⟨?_, vacuous (by simp) (by simp)⟩
      simp only [TaskHistory.step, Option.ite_none_right_eq_some, Option.some.injEq] at stepped
      obtain ⟨runs, rfl⟩ := stepped
      obtain ⟨task, current⟩ := runsTask_current runs
      refine lived.dies runs.1 runs.2.1 current ?_
      simp only [TaskSystem.taskExitHandler, TaskSystem.withSmp, current, Int.toNat_natCast]
  | sysExit cpu =>
      refine ⟨?_, vacuous (by simp) (by simp)⟩
      simp only [TaskHistory.step, Option.ite_none_right_eq_some, Option.some.injEq] at stepped
      obtain ⟨runs, rfl⟩ := stepped
      obtain ⟨task, current⟩ := runsTask_current runs
      have inside := (lived.current.states cpu runs.1 task current).1
      unfold TaskSystem.sysExit
      rw [current, taskGet_natCast inside]
      split
      next dies found =>
        split at found
        · cases found
        · obtain rfl := Option.some.inj found
          exact lived.dies runs.1 runs.2.1 current rfl
      next => exact lived
  | schedule cpu => exact lived.schedule stepped
  | contextSwitch cpu => exact lived.contextSwitch stepped
  | create name entry => exact ⟨lived.create stepped guarded, vacuous (by simp) (by simp)⟩

theorem Lived.stillUsed (lived : Lived cpus taskTrampoline history) (bound : cpu < cpus) {slot : Nat}
    (dead : history.system.states slot = .dead) (used : StillUsed history.system.machine cpu slot) :
    history.code cpu = some (slot, history.incarnation slot) ∧
      (history.system.machine.smp.current cpu = slot ∧
          history.system.machine.phases cpu = .running ∨
        ∃ new ttbr0, history.system.machine.phases cpu = .switching (.task slot) new ttbr0) := by
  rcases used with runs | ⟨new, ttbr0, phase⟩
  · cases phase : history.system.machine.phases cpu with
    | running =>
        refine ⟨lived.code cpu bound slot ?_, Or.inl ⟨runs, rfl⟩⟩
        rw [owner_running phase, currentContext_task, runs]
    | switching old new ttbr0 =>
        obtain ⟨target, running⟩ := lived.entering cpu bound old new ttbr0 phase
        have alive := running slot (target.trans (currentContext_task.mpr runs))
        rw [dead] at alive
        cases alive
  · exact ⟨lived.code cpu bound slot (owner_switching phase), Or.inr ⟨new, ttbr0, phase⟩⟩

theorem saves_into_reused {slot : Nat} {new : ContextRef} {ttbr0 : Word} (bound : cpu < cpus)
    (phase : history.system.machine.phases cpu = .switching (.task slot) new ttbr0)
    (code : history.code cpu ≠ some (slot, history.incarnation slot)) :
    ¬Transition.EveryStep (TaskHistory.step cpus pgdTable taskTrampoline)
      (KeepsTasks taskTrampoline) history [.contextSwitch cpu] := by
  intro all
  have switched : ∃ after,
      history.step cpus pgdTable taskTrampoline (.contextSwitch cpu) = some after := by
    simp only [TaskHistory.step, phase, if_pos bound]
    exact ⟨_, rfl⟩
  obtain ⟨after, stepped⟩ := switched
  exact code ((all after stepped).1.saves cpu slot new ttbr0 rfl phase)

/-- Code whose slot has been reused while it is current goes on as the new task or is saved
into it. -/
theorem continues_reused {slot : Nat} (bound : cpu < cpus)
    (phase : history.system.machine.phases cpu = .running)
    (runs : history.system.machine.smp.current cpu = slot) (inside : slot < maxTasks)
    (ready : history.system.states slot = .ready)
    (code : history.code cpu ≠ some (slot, history.incarnation slot)) :
    ¬Transition.EveryStep (TaskHistory.step cpus pgdTable taskTrampoline)
      (KeepsTasks taskTrampoline) history [.schedule cpu, .contextSwitch cpu] := by
  intro all
  have stepped : history.step cpus pgdTable taskTrampoline (.schedule cpu) = some { history with
      system := history.system.withMachine (history.system.machine.schedule cpu) } := by
    simp only [TaskHistory.step, phase, bound, and_self, if_true]
  obtain ⟨keeps, later⟩ := all _ stepped
  have mayLeave : MayLeave history.system.machine.smp cpu := by
    intro task current
    obtain rfl : slot = task := by omega
    exact ⟨inside, fun blocked => by cases ready.symm.trans blocked⟩
  rcases schedule_decided mayLeave with
    ⟨_, idle, _⟩ | ⟨task, _, current, same⟩ | ⟨smp, old, new, ttbr0, decided, same⟩
  · omega
  · obtain rfl : slot = task := by omega
    rw [same] at keeps
    refine code (keeps.continues cpu slot rfl phase ?_)
    simp only [TaskSystem.withMachine, setState_current, oldContext_current, runs]
  · obtain rfl : old = .task slot := by
      rcases decided.leaves with left | ⟨_, task, current, dead⟩
      · exact left.trans (currentContext_task.mpr runs)
      · obtain rfl : slot = task := by omega
        cases ready.symm.trans dead
    rw [same] at later
    exact absurd later (saves_into_reused bound (leave_phase _ _ _ _ _ _) code)

theorem Lived.reuse_breaks (lived : Lived cpus taskTrampoline history) {name : List UInt8}
    {entry : Word}
    (stepped : history.step cpus pgdTable taskTrampoline (.create name entry) = some after)
    (unguarded : ¬TakesLeftSlot cpus pgdTable history (.create name entry) after) :
    ∃ rest, ¬Transition.EveryStep (TaskHistory.step cpus pgdTable taskTrampoline)
      (KeepsTasks taskTrampoline) after rest := by
  simp only [TakesLeftSlot, Classical.not_forall, not_not] at unguarded
  obtain ⟨slot, found, fits, cpu, bound, used⟩ := unguarded
  obtain ⟨dead, inside⟩ := freeSlot_some found
  obtain ⟨code, place⟩ := lived.stillUsed bound dead used
  rcases create_cases stepped with ⟨system, outcome, _⟩ | ⟨system, created, outcome, rfl⟩
  · cases outcome with
    | failed unfit => exact absurd fits (unfit slot found)
  · generalize result : (created : Int) = id at outcome
    cases outcome with
    | failed => omega
    | created again _ machine fills _ =>
        rw [found] at again
        obtain rfl := Option.some.inj again
        obtain rfl := Int.ofNat.inj result
        -- the CPU's code is of the task before the new one
        have stale : history.code cpu ≠
            some (created, Function.update history.incarnation created
              (history.incarnation created + 1) created) := by
          rw [code, Function.update_self]
          simp
        rcases place with ⟨runs, phase⟩ | ⟨new, ttbr0, phase⟩
        · refine ⟨_, continues_reused bound ?_ ?_ inside ?_ stale⟩
          · simp only [TaskHistory.created, machine, phase]
          · simp only [TaskHistory.created, machine]
            rw [Smp.current, fills.percpu]
            exact runs
          · simp only [TaskHistory.created, TaskSystem.states, machine]
            rw [fills.states, if_pos rfl]
        · have still : system.machine.phases cpu = .switching (.task created) new ttbr0 := by
            simp only [machine, phase]
          exact ⟨_, saves_into_reused bound still stale⟩

def TaskSystem.recorded (system : TaskSystem) : TaskHistory where
  system := system
  incarnation := fun _ => 0
  code := fun cpu =>
    let current := system.machine.smp.current cpu
    if 0 ≤ current then some (current.toNat, 0) else none
  unstarted := fun _ => none

theorem recorded_lived {system : TaskSystem}
    (running : ∀ cpu < cpus, system.machine.phases cpu = .running)
    (current : CurrentTasks RunningOrDead cpus system.machine.smp) :
    Lived cpus taskTrampoline system.recorded := by
  refine ⟨current, ?_, ?_, ?_⟩
  · intro cpu bound old new ttbr0 switching
    cases (running cpu bound).symm.trans switching
  · intro cpu bound task owns
    have runs := currentContext_task.mp ((owner_running (running cpu bound)).symm.trans owns)
    simp only [TaskSystem.recorded] at runs ⊢
    rw [runs, if_pos (by omega), Int.toNat_natCast]
  · intro task start unstarted
    cases unstarted

/-- For any number of CPUs and every interleaving of exits, decisions, switches and
creations: tasks keep to their slots while every `task_create` meets the condition, and the
first one that does not lets the run go on to a step that confuses two tasks of a slot. -/
theorem taskCreate_keepsTasks (cpus pgdTable : Nat) (taskTrampoline : Word) (system : TaskSystem)
    (running : ∀ cpu < cpus, system.machine.phases cpu = .running)
    (current : CurrentTasks RunningOrDead cpus system.machine.smp) :
    (∀ actions, Transition.EveryStep (TaskHistory.step cpus pgdTable taskTrampoline)
        (TakesLeftSlot cpus pgdTable) system.recorded actions →
      Transition.EveryStep (TaskHistory.step cpus pgdTable taskTrampoline)
        (KeepsTasks taskTrampoline) system.recorded actions) ∧
    ∀ actions name entry,
      Transition.EveryStep (TaskHistory.step cpus pgdTable taskTrampoline)
        (TakesLeftSlot cpus pgdTable) system.recorded actions →
      ¬Transition.EveryStep (TaskHistory.step cpus pgdTable taskTrampoline)
        (TakesLeftSlot cpus pgdTable) system.recorded (actions ++ [.create name entry]) →
      ∃ rest, ¬Transition.EveryStep (TaskHistory.step cpus pgdTable taskTrampoline)
        (KeepsTasks taskTrampoline) system.recorded (actions ++ .create name entry :: rest) := by
  have start : Lived cpus taskTrampoline system.recorded := recorded_lived running current
  constructor
  · intro actions guarded
    exact Transition.everyStep_of_guard (fun _ _ _ lived stepped guard => lived.step stepped guard)
      start guarded
  · intro actions name entry guarded unguarded
    by_contra all
    rw [not_exists] at all
    rw [Transition.everyStep_append_iff] at unguarded
    refine unguarded ⟨guarded, fun middle run after stepped => ⟨?_, trivial⟩⟩
    have lived := (Transition.everyState_of_guard
      (fun _ _ _ lived stepped guard => (lived.step stepped guard).1) start guarded).last run
    by_contra unmet
    obtain ⟨rest, broken⟩ := lived.reuse_breaks stepped unmet
    refine all rest fun keeps => broken ?_
    exact (((Transition.everyStep_append_iff.mp keeps).2 middle run) after stepped).2

def oneTask : TaskSystem where
  machine := {
    smp := {
      tasks := fun task => { Task.zero with state := if task = 0 then .running else .dead }
      percpu := fun cpu => Percpu.running (if cpu = 0 then 0 else -1) }
    regs := fun _ => .zero
    ttbr0 := fun _ => 0
    phases := fun _ => .running }
  vm := {
    mm := {
      pageBitmap := fun _ => 0
      totalPages := BitVec.ofNat 64 maxPages
      usedPages := 0
      memory := fun _ _ => 0 }
    asidBitmap := fun _ => 0 }
  numTasks := 1

theorem oneTask_current : CurrentTasks RunningOrDead 2 oneTask.machine.smp := by
  refine CurrentTasks.single ?_ (Or.inl rfl)
  intro cpu task runs
  simp only [oneTask, Smp.current, Percpu.running] at runs
  split at runs <;> omega

theorem taskCreate_keepsTasks_oneTask :
    (∀ actions, Transition.EveryStep (TaskHistory.step 2 0x40100000 0x40080000)
        (TakesLeftSlot 2 0x40100000) oneTask.recorded actions →
      Transition.EveryStep (TaskHistory.step 2 0x40100000 0x40080000)
        (KeepsTasks 0x40080000) oneTask.recorded actions) ∧
    ∀ actions name entry,
      Transition.EveryStep (TaskHistory.step 2 0x40100000 0x40080000)
        (TakesLeftSlot 2 0x40100000) oneTask.recorded actions →
      ¬Transition.EveryStep (TaskHistory.step 2 0x40100000 0x40080000)
        (TakesLeftSlot 2 0x40100000) oneTask.recorded (actions ++ [.create name entry]) →
      ∃ rest, ¬Transition.EveryStep (TaskHistory.step 2 0x40100000 0x40080000)
        (KeepsTasks 0x40080000) oneTask.recorded (actions ++ .create name entry :: rest) :=
  taskCreate_keepsTasks 2 0x40100000 0x40080000 oneTask (fun _ _ => rfl) oneTask_current

/-- Task 0 exits on CPU 0, and its slot is taken for a new task before CPU 0 schedules. -/
def takenWhileCurrent : List LifeAction := [.taskExitHandler 0, .create [0x61] 0x40090000]

theorem exitedCode_continues :
    ¬∀ actions, Transition.EveryStep (TaskHistory.step 2 0x40100000 0x40080000)
      (KeepsTasks 0x40080000) oneTask.recorded actions := by
  intro all
  have reached : ((Transition.exec (TaskHistory.step 2 0x40100000 0x40080000) oneTask.recorded
      takenWhileCurrent).bind fun history =>
        (history.step 2 0x40100000 0x40080000 (.schedule 0)).map fun after => (history, after)).any
      (fun states =>
        decide (states.1.code 0 ≠ some (0, states.1.incarnation 0)) &&
        decide (states.2.system.machine.phases 0 = .running) &&
        decide (states.2.system.machine.smp.current 0 = ((0 : Nat) : Int))) = true := by
    decide +kernel
  obtain ⟨⟨history, after⟩, found, facts⟩ := (Option.any_eq_true _ _).mp reached
  obtain ⟨middle, run, stepped⟩ := Option.bind_eq_some_iff.mp found
  obtain ⟨final, stepped, same⟩ := Option.map_eq_some_iff.mp stepped
  cases same
  simp only [Bool.and_eq_true, decide_eq_true_eq] at facts
  have keeps := (all (takenWhileCurrent ++ [.schedule 0])).snoc run stepped
  exact facts.1.1 (keeps.continues 0 0 rfl facts.1.2 facts.2)

end DragoonKernel
