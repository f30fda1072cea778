import DragoonKernel.ContextSwitchSpec
import DragoonKernel.Library.Transition
import DragoonKernel.TaskLifeSpec

/-!
Task systems with a record of which task of a slot each CPU's code and each saved
context belong to, and what exits, decisions and switches keep of it.
-/

namespace DragoonKernel

structure TaskStart where
  entry : Word
  stack : Nat

/-- A task system with the number of tasks that each slot has had, the task of each CPU's
code, and the new tasks that have not been loaded yet. -/
structure TaskHistory where
  system : TaskSystem
  incarnation : Nat → Nat
  code : Nat → Option (Nat × Nat)
  unstarted : Nat → Option TaskStart

inductive LifeAction where
  | run (cpu : Nat) (regs : TaskContext)
  | taskExitHandler (cpu : Nat)
  | sysExit (cpu : Nat)
  | schedule (cpu : Nat)
  | contextSwitch (cpu : Nat)
  | create (name : List UInt8) (entry : Word)

def TaskHistory.enter (history : TaskHistory) (cpu : Nat) : ContextRef → TaskHistory
  | .task task =>
      { history with
        code := Function.update history.code cpu (some (task, history.incarnation task))
        unstarted := Function.update history.unstarted task none }
  | _ => { history with code := Function.update history.code cpu none }

def TaskHistory.created (history : TaskHistory) (task : Nat) (start : TaskStart) : TaskHistory :=
  { history with
    incarnation := Function.update history.incarnation task (history.incarnation task + 1)
    unstarted := Function.update history.unstarted task (some start) }

def TaskHistory.step (cpus pgdTable : Nat) (taskTrampoline : Word) (history : TaskHistory) :
    LifeAction → Option TaskHistory
  | .run cpu regs =>
      if cpu < cpus then
        let machine := history.system.machine
        let machine := { machine with regs := Function.update machine.regs cpu regs }
        some { history with system := history.system.withMachine machine }
      else none
  | .taskExitHandler cpu =>
      if history.system.runsTask cpus cpu then
        some { history with system := history.system.taskExitHandler cpu }
      else none
  | .sysExit cpu =>
      if history.system.runsTask cpus cpu then
        some { history with system := history.system.sysExit cpu }
      else none
  | .schedule cpu =>
      if cpu < cpus ∧ history.system.machine.phases cpu = .running then
        let machine := history.system.machine.schedule cpu
        some { history with system := history.system.withMachine machine }
      else none
  | .contextSwitch cpu =>
      match history.system.machine.phases cpu with
      | .running => none
      | .switching old new ttbr0 =>
          if cpu < cpus then
            let machine := history.system.machine.contextSwitch cpu old new ttbr0
            let after := { history with system := history.system.withMachine machine }
            some (after.enter cpu new)
          else none
  | .create name entry =>
      match history.system.taskCreate pgdTable taskTrampoline name entry with
      | (system, id) =>
          let after := { history with system := system }
          if 0 ≤ id then
            let stack := (system.machine.smp.tasks id.toNat).stackBase
            some (after.created id.toNat ⟨entry, stack⟩)
          else some after

/-- In one step, a new task is loaded as it was created, and code is only saved into, and
only goes on as, the task it belongs to. -/
structure KeepsTasks (taskTrampoline : Word) (history : TaskHistory) (action : LifeAction)
    (after : TaskHistory) : Prop where
  starts : ∀ cpu old task ttbr0 start, action = .contextSwitch cpu →
    history.system.machine.phases cpu = .switching old (.task task) ttbr0 →
    history.unstarted task = some start →
    after.system.machine.regs cpu = { TaskContext.zero with
      x19 := start.entry
      x30 := taskTrampoline
      sp := BitVec.ofNat 64 (start.stack + taskStackSize) }
  saves : ∀ cpu task new ttbr0, action = .contextSwitch cpu →
    history.system.machine.phases cpu = .switching (.task task) new ttbr0 →
    history.code cpu = some (task, history.incarnation task)
  continues : ∀ cpu task, action = .schedule cpu →
    after.system.machine.phases cpu = .running →
    after.system.machine.smp.current cpu = ((task : Nat) : Int) →
    history.code cpu = some (task, history.incarnation task)

def StillUsed (machine : Machine) (cpu slot : Nat) : Prop :=
  machine.smp.current cpu = slot ∨ ∃ new ttbr0, machine.phases cpu = .switching (.task slot) new ttbr0

/-- The condition at each `task_create` that does not fail: no CPU still uses the slot. -/
def TakesLeftSlot (cpus pgdTable : Nat) (history : TaskHistory) (action : LifeAction)
    (_ : TaskHistory) : Prop :=
  match action with
  | .create _ _ => ∀ slot, freeSlot history.system.states = some slot →
      CreateFits pgdTable history.system.vm →
      ∀ cpu < cpus, ¬StillUsed history.system.machine cpu slot
  | _ => True

def RunningOrDead (state : TaskState) : Prop := state = .running ∨ state = .dead

structure Lived (cpus : Nat) (taskTrampoline : Word) (history : TaskHistory) : Prop where
  current : CurrentTasks RunningOrDead cpus history.system.machine.smp
  entering : ∀ cpu < cpus, ∀ old new ttbr0,
    history.system.machine.phases cpu = .switching old new ttbr0 →
      new = history.system.machine.smp.currentContext cpu ∧
        ∀ task, new = .task task → history.system.states task = .running
  code : ∀ cpu < cpus, ∀ task, history.system.machine.owner cpu = .task task →
    history.code cpu = some (task, history.incarnation task)
  fresh : ∀ task start, history.unstarted task = some start →
    (history.system.machine.smp.tasks task).ctx =
        initialContext taskTrampoline start.entry start.stack ∧
      (∃ index, start.stack = pageAddress index) ∧
      ∀ cpu < cpus, history.system.machine.owner cpu ≠ .task task

theorem RunningOrDead.not_ready : ¬RunningOrDead .ready := by
  simp [RunningOrDead]

theorem RunningOrDead.not_blocked {state : TaskState} (allowed : RunningOrDead state) :
    state ≠ .blocked := by
  rcases allowed with rfl | rfl <;> decide

variable {cpus cpu pgdTable : Nat} {taskTrampoline : Word} {history after : TaskHistory}

theorem runsTask_current {system : TaskSystem} (runs : system.runsTask cpus cpu) :
    ∃ task : Nat, system.machine.smp.current cpu = task :=
  Int.eq_ofNat_of_zero_le runs.2.2

theorem Lived.dies (lived : Lived cpus taskTrampoline history) {task : Nat} (bound : cpu < cpus)
    (phase : history.system.machine.phases cpu = .running)
    (runs : history.system.machine.smp.current cpu = task) {system : TaskSystem}
    (same : system.machine = { history.system.machine with
      smp := history.system.machine.smp.setState task .dead }) :
    Lived cpus taskTrampoline { history with system := system } := by
  have owner : ∀ other, system.machine.owner other = history.system.machine.owner other := by
    intro other
    rw [same]
    exact owner_congr rfl rfl
  refine ⟨?_, ?_, ?_, ?_⟩
  · constructor
    · intro other otherBound runner current
      simp only [same, setState_current, setState_states] at current ⊢
      obtain ⟨inside, allowed⟩ := lived.current.states other otherBound runner current
      refine ⟨inside, ?_⟩
      by_cases dies : runner = task
      · subst dies
        simp [RunningOrDead]
      · rwa [Function.update_of_ne dies]
    · simp only [same, setState_current]
      exact lived.current.distinct
  · intro other otherBound old new ttbr0 switching
    simp only [same] at switching
    obtain ⟨target, running⟩ := lived.entering other otherBound old new ttbr0 switching
    refine ⟨?_, ?_⟩
    · simp only [same]
      exact target
    · intro entered named
      have different : other ≠ cpu := by
        rintro rfl
        rw [phase] at switching
        cases switching
      have current := currentContext_task.mp (target.symm.trans named)
      have survives : entered ≠ task := by
        rintro rfl
        exact lived.current.distinct other otherBound cpu bound different entered current runs
      simp only [TaskSystem.states, same, setState_states, Function.update_of_ne survives]
      exact running entered named
  · intro other otherBound owned
    simp only [owner]
    exact lived.code other otherBound owned
  · intro new start unstarted
    simp only [same, setState_ctx]
    exact lived.fresh new start unstarted

theorem Lived.mayLeave (lived : Lived cpus taskTrampoline history) (bound : cpu < cpus) :
    MayLeave history.system.machine.smp cpu := by
  intro task runs
  obtain ⟨inside, allowed⟩ := lived.current.states cpu bound task runs
  exact ⟨inside, allowed.not_blocked⟩

theorem Leaves.owner {machine : Machine} {old : ContextRef} {task : Nat}
    (leaves : Leaves machine.smp cpu old) (phase : machine.phases cpu = .running)
    (left : old = .task task) : machine.owner cpu = .task task := by
  rw [owner_running phase, currentContext_task]
  exact leaves.currentContext left

theorem Lived.decided (lived : Lived cpus taskTrampoline history) (bound : cpu < cpus)
    (phase : history.system.machine.phases cpu = .running) {smp : Smp} {old new : ContextRef}
    (decided : Decided history.system.machine cpu smp old new) (ttbr0 : Word) :
    Lived cpus taskTrampoline { history with
      system := history.system.withMachine
        (history.system.machine.leave cpu smp old new ttbr0) } := by
  have owner := leave_owner decided ttbr0
  have owned : ∀ other task,
      (history.system.machine.leave cpu smp old new ttbr0).owner other = .task task →
        history.system.machine.owner other = .task task := by
    intro other task owns
    rw [owner] at owns
    by_cases here : other = cpu
    · subst here
      rw [if_pos rfl] at owns
      exact decided.leaves.owner phase owns
    · rwa [if_neg here] at owns
  refine ⟨lived.current.decided RunningOrDead.not_ready (Or.inl rfl) bound decided, ?_, ?_, ?_⟩
  · intro other otherBound left entered root switching
    by_cases here : other = cpu
    · subst here
      cases (leave_phase _ _ smp old new ttbr0).symm.trans switching
      refine ⟨decided.target, fun task named => ?_⟩
      exact (decided.states task).trans (if_pos named)
    · obtain ⟨target, running⟩ := lived.entering other otherBound left entered root
        ((leave_phase_of_ne _ smp old new ttbr0 here).symm.trans switching)
      refine ⟨target.trans ?_, fun task named => ?_⟩
      · change _ = smp.currentContext other
        rw [Smp.currentContext, Smp.currentContext, decided.others other here]
      · have current := currentContext_task.mp (target.symm.trans named)
        have kept := lived.current.kept RunningOrDead.not_ready bound decided otherBound here current
        exact kept.2.trans (running task named)
  · intro other otherBound task owns
    exact lived.code other otherBound task (owned other task owns)
  · intro task start unstarted
    obtain ⟨context, stack, unowned⟩ := lived.fresh task start unstarted
    refine ⟨(decided.contexts task).trans context, stack, ?_⟩
    intro other otherBound owns
    exact unowned other otherBound (owned other task owns)

theorem Lived.schedule (lived : Lived cpus taskTrampoline history)
    (stepped : history.step cpus pgdTable taskTrampoline (.schedule cpu) = some after) :
    Lived cpus taskTrampoline after ∧ KeepsTasks taskTrampoline history (.schedule cpu) after := by
  simp only [TaskHistory.step, Option.ite_none_right_eq_some, Option.some.injEq] at stepped
  obtain ⟨⟨bound, phase⟩, rfl⟩ := stepped
  have vacuous : ∀ other, LifeAction.schedule cpu ≠ .contextSwitch other := by
    intro other impossible
    cases impossible
  rcases schedule_decided (lived.mayLeave bound) with
    ⟨_, idle, same⟩ | ⟨task, found, runs, _⟩ | ⟨smp, old, new, ttbr0, decided, same⟩
  · rw [same]
    refine ⟨lived, fun other _ _ _ _ here => absurd here (vacuous other),
      fun other _ _ _ here => absurd here (vacuous other), ?_⟩
    intro other task here _ current
    cases here
    simp only [TaskSystem.withMachine] at current
    omega
  · exact absurd rfl (lived.current.found_ne RunningOrDead.not_ready bound runs found)
  · rw [same]
    refine ⟨lived.decided bound phase decided ttbr0, fun other _ _ _ _ here =>
      absurd here (vacuous other), fun other _ _ _ here => absurd here (vacuous other), ?_⟩
    intro other task here running
    cases here
    cases (leave_phase _ _ smp old new ttbr0).symm.trans running

@[simp] theorem enter_system (history : TaskHistory) (cpu : Nat) (new : ContextRef) :
    (history.enter cpu new).system = history.system := by
  cases new <;> rfl

@[simp] theorem enter_incarnation (history : TaskHistory) (cpu : Nat) (new : ContextRef) :
    (history.enter cpu new).incarnation = history.incarnation := by
  cases new <;> rfl

theorem enter_unstarted (history : TaskHistory) (cpu : Nat) (new : ContextRef) (task : Nat) :
    (history.enter cpu new).unstarted task =
      if new = .task task then none else history.unstarted task := by
  cases new with
  | task entered => simp [TaskHistory.enter, Function.update_apply, eq_comm]
  | idle other => simp [TaskHistory.enter]
  | dead other => simp [TaskHistory.enter]

theorem enter_code_of_ne (history : TaskHistory) (new : ContextRef) {cpu other : Nat}
    (different : other ≠ cpu) : (history.enter cpu new).code other = history.code other := by
  cases new <;> exact Function.update_of_ne different _ _

theorem enter_code_task (history : TaskHistory) (cpu task : Nat) :
    (history.enter cpu (.task task)).code cpu = some (task, history.incarnation task) :=
  Function.update_self _ _ _

theorem Lived.switched (lived : Lived cpus taskTrampoline history) {old new : ContextRef}
    {ttbr0 : Word} (bound : cpu < cpus)
    (phase : history.system.machine.phases cpu = .switching old new ttbr0) :
    Lived cpus taskTrampoline (TaskHistory.enter { history with
      system := history.system.withMachine
        (history.system.machine.contextSwitch cpu old new ttbr0) } cpu new) := by
  obtain ⟨target, running⟩ := lived.entering cpu bound old new ttbr0 phase
  have owner : ∀ other, (history.system.machine.contextSwitch cpu old new ttbr0).owner other =
      if other = cpu then new else history.system.machine.owner other := contextSwitch_owner target
  refine ⟨?_, ?_, ?_, ?_⟩
  · rw [enter_system]
    exact lived.current.congr (contextSwitch_states _ _ _ _ _) (contextSwitch_current _ _ _ _ _)
  · simp only [enter_system]
    intro other otherBound left entered root switching
    obtain ⟨_, before⟩ := switching_of_contextSwitch switching
    simp only [TaskSystem.withMachine, TaskSystem.states, contextSwitch_currentContext,
      contextSwitch_states]
    exact lived.entering other otherBound left entered root before
  · simp only [enter_system, enter_incarnation]
    intro other otherBound task owns
    by_cases here : other = cpu
    · subst here
      obtain rfl : new = .task task := by simpa [TaskSystem.withMachine, owner] using owns
      exact enter_code_task _ _ _
    · rw [enter_code_of_ne _ _ here]
      refine lived.code other otherBound task ?_
      simpa [TaskSystem.withMachine, owner, here] using owns
  · intro task start unstarted
    rw [enter_unstarted] at unstarted
    split at unstarted
    next => cases unstarted
    next apart =>
      obtain ⟨context, stack, unowned⟩ := lived.fresh task start unstarted
      have notLeft : old ≠ .task task := by
        rw [← owner_switching phase]
        exact unowned cpu bound
      rw [enter_system]
      refine ⟨?_, stack, ?_⟩
      · simp only [TaskSystem.withMachine]
        rw [contextSwitch_ctx, if_neg notLeft]
        exact context
      · intro other otherBound
        simp only [TaskSystem.withMachine, owner]
        split
        next => exact apart
        next => exact unowned other otherBound

theorem Lived.contextSwitch (lived : Lived cpus taskTrampoline history)
    (stepped : history.step cpus pgdTable taskTrampoline (.contextSwitch cpu) = some after) :
    Lived cpus taskTrampoline after ∧
      KeepsTasks taskTrampoline history (.contextSwitch cpu) after := by
  simp only [TaskHistory.step] at stepped
  split at stepped
  next => cases stepped
  next old new ttbr0 phase =>
    rw [Option.ite_none_right_eq_some, Option.some.injEq] at stepped
    obtain ⟨bound, rfl⟩ := stepped
    refine ⟨lived.switched bound phase, ?_, ?_, ?_⟩
    · intro other left task root start same switching unstarted
      cases same
      cases phase.symm.trans switching
      obtain ⟨context, ⟨index, stack⟩, unowned⟩ := lived.fresh task start unstarted
      have notLeft : old ≠ .task task := by
        rw [← owner_switching phase]
        exact unowned cpu bound
      rw [enter_system]
      change (history.system.machine.contextSwitch cpu old (.task task) ttbr0).regs cpu = _
      rw [contextSwitch_loads ttbr0 notLeft, context, initialContext, stack, stackTop_pageAddress]
    · intro other task entered root same switching
      cases same
      cases phase.symm.trans switching
      exact lived.code cpu bound task (owner_switching phase)
    · intro other task impossible
      cases impossible

end DragoonKernel
