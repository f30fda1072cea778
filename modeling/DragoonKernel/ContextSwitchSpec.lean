import DragoonKernel.ContextSwitchCore
import DragoonKernel.SchedSpec

/-! What a CPU leaves, and for what, in the two steps of `schedule()`. -/

namespace DragoonKernel

theorem owner_running {machine : Machine} {cpu : Nat} (phase : machine.phases cpu = .running) :
    machine.owner cpu = machine.smp.currentContext cpu := by
  rw [Machine.owner, phase]

theorem owner_switching {machine : Machine} {cpu : Nat} {old new : ContextRef} {ttbr0 : Word}
    (phase : machine.phases cpu = .switching old new ttbr0) : machine.owner cpu = old := by
  rw [Machine.owner, phase]

theorem owner_congr {machine other : Machine} {cpu : Nat}
    (phase : other.phases cpu = machine.phases cpu)
    (current : other.smp.current cpu = machine.smp.current cpu) :
    other.owner cpu = machine.owner cpu := by
  rw [Machine.owner, Machine.owner, phase, Smp.currentContext, Smp.currentContext, current]

theorem currentContext_task {smp : Smp} {cpu task : Nat} :
    smp.currentContext cpu = .task task ↔ smp.current cpu = (task : Int) := by
  unfold Smp.currentContext
  by_cases runs : 0 ≤ smp.current cpu
  · rw [if_pos runs, ContextRef.task.injEq]
    omega
  · rw [if_neg runs]
    constructor
    · intro impossible
      cases impossible
    · intro same
      omega

@[simp] theorem setState_ctx (smp : Smp) (task other : Nat) (state : TaskState) :
    ((smp.setState task state).tasks other).ctx = (smp.tasks other).ctx := by
  by_cases here : other = task
  · subst here
    simp [Smp.setState]
  · simp [Smp.setState, here]

theorem taskGet_natCast {states : Nat → TaskState} {task : Nat} (inside : task < maxTasks) :
    taskGet states (task : Int) = if states task = .dead then none else some task := by
  unfold taskGet
  rw [if_neg (by omega), Int.toNat_natCast]

theorem oldContext_idle {smp : Smp} {cpu : Nat} (idle : smp.current cpu < 0) :
    smp.oldContext cpu = (smp, .idle cpu) := by
  rw [Smp.oldContext, if_neg (by omega)]

theorem oldContext_dead {smp : Smp} {cpu task : Nat} (current : smp.current cpu = (task : Int))
    (inside : task < maxTasks) (dead : smp.states task = .dead) :
    smp.oldContext cpu = (smp, .dead cpu) := by
  rw [Smp.oldContext, if_pos (by omega), current, taskGet_natCast inside, if_pos dead]

theorem oldContext_live {smp : Smp} {cpu task : Nat} (current : smp.current cpu = (task : Int))
    (inside : task < maxTasks) (live : smp.states task ≠ .dead) :
    smp.oldContext cpu =
      (if smp.states task = .running then smp.setState task .ready else smp, .task task) := by
  rw [Smp.oldContext, if_pos (by omega), current, taskGet_natCast inside, if_neg live]

/-- What a CPU leaves: its current code, or the remains of a task that is dead. -/
def Leaves (smp : Smp) (cpu : Nat) (old : ContextRef) : Prop :=
  old = smp.currentContext cpu ∨
    old = .dead cpu ∧ ∃ task : Nat, smp.current cpu = task ∧ smp.states task = .dead

def MayLeave (smp : Smp) (cpu : Nat) : Prop :=
  ∀ task : Nat, smp.current cpu = task → task < maxTasks ∧ smp.states task ≠ .blocked

theorem oldContext_leaves {smp : Smp} {cpu : Nat} (mayLeave : MayLeave smp cpu) :
    Leaves smp cpu (smp.oldContext cpu).2 ∧
      (∀ task, ((smp.oldContext cpu).1.tasks task).ctx = (smp.tasks task).ctx) ∧
      ∀ task, (smp.oldContext cpu).1.states task =
        if (smp.oldContext cpu).2 = .task task then .ready else smp.states task := by
  by_cases idle : smp.current cpu < 0
  · rw [oldContext_idle idle]
    refine ⟨Or.inl ?_, fun _ => rfl, fun task => by simp⟩
    rw [Smp.currentContext, if_neg (by omega)]
  · obtain ⟨task, current⟩ := Int.eq_ofNat_of_zero_le (by omega : 0 ≤ smp.current cpu)
    obtain ⟨inside, unblocked⟩ := mayLeave task current
    have context : smp.currentContext cpu = .task task := currentContext_task.mpr current
    by_cases dead : smp.states task = .dead
    · rw [oldContext_dead current inside dead]
      exact ⟨Or.inr ⟨rfl, task, current, dead⟩, fun _ => rfl, fun other => by simp⟩
    · rw [oldContext_live current inside dead]
      refine ⟨Or.inl context.symm, ?_, ?_⟩
      · intro other
        split <;> simp
      · intro other
        by_cases here : task = other
        · subst here
          cases state : smp.states task with
          | dead => exact absurd state dead
          | ready => simp [state]
          | running => simp
          | blocked => exact absurd state unblocked
        · simp only [ContextRef.task.injEq, here, if_false]
          split
          · simp [Ne.symm here]
          · rfl

structure Decided (machine : Machine) (cpu : Nat) (smp : Smp) (old new : ContextRef) : Prop where
  leaves : Leaves machine.smp cpu old
  contexts : ∀ task, (smp.tasks task).ctx = (machine.smp.tasks task).ctx
  target : new = smp.currentContext cpu
  moves : old ≠ new
  others : ∀ other, other ≠ cpu → smp.current other = machine.smp.current other
  found : ∀ task, new = .task task ↔
    findReady machine.smp.states (scanStart (machine.smp.current cpu)) = some task
  states : ∀ task, smp.states task =
    if new = .task task then .running
    else if old = .task task then .ready else machine.smp.states task

def Machine.leave (machine : Machine) (cpu : Nat) (smp : Smp) (old new : ContextRef)
    (ttbr0 : Word) : Machine :=
  { machine with
    smp := smp
    phases := Function.update machine.phases cpu (.switching old new ttbr0) }

theorem leave_phase (machine : Machine) (cpu : Nat) (smp : Smp) (old new : ContextRef)
    (ttbr0 : Word) :
    (machine.leave cpu smp old new ttbr0).phases cpu = .switching old new ttbr0 :=
  Function.update_self _ _ _

theorem leave_phase_of_ne (machine : Machine) {cpu other : Nat} (smp : Smp) (old new : ContextRef)
    (ttbr0 : Word) (different : other ≠ cpu) :
    (machine.leave cpu smp old new ttbr0).phases other = machine.phases other :=
  Function.update_of_ne different _ _

/-- `schedule()` finds nothing for an idle CPU, finds the current task itself, or leaves. -/
theorem schedule_decided {machine : Machine} {cpu : Nat} (mayLeave : MayLeave machine.smp cpu) :
    (findReady machine.smp.states (scanStart (machine.smp.current cpu)) = none ∧
      machine.smp.current cpu < 0 ∧ machine.schedule cpu = machine) ∨
    (∃ task, findReady machine.smp.states (scanStart (machine.smp.current cpu)) = some task ∧
      machine.smp.current cpu = (task : Int) ∧ machine.schedule cpu =
        { machine with smp := (machine.smp.oldContext cpu).1.setState task .running }) ∨
    ∃ smp old new ttbr0, Decided machine cpu smp old new ∧
      machine.schedule cpu = machine.leave cpu smp old new ttbr0 := by
  obtain ⟨leaves, contexts, states⟩ := oldContext_leaves mayLeave
  rcases schedule_cases machine.smp cpu with ⟨found, idle, same⟩ | ⟨found, runs, same⟩ |
    ⟨next, found, current, same⟩ | ⟨next, found, current, same⟩
  · refine Or.inl ⟨found, idle, ?_⟩
    rw [oldContext_idle idle] at same
    simp only [Machine.schedule, same]
  · refine Or.inr (Or.inr ⟨(machine.smp.oldContext cpu).1.setCurrent cpu (-1), _, .idle cpu, 0,
      ?_, by simp only [Machine.schedule, same]; rfl⟩)
    refine ⟨leaves, by simpa using contexts, by simp [Smp.currentContext], ?_, ?_, ?_, ?_⟩
    · rcases leaves with same | ⟨same, _⟩
      · rw [same, Smp.currentContext, if_pos runs]
        simp
      · simp [same]
    · intro other different
      simp [different, oldContext_current]
    · simp [found]
    · intro task
      simp [states]
  · exact Or.inr (Or.inl ⟨next, found, current, by simp only [Machine.schedule, same]⟩)
  · refine Or.inr (Or.inr
      ⟨((machine.smp.oldContext cpu).1.setState next .running).setCurrent cpu next, _,
      .task next, _, ?_, by simp only [Machine.schedule, same]; rfl⟩)
    refine ⟨leaves, by simpa using contexts, by simp [Smp.currentContext], ?_, ?_, ?_, ?_⟩
    · rcases leaves with same | ⟨same, _⟩
      · rw [same, Ne, currentContext_task]
        exact current
      · simp [same]
    · intro other different
      simp [different, oldContext_current]
    · simp [found]
    · intro task
      simp [states, Function.update_apply, eq_comm]

theorem leave_owner {machine : Machine} {cpu : Nat} {smp : Smp} {old new : ContextRef}
    (decided : Decided machine cpu smp old new) (ttbr0 : Word) (other : Nat) :
    (machine.leave cpu smp old new ttbr0).owner other =
      if other = cpu then old else machine.owner other := by
  by_cases here : other = cpu
  · subst here
    rw [if_pos rfl]
    exact owner_switching (leave_phase machine other smp old new ttbr0)
  · rw [if_neg here]
    exact owner_congr (leave_phase_of_ne machine smp old new ttbr0 here) (decided.others other here)

/-- The current tasks are in states that `schedule()` does not look for, and distinct. -/
structure CurrentTasks (allowed : TaskState → Prop) (cpus : Nat) (smp : Smp) : Prop where
  states : ∀ cpu < cpus, ∀ task : Nat, smp.current cpu = task →
    task < maxTasks ∧ allowed (smp.states task)
  distinct : ∀ first < cpus, ∀ second < cpus, first ≠ second → ∀ task : Nat,
    smp.current first = task → smp.current second ≠ task

variable {allowed : TaskState → Prop} {cpus cpu : Nat} {machine : Machine} {smp : Smp}
  {old new : ContextRef}

theorem Leaves.currentContext {task : Nat} (leaves : Leaves smp cpu old)
    (left : old = .task task) : smp.current cpu = task := by
  rcases leaves with same | ⟨same, _⟩
  · exact currentContext_task.mp (same.symm.trans left)
  · cases same.symm.trans left

theorem CurrentTasks.found_ne (current : CurrentTasks allowed cpus smp) (notReady : ¬allowed .ready)
    (bound : cpu < cpus) {start next task : Nat} (runs : smp.current cpu = (task : Int))
    (found : findReady smp.states start = some next) : task ≠ next := by
  rintro rfl
  have holds := (current.states cpu bound task runs).2
  rw [(findReady_ready found).1] at holds
  exact notReady holds

theorem CurrentTasks.kept (current : CurrentTasks allowed cpus machine.smp)
    (notReady : ¬allowed .ready) (bound : cpu < cpus) (decided : Decided machine cpu smp old new)
    {other task : Nat} (otherBound : other < cpus) (different : other ≠ cpu)
    (runs : machine.smp.current other = task) :
    new ≠ .task task ∧ smp.states task = machine.smp.states task := by
  have fresh : new ≠ .task task := fun named =>
    current.found_ne notReady otherBound runs ((decided.found task).mp named) rfl
  refine ⟨fresh, ?_⟩
  rw [decided.states, if_neg fresh, if_neg]
  intro left
  exact current.distinct cpu bound other otherBound (Ne.symm different) task
    (decided.leaves.currentContext left) runs

theorem CurrentTasks.decided (current : CurrentTasks allowed cpus machine.smp)
    (notReady : ¬allowed .ready) (running : allowed .running) (bound : cpu < cpus)
    (decided : Decided machine cpu smp old new) : CurrentTasks allowed cpus smp := by
  have taken : ∀ task : Nat, smp.current cpu = task → new = .task task := by
    intro task runs
    rw [decided.target, currentContext_task, runs]
  have separate : ∀ other < cpus, other ≠ cpu → ∀ task : Nat, smp.current cpu = task →
      smp.current other ≠ task := by
    intro other otherBound different task here there
    rw [decided.others other different] at there
    exact (current.kept notReady bound decided otherBound different there).1 (taken task here)
  constructor
  · intro other otherBound task runs
    by_cases here : other = cpu
    · subst here
      have named := taken task runs
      refine ⟨(findReady_ready ((decided.found task).mp named)).2, ?_⟩
      rw [decided.states, if_pos named]
      exact running
    · rw [decided.others other here] at runs
      rw [(current.kept notReady bound decided otherBound here runs).2]
      exact current.states other otherBound task runs
  · intro first firstBound second secondBound different task atFirst
    by_cases firstHere : first = cpu
    · subst firstHere
      exact separate second secondBound (Ne.symm different) task atFirst
    · by_cases secondHere : second = cpu
      · subst secondHere
        exact fun atSecond => separate first firstBound different task atSecond atFirst
      · rw [decided.others first firstHere] at atFirst
        rw [decided.others second secondHere]
        exact current.distinct first firstBound second secondBound different task atFirst

theorem CurrentTasks.congr {after : Smp} (current : CurrentTasks allowed cpus smp)
    (states : after.states = smp.states) (same : ∀ cpu, after.current cpu = smp.current cpu) :
    CurrentTasks allowed cpus after := by
  constructor
  · simpa only [states, same] using current.states
  · simpa only [same] using current.distinct

@[simp] theorem save_states (smp : Smp) (context : TaskContext) (old : ContextRef) :
    (smp.save context old).states = smp.states := by
  funext other
  cases old with
  | task task =>
      by_cases here : other = task
      · subst here
        simp [Smp.save, Smp.states]
      · simp [Smp.save, Smp.states, here]
  | idle cpu => rfl
  | dead cpu => rfl

@[simp] theorem save_current (smp : Smp) (context : TaskContext) (old : ContextRef) (other : Nat) :
    (smp.save context old).current other = smp.current other := by
  cases old with
  | task task => rfl
  | idle cpu =>
      by_cases here : other = cpu
      · subst here
        simp [Smp.save, Smp.current]
      · simp [Smp.save, Smp.current, here]
  | dead cpu =>
      by_cases here : other = cpu
      · subst here
        simp [Smp.save, Smp.current]
      · simp [Smp.save, Smp.current, here]

theorem save_ctx (smp : Smp) (context : TaskContext) (old : ContextRef) (task : Nat) :
    ((smp.save context old).tasks task).ctx =
      if old = .task task then context else (smp.tasks task).ctx := by
  cases old with
  | task other =>
      by_cases here : task = other
      · subst here
        simp [Smp.save]
      · simp [Smp.save, here, Ne.symm here]
  | idle cpu => rfl
  | dead cpu => rfl

@[simp] theorem save_currentContext (smp : Smp) (context : TaskContext) (old : ContextRef)
    (cpu : Nat) : (smp.save context old).currentContext cpu = smp.currentContext cpu := by
  simp [Smp.currentContext]

@[simp] theorem contextSwitch_states (machine : Machine) (cpu : Nat) (old new : ContextRef)
    (ttbr0 : Word) :
    (machine.contextSwitch cpu old new ttbr0).smp.states = machine.smp.states :=
  save_states _ _ _

@[simp] theorem contextSwitch_current (machine : Machine) (cpu : Nat) (old new : ContextRef)
    (ttbr0 : Word) (other : Nat) :
    (machine.contextSwitch cpu old new ttbr0).smp.current other = machine.smp.current other :=
  save_current _ _ _ _

@[simp] theorem contextSwitch_currentContext (machine : Machine) (cpu : Nat)
    (old new : ContextRef) (ttbr0 : Word) (other : Nat) :
    (machine.contextSwitch cpu old new ttbr0).smp.currentContext other =
      machine.smp.currentContext other :=
  save_currentContext _ _ _ _

theorem contextSwitch_ctx (machine : Machine) (cpu : Nat) (old new : ContextRef) (ttbr0 : Word)
    (task : Nat) : ((machine.contextSwitch cpu old new ttbr0).smp.tasks task).ctx =
      if old = .task task then machine.regs cpu else (machine.smp.tasks task).ctx :=
  save_ctx _ _ _ _

theorem contextSwitch_phases (machine : Machine) (cpu : Nat) (old new : ContextRef)
    (ttbr0 : Word) (other : Nat) : (machine.contextSwitch cpu old new ttbr0).phases other =
      if other = cpu then .running else machine.phases other := by
  by_cases here : other = cpu
  · subst here
    simp [Machine.contextSwitch]
  · simp [Machine.contextSwitch, here]

theorem switching_of_contextSwitch {machine : Machine} {cpu other : Nat}
    {old new left entered : ContextRef} {ttbr0 root : Word}
    (switching : (machine.contextSwitch cpu old new ttbr0).phases other =
      .switching left entered root) :
    other ≠ cpu ∧ machine.phases other = .switching left entered root := by
  rw [contextSwitch_phases] at switching
  split at switching
  next => cases switching
  next different => exact ⟨different, switching⟩

theorem contextSwitch_owner {machine : Machine} {cpu : Nat} {old new : ContextRef} {ttbr0 : Word}
    (target : new = machine.smp.currentContext cpu) (other : Nat) :
    (machine.contextSwitch cpu old new ttbr0).owner other =
      if other = cpu then new else machine.owner other := by
  have phase := contextSwitch_phases machine cpu old new ttbr0 other
  by_cases here : other = cpu
  · subst here
    rw [if_pos rfl] at phase ⊢
    rw [owner_running phase, contextSwitch_currentContext, target]
  · rw [if_neg here] at phase ⊢
    exact owner_congr phase (contextSwitch_current _ _ _ _ _ _)

theorem contextSwitch_loads {machine : Machine} {cpu : Nat} {old : ContextRef} {task : Nat}
    (ttbr0 : Word) (moves : old ≠ .task task) :
    (machine.contextSwitch cpu old (.task task) ttbr0).regs cpu = (machine.smp.tasks task).ctx := by
  have loaded : (machine.contextSwitch cpu old (.task task) ttbr0).regs cpu =
      ((machine.contextSwitch cpu old (.task task) ttbr0).smp.tasks task).ctx :=
    Function.update_self _ _ _
  rw [loaded, contextSwitch_ctx, if_neg moves]

theorem contextSwitch_regs_of_ne (machine : Machine) {cpu other : Nat} (old new : ContextRef)
    (ttbr0 : Word) (different : other ≠ cpu) :
    (machine.contextSwitch cpu old new ttbr0).regs other = machine.regs other :=
  Function.update_of_ne different _ _

theorem CurrentTasks.single (only : ∀ cpu task : Nat, smp.current cpu = task → cpu = 0 ∧ task = 0)
    (state : allowed (smp.states 0)) : CurrentTasks allowed cpus smp := by
  constructor
  · intro cpu bound task runs
    obtain ⟨_, rfl⟩ := only cpu task runs
    exact ⟨by decide, state⟩
  · intro first firstBound second secondBound different task atFirst atSecond
    have one := only first task atFirst
    have two := only second task atSecond
    omega

end DragoonKernel
