import DragoonKernel.Library.Transition
import DragoonKernel.SchedSpec

/-!
The IRQ mask of one CPU over calls of `schedule()` from tasks and from system calls. A context
switch leaves the mask as it is, so a task goes on with the mask of the one before it.
-/

namespace DragoonKernel

/-- `irqMasked` is `PSTATE.I`, and `spsr` the bit that the entry into a system call has saved on
the stack of the task. `calls` is the mask at each task's last call of `schedule()`. -/
structure IrqCpu where
  smp : Smp
  irqMasked : Bool
  spsr : Nat → Option Bool
  calls : Nat → Option Bool

inductive IrqAction where
  | svc
  | eret
  | schedule
  | create (task : Nat)
  | elsewhere (tasks : Nat → Task)

def IrqCpu.spinLockIrqsave (cpu : IrqCpu) : IrqCpu × Bool :=
  ({ cpu with irqMasked := true }, cpu.irqMasked)

def IrqCpu.spinUnlockIrqrestore (cpu : IrqCpu) (daif : Bool) : IrqCpu :=
  { cpu with irqMasked := daif }

def IrqCpu.current (cpu : IrqCpu) : Option Nat :=
  if 0 ≤ cpu.smp.current 0 then some (cpu.smp.current 0).toNat else none

def IrqCpu.record (cpu : IrqCpu) : IrqCpu :=
  match cpu.current with
  | some task => { cpu with calls := Function.update cpu.calls task (some cpu.irqMasked) }
  | none => cpu

/-- `schedule()` up to where the selected code goes on. -/
def IrqCpu.schedule (cpu : IrqCpu) : IrqCpu :=
  let (locked, flags) := cpu.record.spinLockIrqsave
  { locked with smp := (locked.smp.schedule 0).1 }.spinUnlockIrqrestore flags

def IrqCpu.inSyscall (cpu : IrqCpu) (task : Nat) : Bool := (cpu.spsr task).isSome

/-- A task calls `schedule()` from a system call, or directly with IRQs enabled. -/
def IrqCpu.mayCall (cpu : IrqCpu) : Bool :=
  match cpu.current with
  | some task => cpu.inSyscall task || !cpu.irqMasked
  | none => true

def IrqCpu.step (cpu : IrqCpu) : IrqAction → Option IrqCpu
  | .svc => cpu.current.bind fun task =>
      if cpu.inSyscall task then none
      else some { cpu with
        irqMasked := true
        spsr := Function.update cpu.spsr task (some cpu.irqMasked) }
  | .eret => cpu.current.bind fun task =>
      (cpu.spsr task).map fun saved =>
        { cpu with irqMasked := saved, spsr := Function.update cpu.spsr task none }
  | .schedule => if cpu.mayCall then some cpu.schedule else none
  | .create task =>
      if cpu.current = some task then none
      else some { cpu with
        smp := cpu.smp.setState task .ready
        spsr := Function.update cpu.spsr task none
        calls := Function.update cpu.calls task none }
  | .elsewhere tasks => some { cpu with smp := { cpu.smp with tasks := tasks } }

/-- The task in which `schedule()` returns has the mask of its call, and one that has made none
starts with IRQs enabled. -/
def MaskKept (_ : IrqCpu) (action : IrqAction) (after : IrqCpu) : Prop :=
  action = .schedule → ∀ task, after.current = some task →
    after.irqMasked = (after.calls task).getD false

/-- By which way the CPU calls `schedule()`: the idle loop goes on as it was entered. -/
def IrqCpu.route (cpu : IrqCpu) : Bool :=
  match cpu.current with
  | some task => cpu.inSyscall task
  | none => cpu.irqMasked

/-- The condition at each call that selects another task: that task made its own last call by
the same way. -/
def SameRoute (before : IrqCpu) (action : IrqAction) (_ : IrqCpu) : Prop :=
  action = .schedule → ∀ next,
    findReady before.smp.states (scanStart (before.smp.current 0)) = some next →
    before.current ≠ some next → before.route = before.inSyscall next

/-- While all is well, exactly the tasks in a system call have IRQs masked. -/
structure IrqCpu.Matched (cpu : IrqCpu) : Prop where
  running : ∀ task, cpu.current = some task → cpu.irqMasked = cpu.inSyscall task
  waiting : ∀ task, cpu.current ≠ some task → (cpu.calls task).getD false = cpu.inSyscall task
  entered : ∀ task saved, cpu.spsr task = some saved → saved = false

def IrqCpu.boot (tasks : Nat → Task) : IrqCpu where
  smp := { tasks := tasks, percpu := fun _ => Percpu.running (-1) }
  irqMasked := false
  spsr := fun _ => none
  calls := fun _ => none

theorem irqBoot_matched (tasks : Nat → Task) : (IrqCpu.boot tasks).Matched :=
  ⟨(fun _ runs => by cases runs), fun _ _ => rfl, (fun _ _ entry => by cases entry)⟩

variable {cpu after : IrqCpu}

theorem record_smp (cpu : IrqCpu) : cpu.record.smp = cpu.smp := by
  unfold IrqCpu.record
  split <;> rfl

theorem record_irqMasked (cpu : IrqCpu) : cpu.record.irqMasked = cpu.irqMasked := by
  unfold IrqCpu.record
  split <;> rfl

theorem record_spsr (cpu : IrqCpu) : cpu.record.spsr = cpu.spsr := by
  unfold IrqCpu.record
  split <;> rfl

theorem record_calls_current {task : Nat} (runs : cpu.current = some task) :
    cpu.record.calls task = some cpu.irqMasked := by
  simp [IrqCpu.record, runs]

theorem record_calls_other {task : Nat} (waits : cpu.current ≠ some task) :
    cpu.record.calls task = cpu.calls task := by
  unfold IrqCpu.record
  split
  next other runs =>
    have different : task ≠ other := fun same => waits (same ▸ runs)
    simp [different]
  next => rfl

theorem irqSchedule_irqMasked (cpu : IrqCpu) : cpu.schedule.irqMasked = cpu.irqMasked :=
  record_irqMasked cpu

theorem irqSchedule_inSyscall (cpu : IrqCpu) (task : Nat) :
    cpu.schedule.inSyscall task = cpu.inSyscall task :=
  congrArg (fun spsr => (spsr task).isSome) (record_spsr cpu)

theorem irqSchedule_spsr (cpu : IrqCpu) : cpu.schedule.spsr = cpu.spsr := record_spsr cpu

theorem irqSchedule_calls (cpu : IrqCpu) : cpu.schedule.calls = cpu.record.calls := rfl

theorem irqSchedule_current (cpu : IrqCpu) :
    cpu.schedule.current = findReady cpu.smp.states (scanStart (cpu.smp.current 0)) := by
  have smp : cpu.schedule.smp = (cpu.smp.schedule 0).1 := by
    rw [← record_smp cpu]
    rfl
  rw [IrqCpu.current, smp, schedule_current, if_pos rfl]
  cases found : findReady cpu.smp.states (scanStart (cpu.smp.current 0)) with
  | none =>
      simp only
      by_cases runs : 0 ≤ cpu.smp.current 0
      · rw [if_pos runs, if_neg (by decide)]
      · rw [if_neg runs, if_neg runs]
  | some next =>
      simp only
      rw [if_pos (Int.natCast_nonneg next), Int.toNat_natCast]

/-- The mask that the selected task should have is decided by the way of its last call. -/
theorem IrqCpu.Matched.expected (matched : cpu.Matched) (task : Nat) :
    (cpu.record.calls task).getD false = cpu.inSyscall task := by
  by_cases runs : cpu.current = some task
  · rw [record_calls_current runs, Option.getD_some, matched.running task runs]
  · rw [record_calls_other runs, matched.waiting task runs]

theorem IrqCpu.Matched.route_eq (matched : cpu.Matched) : cpu.irqMasked = cpu.route := by
  unfold IrqCpu.route
  split
  next task runs => exact matched.running task runs
  next => rfl

/-- One call of `schedule()`: the mask is kept exactly when the two ways agree. -/
theorem IrqCpu.Matched.schedule_iff (matched : cpu.Matched) :
    MaskKept cpu .schedule cpu.schedule ↔ SameRoute cpu .schedule cpu.schedule := by
  simp only [MaskKept, SameRoute, irqSchedule_current, irqSchedule_calls, irqSchedule_irqMasked,
    matched.expected, forall_const]
  constructor
  · intro kept next found _
    rw [← matched.route_eq]
    exact kept next found
  · intro same next found
    by_cases stays : cpu.current = some next
    · exact matched.running next stays
    · rw [matched.route_eq]
      exact same next found stays

theorem IrqCpu.Matched.schedule (matched : cpu.Matched)
    (kept : MaskKept cpu .schedule cpu.schedule) : cpu.schedule.Matched := by
  have expected : ∀ task, (cpu.schedule.calls task).getD false = cpu.schedule.inSyscall task := by
    intro task
    rw [irqSchedule_inSyscall]
    exact matched.expected task
  refine ⟨?_, fun task _ => expected task, ?_⟩
  · intro task runs
    rw [kept rfl task runs, expected task]
  · intro task saved entry
    rw [irqSchedule_spsr] at entry
    exact matched.entered task saved entry

theorem IrqCpu.Matched.svc (matched : cpu.Matched)
    (stepped : cpu.step .svc = some after) : after.Matched := by
  obtain ⟨task, runs, entered⟩ := Option.bind_eq_some_iff.mp stepped
  simp only [Option.ite_none_left_eq_some, Bool.not_eq_true, Option.some.injEq] at entered
  obtain ⟨outside, rfl⟩ := entered
  have unmasked : cpu.irqMasked = false := by rw [matched.running task runs, outside]
  refine ⟨?_, ?_, ?_⟩
  · intro other also
    obtain rfl := Option.some.inj (runs.symm.trans also)
    simp [IrqCpu.inSyscall]
  · intro other waits
    have different : other ≠ task := fun same => waits (same ▸ runs)
    simpa [IrqCpu.inSyscall, different] using matched.waiting other waits
  · intro other saved entry
    by_cases here : other = task
    · subst here
      simpa [unmasked] using entry.symm
    · simp only [Function.update_of_ne here] at entry
      exact matched.entered other saved entry

theorem IrqCpu.Matched.eret (matched : cpu.Matched)
    (stepped : cpu.step .eret = some after) : after.Matched := by
  obtain ⟨task, runs, returned⟩ := Option.bind_eq_some_iff.mp stepped
  obtain ⟨saved, entry, rfl⟩ := Option.map_eq_some_iff.mp returned
  have unmasked := matched.entered task saved entry
  refine ⟨?_, ?_, ?_⟩
  · intro other also
    obtain rfl := Option.some.inj (runs.symm.trans also)
    simp [IrqCpu.inSyscall, unmasked]
  · intro other waits
    have different : other ≠ task := fun same => waits (same ▸ runs)
    simpa [IrqCpu.inSyscall, different] using matched.waiting other waits
  · intro other kept entry
    by_cases here : other = task
    · subst here
      simp at entry
    · simp only [Function.update_of_ne here] at entry
      exact matched.entered other kept entry

theorem IrqCpu.Matched.create (matched : cpu.Matched) {task : Nat}
    (stepped : cpu.step (.create task) = some after) : after.Matched := by
  simp only [IrqCpu.step, Option.ite_none_left_eq_some, Option.some.injEq] at stepped
  obtain ⟨waits, rfl⟩ := stepped
  refine ⟨?_, ?_, ?_⟩
  · intro other runs
    have different : other ≠ task := fun same => waits (same ▸ runs)
    simpa [IrqCpu.inSyscall, different] using matched.running other runs
  · intro other elsewhere
    by_cases here : other = task
    · subst here
      simp [IrqCpu.inSyscall]
    · simpa [IrqCpu.inSyscall, here] using matched.waiting other elsewhere
  · intro other saved entry
    by_cases here : other = task
    · subst here
      simp at entry
    · simp only [Function.update_of_ne here] at entry
      exact matched.entered other saved entry

/-- In every run the mask is kept by all calls of `schedule()` if and only if every call selects
a task whose own last call was made by the same way. -/
theorem schedule_mask_iff (tasks : Nat → Task) (actions : List IrqAction) :
    Transition.EveryStep IrqCpu.step MaskKept (.boot tasks) actions ↔
      Transition.EveryStep IrqCpu.step SameRoute (.boot tasks) actions := by
  have calls : ∀ {cpu next : IrqCpu}, cpu.step .schedule = some next → next = cpu.schedule := by
    intro cpu next stepped
    simp only [IrqCpu.step, Option.ite_none_right_eq_some, Option.some.injEq] at stepped
    exact stepped.2.symm
  have keeps : ∀ (cpu : IrqCpu) action next, cpu.Matched → cpu.step action = some next →
      SameRoute cpu action next → next.Matched ∧ MaskKept cpu action next := by
    intro cpu action next matched stepped same
    cases action with
    | svc => exact ⟨matched.svc stepped, fun other => by cases other⟩
    | eret => exact ⟨matched.eret stepped, fun other => by cases other⟩
    | schedule =>
        obtain rfl := calls stepped
        have kept := matched.schedule_iff.mpr same
        exact ⟨matched.schedule kept, kept⟩
    | create task => exact ⟨matched.create stepped, fun other => by cases other⟩
    | elsewhere tasks =>
        obtain rfl := Option.some.inj stepped
        exact ⟨⟨matched.running, matched.waiting, matched.entered⟩, fun other => by cases other⟩
  have spoils : ∀ (cpu : IrqCpu) action next, cpu.Matched → cpu.step action = some next →
      ¬SameRoute cpu action next → ¬MaskKept cpu action next := by
    intro cpu action next matched stepped differs kept
    cases action with
    | schedule =>
        obtain rfl := calls stepped
        exact differs (matched.schedule_iff.mp kept)
    | _ => exact differs fun other => by cases other
  exact Transition.everyStep_iff_everyStep keeps spoils (irqBoot_matched tasks) actions

/-- Task 1 calls `schedule()` directly, task 2 from a system call, and task 1 goes on with IRQs
masked. -/
def yieldsFromSyscall : List IrqAction :=
  [.create 1, .create 2, .schedule, .schedule, .svc, .schedule]

theorem yieldsFromSyscall_masks :
    ¬∀ tasks actions, Transition.EveryStep IrqCpu.step MaskKept (.boot tasks) actions := by
  intro all
  have masked : ((Transition.exec IrqCpu.step (.boot fun _ => Task.zero)
      (yieldsFromSyscall.take 5)).bind fun cpu => cpu.step .schedule).any (fun cpu =>
        decide (cpu.current = some 1) && cpu.irqMasked && decide (cpu.calls 1 = some false)) =
      true := by
    decide +kernel
  obtain ⟨after, reached, facts⟩ := (Option.any_eq_true _ _).mp masked
  obtain ⟨before, run, stepped⟩ := Option.bind_eq_some_iff.mp reached
  simp only [Bool.and_eq_true, decide_eq_true_eq] at facts
  have kept := (all (fun _ => Task.zero) (yieldsFromSyscall.take 5 ++ [.schedule])).snoc run stepped
    rfl 1 facts.1.1
  rw [facts.1.2, facts.2] at kept
  cases kept

end DragoonKernel
