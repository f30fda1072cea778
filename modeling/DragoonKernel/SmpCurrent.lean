import DragoonKernel.Library.Transition
import DragoonKernel.SchedSpec
import DragoonKernel.WaitQueueCore

/-!
Tasks that are current on two CPUs. They appear in exactly the runs in which some
critical section of `schedule()` comes first upon a ready task that another CPU still
has as its current one.
-/

namespace DragoonKernel

/-- The critical sections that CPUs interleave. A wake-up sends its reschedule
interrupt after its section and leaves no trace here. -/
inductive WqAction where
  | schedule (cpu : Nat)
  | wait (cpu queue : Nat) (timeoutTick : Word)
  | wakeOne (queue : Nat)
  | wakeAll (queue : Nat)
  | tick (now : Word)

def WqSystem.step (cpus : Nat) (system : WqSystem) : WqAction → Option WqSystem
  | .schedule cpu =>
      if cpu < cpus then some { system with smp := (system.smp.schedule cpu).1 } else none
  | .wait cpu queue timeoutTick =>
      if cpu < cpus then system.wait cpu queue timeoutTick else none
  | .wakeOne queue => system.wakeOne queue
  | .wakeAll queue => system.wakeAll queue
  | .tick now => system.tick now

@[simp] theorem setWakeup_percpu (smp : Smp) (task : Nat) (reason : Int) (state : TaskState) :
    (smp.setWakeup task reason state).percpu = smp.percpu := rfl

@[simp] theorem wake_percpu (smp : Smp) (taskId reason : Int) :
    (smp.wake taskId reason).percpu = smp.percpu := by
  unfold Smp.wake
  split
  · split <;> rfl
  · rfl

theorem wait_percpu {system after : WqSystem} {cpu queue : Nat} {timeoutTick : Word}
    (waited : system.wait cpu queue timeoutTick = some after) :
    after.smp.percpu = system.smp.percpu := by
  simp only [WqSystem.wait, Option.ite_none_left_eq_some] at waited
  obtain ⟨_, waited⟩ := waited
  split at waited
  · obtain rfl := Option.some.inj waited
    rfl
  · simp only [Option.bind_eq_bind, Option.bind_eq_some_iff, Option.some.injEq] at waited
    obtain ⟨queues, _, rfl⟩ := waited
    split <;> rfl

theorem wakeOne_percpu {system after : WqSystem} {queue : Nat}
    (woken : system.wakeOne queue = some after) : after.smp.percpu = system.smp.percpu := by
  unfold WqSystem.wakeOne at woken
  split at woken
  · obtain rfl := Option.some.inj woken
    rfl
  · obtain ⟨index, _, rfl⟩ := Option.map_eq_some_iff.mp woken
    exact wake_percpu _ _ _

theorem wakeAllLoop_percpu {queue fuel : Nat} {system after : WqSystem}
    (woken : WqSystem.wakeAllLoop queue fuel system = some after) :
    after.smp.percpu = system.smp.percpu := by
  induction fuel generalizing system with
  | zero => simp [WqSystem.wakeAllLoop] at woken
  | succ fuel ih =>
      unfold WqSystem.wakeAllLoop at woken
      split at woken
      · obtain rfl := Option.some.inj woken
        rfl
      · obtain ⟨index, _, rest⟩ := Option.bind_eq_some_iff.mp woken
        rw [ih rest]
        exact wake_percpu _ _ _

theorem expire_percpu {now : Word} {system after : WqSystem} {index : Nat}
    (expired : system.expire now index = some after) :
    after.smp.percpu = system.smp.percpu := by
  simp only [WqSystem.expire] at expired
  split at expired
  · obtain rfl := Option.some.inj expired
    rfl
  · obtain ⟨queues, _, rfl⟩ := Option.map_eq_some_iff.mp expired
    exact wake_percpu _ _ _

theorem tick_percpu {now : Word} {indices : List Nat} {system after : WqSystem}
    (ticked : indices.foldlM (WqSystem.expire now) system = some after) :
    after.smp.percpu = system.smp.percpu := by
  induction indices generalizing system with
  | nil =>
      obtain rfl := Option.some.inj ticked
      rfl
  | cons index rest ih =>
      simp only [List.foldlM_cons, Option.bind_eq_bind, Option.bind_eq_some_iff] at ticked
      obtain ⟨middle, expired, rest⟩ := ticked
      rw [ih rest, expire_percpu expired]

def DistinctCurrent (cpus : Nat) (system : WqSystem) : Prop :=
  ∀ first < cpus, ∀ second < cpus, first ≠ second →
    system.smp.current first = system.smp.current second → system.smp.current first < 0

def CurrentElsewhere (cpus : Nat) (smp : Smp) (cpu task : Nat) : Prop :=
  ∃ other < cpus, other ≠ cpu ∧ smp.current other = task

/-- The condition at each `schedule()`: a ready task that is current on another CPU is
preceded in the search by one that is not. -/
def SchedulesElsewhere (cpus : Nat) (system : WqSystem) (action : WqAction) (_ : WqSystem) :
    Prop :=
  match action with
  | .schedule cpu => Shielded system.smp.states (scanStart (system.smp.current cpu))
      (CurrentElsewhere cpus system.smp cpu)
  | _ => True

theorem DistinctCurrent.congr {cpus : Nat} {system after : WqSystem}
    (distinct : DistinctCurrent cpus system) (same : after.smp.percpu = system.smp.percpu) :
    DistinctCurrent cpus after := by
  simpa only [DistinctCurrent, Smp.current, same] using distinct

theorem DistinctCurrent.schedule {cpus cpu : Nat} {system : WqSystem}
    (distinct : DistinctCurrent cpus system)
    (shielded : Shielded system.smp.states (scanStart (system.smp.current cpu))
      (CurrentElsewhere cpus system.smp cpu)) :
    DistinctCurrent cpus { system with smp := (system.smp.schedule cpu).1 } := by
  rw [shielded_iff] at shielded
  have fresh : ∀ other < cpus, other ≠ cpu →
      (system.smp.schedule cpu).1.current cpu = system.smp.current other →
      (system.smp.schedule cpu).1.current cpu < 0 := by
    intro other bound different same
    rw [schedule_current, if_pos rfl] at same ⊢
    cases found : findReady system.smp.states (scanStart (system.smp.current cpu)) with
    | none =>
        simp only
        split <;> omega
    | some next =>
        simp only [found] at same
        exact absurd ⟨other, bound, different, same.symm⟩ (shielded next found)
  have kept : ∀ other, other ≠ cpu →
      (system.smp.schedule cpu).1.current other = system.smp.current other := by
    intro other different
    rw [schedule_current, if_neg different]
  intro first firstBound second secondBound different same
  by_cases atFirst : first = cpu
  · subst atFirst
    rw [kept second (Ne.symm different)] at same
    exact fresh second secondBound (Ne.symm different) same
  · by_cases atSecond : second = cpu
    · subst atSecond
      have negative := fresh first firstBound atFirst (by rw [← kept first atFirst, ← same])
      simp only at same ⊢
      omega
    · have before := distinct first firstBound second secondBound different
        (by rw [← kept first atFirst, ← kept second atSecond]; exact same)
      rw [← kept first atFirst] at before
      exact before

theorem DistinctCurrent.schedule_spoils {cpus cpu : Nat} {system : WqSystem}
    (inside : cpu < cpus)
    (unshielded : ¬Shielded system.smp.states (scanStart (system.smp.current cpu))
      (CurrentElsewhere cpus system.smp cpu)) :
    ¬DistinctCurrent cpus { system with smp := (system.smp.schedule cpu).1 } := by
  rw [shielded_iff, not_forall] at unshielded
  obtain ⟨next, taken⟩ := unshielded
  rw [Classical.not_imp, not_not] at taken
  obtain ⟨found, other, bound, different, same⟩ := taken
  intro distinct
  have here : (system.smp.schedule cpu).1.current cpu = (next : Int) := by
    rw [schedule_current, if_pos rfl, found]
  have there : (system.smp.schedule cpu).1.current other = (next : Int) := by
    rw [schedule_current, if_neg different, same]
  have negative := distinct cpu inside other bound (Ne.symm different) (here.trans there.symm)
  simp only [here] at negative
  omega

/-- For any number of CPUs and every interleaving of the critical sections, no task is
current on two CPUs in any state if and only if every `schedule()` meets the condition. -/
theorem currentTask_unique_iff (cpus : Nat) (system : WqSystem)
    (distinct : DistinctCurrent cpus system) (actions : List WqAction) :
    Transition.EveryState (WqSystem.step cpus) (DistinctCurrent cpus) system actions ↔
      Transition.EveryStep (WqSystem.step cpus) (SchedulesElsewhere cpus) system actions := by
  refine Transition.everyState_iff_everyStep (fun _ all => all) ?_ ?_ distinct actions
  · intro state action after before stepped guard
    cases action with
    | schedule cpu =>
        simp only [WqSystem.step, Option.ite_none_right_eq_some, Option.some.injEq] at stepped
        obtain ⟨_, rfl⟩ := stepped
        exact before.schedule guard
    | wait cpu queue timeoutTick =>
        simp only [WqSystem.step, Option.ite_none_right_eq_some] at stepped
        exact before.congr (wait_percpu stepped.2)
    | wakeOne queue => exact before.congr (wakeOne_percpu stepped)
    | wakeAll queue => exact before.congr (wakeAllLoop_percpu stepped)
    | tick now => exact before.congr (tick_percpu stepped)
  · intro state action after before stepped unmet
    cases action with
    | schedule cpu =>
        simp only [WqSystem.step, Option.ite_none_right_eq_some, Option.some.injEq] at stepped
        obtain ⟨inside, rfl⟩ := stepped
        exact DistinctCurrent.schedule_spoils inside unmet
    | wait cpu queue timeoutTick => exact absurd trivial unmet
    | wakeOne queue => exact absurd trivial unmet
    | wakeAll queue => exact absurd trivial unmet
    | tick now => exact absurd trivial unmet

def oneRunning : WqSystem where
  smp := {
    tasks := fun task => { Task.zero with state := if task = 0 then .running else .dead }
    percpu := fun cpu => Percpu.running (if cpu = 0 then 0 else -1) }
  queues := {
    pool := fun _ => ⟨0, 0, -1, false, none⟩
    heads := fun _ => -1 }

theorem oneRunning_distinct : DistinctCurrent 2 oneRunning := by
  intro first firstBound second secondBound different same
  have firstCpu : first = 0 ∨ first = 1 := by omega
  have secondCpu : second = 0 ∨ second = 1 := by omega
  rcases firstCpu with rfl | rfl <;> rcases secondCpu with rfl | rfl <;>
    simp [oneRunning, Smp.current, Percpu.running] at same different ⊢

/-- CPU 1 wakes and takes the task while CPU 0 is between `wq_wait` and `schedule()`. -/
def wokenEarly : List WqAction := [.wait 0 0 0, .wakeOne 0, .schedule 1]

theorem currentTask_unique_iff_wokenEarly :
    Transition.EveryState (WqSystem.step 2) (DistinctCurrent 2) oneRunning wokenEarly ↔
      Transition.EveryStep (WqSystem.step 2) (SchedulesElsewhere 2) oneRunning wokenEarly :=
  currentTask_unique_iff 2 oneRunning oneRunning_distinct wokenEarly

theorem wokenEarly_current_twice :
    ¬∀ actions, Transition.EveryState (WqSystem.step 2) (DistinctCurrent 2) oneRunning actions := by
  intro all
  have twice : (Transition.exec (WqSystem.step 2) oneRunning wokenEarly).any (fun system =>
      decide (system.smp.current 0 = 0) && decide (system.smp.current 1 = 0)) = true := by
    decide +kernel
  obtain ⟨system, run, facts⟩ := (Option.any_eq_true _ _).mp twice
  simp only [Bool.and_eq_true, decide_eq_true_eq] at facts
  have negative := (all wokenEarly).last run 0 (by decide) 1 (by decide) (by decide)
    (facts.1.trans facts.2.symm)
  omega

end DragoonKernel
