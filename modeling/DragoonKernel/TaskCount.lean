import Mathlib.Data.Finset.Card
import DragoonKernel.Library.Transition
import DragoonKernel.TaskAsids
import DragoonKernel.TaskCreation

/-! `task_count()` against the number of live tasks, over all ways of creating and ending a task. -/

namespace DragoonKernel

def liveTasks (states : Nat → TaskState) : Finset Nat :=
  (Finset.range maxTasks).filter fun task => states task ≠ .dead

def TaskSystem.CountExact (system : TaskSystem) : Prop :=
  system.taskCount = (liveTasks system.states).card

instance (system : TaskSystem) : Decidable system.CountExact :=
  inferInstanceAs (Decidable (_ = _))

/-- The condition at each exit: a live task ends through `task_exit_handler`, a dead one does
not get there. -/
def CountsExit (system : TaskSystem) (action : TaskAction) (_ : TaskSystem) : Prop :=
  match action with
  | .taskExitHandler cpu => system.states (system.machine.smp.current cpu).toNat ≠ .dead
  | .sysExit cpu => system.states (system.machine.smp.current cpu).toNat = .dead
  | _ => True

theorem mem_liveTasks {states : Nat → TaskState} {task : Nat} :
    task ∈ liveTasks states ↔ task < maxTasks ∧ states task ≠ .dead := by
  simp [liveTasks]

theorem liveTasks_congr {before after : Nat → TaskState}
    (same : ∀ task, after task = .dead ↔ before task = .dead) :
    liveTasks after = liveTasks before := by
  ext task
  simp only [mem_liveTasks, ne_eq, same]

theorem liveTasks_added {before after : Nat → TaskState} {slot : Nat} (bound : slot < maxTasks)
    (vacant : before slot = .dead) (live : after slot ≠ .dead)
    (others : ∀ task, task ≠ slot → after task = before task) :
    (liveTasks after).card = (liveTasks before).card + 1 := by
  have grown : liveTasks after = insert slot (liveTasks before) := by
    ext task
    by_cases here : task = slot
    · subst here
      simp [mem_liveTasks, bound, live]
    · simp [mem_liveTasks, here, others task here]
  rw [grown, Finset.card_insert_of_notMem]
  simp [mem_liveTasks, vacant]

theorem liveTasks_removed {before after : Nat → TaskState} {task : Nat} (bound : task < maxTasks)
    (live : before task ≠ .dead) (dead : after task = .dead)
    (others : ∀ other, other ≠ task → after other = before other) :
    (liveTasks before).card = (liveTasks after).card + 1 :=
  liveTasks_added bound dead live fun other different => (others other different).symm

variable {cpus pgdTable : Nat} {taskTrampoline : Word} {system after : TaskSystem}

/-- By how much a step changes `task_count()` and the number of live tasks. -/
structure CountStep (system after : TaskSystem) (counted lived : Int) : Prop where
  counted : after.taskCount = system.taskCount + counted
  lived : ((liveTasks after.states).card : Int) = (liveTasks system.states).card + lived

theorem CountStep.exact_iff {counted lived : Int} (step : CountStep system after counted lived)
    (exact : system.CountExact) : after.CountExact ↔ counted = lived := by
  rw [TaskSystem.CountExact] at exact
  rw [TaskSystem.CountExact, step.counted, step.lived, exact]
  omega

theorem countStep_still (holdings : after.machine.smp.holdings = system.machine.smp.holdings)
    (numTasks : after.numTasks = system.numTasks) : CountStep system after 0 0 := by
  have same : liveTasks after.states = liveTasks system.states := by
    refine liveTasks_congr fun task => ?_
    rw [TaskSystem.states, TaskSystem.states, ← holdings_none, ← holdings_none, holdings]
  constructor
  · simp [TaskSystem.taskCount, numTasks]
  · simp [same]

theorem setTask_dead_lived {smp : Smp} {task : Nat} {gone : Task} (dead : gone.state = .dead)
    (bound : task < maxTasks) (live : smp.states task ≠ .dead) :
    ((liveTasks (smp.setTask task gone).states).card : Int) = (liveTasks smp.states).card + -1 := by
  have fills := setTask_fills smp task gone
  have removed := liveTasks_removed bound live
    ((fills.states task).trans ((if_pos rfl).trans dead))
    fun other different => (fills.states other).trans (if_neg different)
  omega

theorem setState_dead_lived {smp : Smp} {task : Nat}
    (inside : smp.states task ≠ .dead → task < maxTasks) :
    ((liveTasks (smp.setState task .dead).states).card : Int) =
      (liveTasks smp.states).card + if smp.states task = .dead then 0 else -1 := by
  split
  next dead =>
    have same : liveTasks (smp.setState task .dead).states = liveTasks smp.states := by
      refine liveTasks_congr fun other => ?_
      rw [setState_states]
      by_cases here : other = task
      · subst here
        simp [dead]
      · rw [Function.update_of_ne here]
    rw [same, Int.add_zero]
  next live => exact setTask_dead_lived rfl (inside live) live

theorem taskCreate_countStep (pgdTable : Nat) (taskTrampoline : Word) (system : TaskSystem)
    (name : List UInt8) (entry : Word) :
    ∃ change, CountStep system (system.taskCreate pgdTable taskTrampoline name entry).1 change
      change := by
  have cases := taskCreate_cases pgdTable taskTrampoline system name entry
  generalize system.taskCreate pgdTable taskTrampoline name entry = outcome at cases ⊢
  obtain ⟨after, returned⟩ := outcome
  rcases cases with ⟨_, untouched⟩ | ⟨slot, bound, _, created⟩
  · have same : liveTasks after.states = liveTasks system.states := by
      refine liveTasks_congr fun task => ⟨fun dead => ?_, untouched.dead task⟩
      by_contra live
      rw [TaskSystem.states, Smp.states, untouched.live task live] at dead
      exact live dead
    exact ⟨0, by simp [untouched.taskCount], by simp [same]⟩
  · have live : after.states slot ≠ .dead := by simp [created.ready]
    have added := liveTasks_added bound created.wasDead live fun task different =>
      congrArg Task.state (created.others task different)
    exact ⟨1, created.taskCount, by rw [added, Nat.cast_add, Nat.cast_one]⟩

theorem taskDestroy_countStep (system : TaskSystem) (taskId : Int) :
    ∃ change, CountStep system (system.taskDestroy taskId) change change := by
  unfold TaskSystem.taskDestroy
  split
  next => exact ⟨0, countStep_still rfl rfl⟩
  next task found =>
    obtain ⟨_, bound, live⟩ := taskGet_some.mp found
    exact ⟨-1, rfl, setTask_dead_lived rfl bound live⟩

theorem step_countStep (inside : system.population.Inside) {action : TaskAction}
    (stepped : system.step cpus pgdTable taskTrampoline action = some after) :
    ∃ counted lived, CountStep system after counted lived ∧
      (counted = lived ↔ CountsExit system action after) := by
  have live_inside : ∀ task, system.machine.smp.states task ≠ .dead → task < maxTasks :=
    fun task live => inside task _ (holdings_live live)
  have still : ∀ {next : TaskSystem}, next.machine.smp.holdings = system.machine.smp.holdings →
      next.numTasks = system.numTasks → ∃ counted lived, CountStep system next counted lived ∧
        (counted = lived ↔ True) :=
    fun holdings numTasks => ⟨0, 0, countStep_still holdings numTasks, by simp⟩
  cases action with
  | create name entry =>
      obtain rfl := Option.some.inj stepped
      obtain ⟨change, step⟩ := taskCreate_countStep pgdTable taskTrampoline system name entry
      exact ⟨change, change, step, by simp [CountsExit]⟩
  | destroy taskId =>
      obtain rfl := Option.some.inj stepped
      obtain ⟨change, step⟩ := taskDestroy_countStep system taskId
      exact ⟨change, change, step, by simp [CountsExit]⟩
  | taskExitHandler cpu =>
      simp only [TaskSystem.step, Option.ite_none_right_eq_some, Option.some.injEq] at stepped
      obtain ⟨_, rfl⟩ := stepped
      refine ⟨-1, _, ⟨rfl, setState_dead_lived (live_inside _)⟩, ?_⟩
      simp only [CountsExit, TaskSystem.states]
      split <;> simp_all
  | sysExit cpu =>
      simp only [TaskSystem.step, Option.ite_none_right_eq_some, Option.some.injEq] at stepped
      obtain ⟨runs, rfl⟩ := stepped
      obtain ⟨_, smp⟩ := sysExit_smp inside runs
      have numTasks : (system.sysExit cpu).numTasks = system.numTasks := by
        unfold TaskSystem.sysExit
        split <;> rfl
      have lived := setState_dead_lived (live_inside (system.machine.smp.current cpu).toNat)
      rw [← smp] at lived
      refine ⟨0, _, ⟨by simp [TaskSystem.taskCount, numTasks], lived⟩, ?_⟩
      · simp only [CountsExit, TaskSystem.states]
        split <;> simp_all
  | schedule cpu =>
      simp only [TaskSystem.step, Option.ite_none_right_eq_some, Option.some.injEq] at stepped
      obtain ⟨_, rfl⟩ := stepped
      refine still ?_ rfl
      exact (congrArg Smp.holdings (machine_schedule_smp _ _)).trans (schedule_holdings _ _)
  | contextSwitch cpu =>
      obtain ⟨_, _, _, _, _, rfl⟩ := contextSwitch_step stepped
      exact still (save_holdings _ _ _) rfl
  | block cpu =>
      simp only [TaskSystem.step, Option.ite_none_right_eq_some, Option.some.injEq] at stepped
      obtain ⟨_, rfl⟩ := stepped
      exact still (setLive_holdings _ _ (by decide)) rfl
  | wake taskId =>
      obtain rfl := Option.some.inj stepped
      exact still (setLive_holdings _ _ (by decide)) rfl
  | map taskId vaddr paddr flags =>
      obtain ⟨_, _, _, _, _, _, rfl⟩ := map_step stepped
      exact still rfl rfl

/-- The counter equals the number of live tasks in all states of a run exactly when no live
task ends by `SYS_EXIT` and no task returns from its entry once its slot has been destroyed. -/
theorem taskCount_exact_iff {image : KernelImage} (tables : KernelTables image) (mm : Mm)
    (cpus : Nat) (taskTrampoline : Word) (actions : List TaskAction) :
    Transition.EveryState (TaskSystem.step cpus tables.pgdTable taskTrampoline)
        TaskSystem.CountExact (TaskSystem.boot tables mm) actions ↔
      Transition.EveryStep (TaskSystem.step cpus tables.pgdTable taskTrampoline) CountsExit
        (TaskSystem.boot tables mm) actions := by
  have exact_iff : ∀ (system : TaskSystem) action after,
      system.population.Inside ∧ system.CountExact →
      system.step cpus tables.pgdTable taskTrampoline action = some after →
      (after.CountExact ↔ CountsExit system action after) := by
    rintro system action after ⟨inside, exact⟩ stepped
    obtain ⟨counted, lived, step, agree⟩ := step_countStep inside stepped
    exact (step.exact_iff exact).trans agree
  have start : (TaskSystem.boot tables mm).CountExact := by
    simp [TaskSystem.CountExact, TaskSystem.taskCount, TaskSystem.boot, TaskSystem.states,
      Smp.states, liveTasks, Task.zero]
  have keeps : ∀ (system : TaskSystem) action after,
      system.population.Inside ∧ system.CountExact →
      system.step cpus tables.pgdTable taskTrampoline action = some after →
      CountsExit system action after → after.population.Inside ∧ after.CountExact :=
    fun system action after before stepped met =>
      ⟨(step_lifecycle before.1 stepped).inside before.1,
        (exact_iff system action after before stepped).mpr met⟩
  have spoils : ∀ (system : TaskSystem) action after,
      system.population.Inside ∧ system.CountExact →
      system.step cpus tables.pgdTable taskTrampoline action = some after →
      ¬CountsExit system action after → ¬after.CountExact :=
    fun system action after before stepped unmet exact =>
      unmet ((exact_iff system action after before stepped).mp exact)
  exact Transition.everyState_iff_everyStep (fun _ before => before.2) keeps spoils
    ⟨boot_inside tables mm, start⟩ actions

/-- A task that ends by `SYS_EXIT` is still counted. -/
theorem sysExit_still_counted :
    ¬∀ actions, Transition.EveryState oneCpuStep TaskSystem.CountExact
      (TaskSystem.boot smallTables smallMm) actions := by
  intro all
  have miscounted : (Transition.exec oneCpuStep (TaskSystem.boot smallTables smallMm)
      [.create [] 0, .schedule 0, .contextSwitch 0, .sysExit 0]).any (fun system =>
        decide (¬system.CountExact)) = true := by
    decide +kernel
  obtain ⟨system, run, inexact⟩ := (Option.any_eq_true _ _).mp miscounted
  exact of_decide_eq_true inexact ((all _).last run)

end DragoonKernel
