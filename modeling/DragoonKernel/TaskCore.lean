import Mathlib.Logic.Function.Basic

/-! Task states and the lookup of `kernel/task.c`. -/

namespace DragoonKernel

def maxTasks : Nat := 32

inductive TaskState where
  | dead
  | ready
  | running
  | blocked
  deriving DecidableEq

/-- `task_get`: the index of a slot in range that is not dead. -/
def taskGet (states : Nat → TaskState) (taskId : Int) : Option Nat :=
  if taskId < 0 ∨ (maxTasks : Int) ≤ taskId then none
  else if states taskId.toNat = .dead then none
  else some taskId.toNat

theorem taskGet_some {states : Nat → TaskState} {taskId : Int} {task : Nat} :
    taskGet states taskId = some task ↔
      taskId = task ∧ task < maxTasks ∧ states task ≠ .dead := by
  unfold taskGet
  split
  next outside =>
    simp only [reduceCtorEq, false_iff, not_and]
    rintro rfl bound
    omega
  next inside =>
    split
    next dead =>
      simp only [reduceCtorEq, false_iff, not_and, not_not]
      rintro rfl _
      exact dead
    next live =>
      simp only [Option.some.injEq]
      constructor
      · rintro rfl
        exact ⟨by omega, by omega, live⟩
      · rintro ⟨rfl, _, _⟩
        rfl

/-- `if (t) t->state = state` for `t = task_get(taskId)`. -/
def setState (states : Nat → TaskState) (taskId : Int) (state : TaskState) : Nat → TaskState :=
  match taskGet states taskId with
  | some task => Function.update states task state
  | none => states

end DragoonKernel
