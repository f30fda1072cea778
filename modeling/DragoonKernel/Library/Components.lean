import DragoonKernel.Library.Transition
import Mathlib.Logic.Function.Basic

/-!
A system of components with states of their own, each call for one of them. A run of the system
is one run of each component on the calls for it.
-/

namespace Transition

/-- The equation behind `exec_append_iff`. -/
theorem exec_append {State Action : Type*} {step : State → Action → Option State}
    (first second : List Action) (state : State) :
    exec step state (first ++ second) =
      (exec step state first).bind fun middle => exec step middle second := by
  induction first generalizing state with
  | nil => rfl
  | cons action rest ih =>
      simp only [List.cons_append, exec, Option.bind_assoc, ih]

end Transition

namespace Components

universe u v w

variable {Index : Type u} {State : Index → Type v} {Call : Type w} [DecidableEq Index]

/-- A call for one component leaves the others as they are. -/
def stepAt (step : (i : Index) → State i → Call → Option (State i))
    (states : (i : Index) → State i) (event : Index × Call) : Option ((i : Index) → State i) :=
  (step event.1 (states event.1) event.2).map (Function.update states event.1)

variable {step : (i : Index) → State i → Call → Option (State i)}

end Components
