import Mathlib.Data.List.Basic

/-!
Finite runs of a partial step function on states, labelled by actions. The rules
carry a property of one step to every state of a run, either for all actions or
under a guard on the state before each step.
-/

namespace Transition

universe u v

variable {State : Type u} {Action : Type v}

/-- Performs the actions in order, and fails at the first one that is not enabled. -/
def exec (step : State → Action → Option State) : State → List Action → Option State
  | state, [] => some state
  | state, action :: rest => (step state action).bind fun next => exec step next rest

/-- Every transition that the run performs satisfies `holds`. -/
def EveryStep (step : State → Action → Option State) (holds : State → Action → State → Prop) :
    State → List Action → Prop
  | _, [] => True
  | state, action :: rest => ∀ next, step state action = some next →
      holds state action next ∧ EveryStep step holds next rest

/-- Every state that the run reaches, the first one included, satisfies `good`. -/
def EveryState (step : State → Action → Option State) (good : State → Prop) :
    State → List Action → Prop
  | state, [] => good state
  | state, action :: rest => good state ∧ ∀ next, step state action = some next →
      EveryState step good next rest

/-- No action of the run fails, and every state that it reaches satisfies `good`. -/
def RunsThrough (step : State → Action → Option State) (good : State → Prop) :
    State → List Action → Prop
  | state, [] => good state
  | state, action :: rest => good state ∧ ∃ next, step state action = some next ∧
      RunsThrough step good next rest

variable {step : State → Action → Option State}

@[simp] theorem exec_nil (state : State) : exec step state [] = some state := rfl

theorem exec_cons_iff {state final : State} {action : Action} {rest : List Action} :
    exec step state (action :: rest) = some final ↔
      ∃ next, step state action = some next ∧ exec step next rest = some final := by
  simp [exec, Option.bind_eq_some_iff]

theorem exec_append_iff {state final : State} {first second : List Action} :
    exec step state (first ++ second) = some final ↔
      ∃ middle, exec step state first = some middle ∧ exec step middle second = some final := by
  induction first generalizing state with
  | nil => simp [exec]
  | cons action rest ih =>
      simp only [List.cons_append, exec_cons_iff, ih]
      constructor
      · rintro ⟨next, stepped, middle, before, after⟩
        exact ⟨middle, ⟨next, stepped, before⟩, after⟩
      · rintro ⟨middle, ⟨next, stepped, before⟩, after⟩
        exact ⟨next, stepped, middle, before, after⟩

theorem EveryState.head {good : State → Prop} {state : State} {actions : List Action}
    (all : EveryState step good state actions) : good state := by
  cases actions with
  | nil => exact all
  | cons action rest => exact all.1

theorem RunsThrough.head {good : State → Prop} {state : State} {actions : List Action}
    (all : RunsThrough step good state actions) : good state := by
  cases actions with
  | nil => exact all
  | cons action rest => exact all.1

theorem EveryState.last {good : State → Prop} {state final : State} {actions : List Action}
    (all : EveryState step good state actions) (run : exec step state actions = some final) :
    good final := by
  induction actions generalizing state with
  | nil =>
      simp only [exec_nil, Option.some.injEq] at run
      exact run ▸ all
  | cons action rest ih =>
      obtain ⟨next, stepped, tail⟩ := exec_cons_iff.mp run
      exact ih (all.2 next stepped) tail

theorem EveryState.mono {good better : State → Prop} (weaken : ∀ state, better state → good state)
    {state : State} {actions : List Action} (all : EveryState step better state actions) :
    EveryState step good state actions := by
  induction actions generalizing state with
  | nil => exact weaken state all
  | cons action rest ih =>
      exact ⟨weaken state all.1, fun next stepped => ih (all.2 next stepped)⟩

theorem EveryStep.mono {holds better : State → Action → State → Prop}
    (weaken : ∀ state action next, better state action next → holds state action next)
    {state : State} {actions : List Action} (all : EveryStep step better state actions) :
    EveryStep step holds state actions := by
  induction actions generalizing state with
  | nil => trivial
  | cons action rest ih =>
      intro next stepped
      obtain ⟨here, later⟩ := all next stepped
      exact ⟨weaken state action next here, ih later⟩

theorem EveryState.everyStep {good : State → Prop} {state : State} {actions : List Action}
    (all : EveryState step good state actions) :
    EveryStep step (fun _ _ next => good next) state actions := by
  induction actions generalizing state with
  | nil => trivial
  | cons action rest ih =>
      intro next stepped
      have later := all.2 next stepped
      exact ⟨later.head, ih later⟩

theorem everyStep_append_iff {holds : State → Action → State → Prop} {state : State}
    {first second : List Action} :
    EveryStep step holds state (first ++ second) ↔ EveryStep step holds state first ∧
      ∀ middle, exec step state first = some middle → EveryStep step holds middle second := by
  induction first generalizing state with
  | nil => simp [EveryStep]
  | cons action rest ih =>
      simp only [List.cons_append, EveryStep, ih, exec_cons_iff]
      constructor
      · intro all
        refine ⟨fun next stepped => ⟨(all next stepped).1, (all next stepped).2.1⟩, ?_⟩
        rintro middle ⟨next, stepped, run⟩
        exact (all next stepped).2.2 middle run
      · rintro ⟨before, after⟩ next stepped
        exact ⟨(before next stepped).1, (before next stepped).2,
          fun middle run => after middle ⟨next, stepped, run⟩⟩

theorem EveryStep.snoc {holds : State → Action → State → Prop} {state middle next : State}
    {actions : List Action} {action : Action}
    (all : EveryStep step holds state (actions ++ [action]))
    (run : exec step state actions = some middle) (stepped : step middle action = some next) :
    holds middle action next :=
  ((everyStep_append_iff.mp all).2 middle run next stepped).1

/-- A guarded invariant holds in every state of a run whose steps all meet the guard. -/
theorem everyState_of_guard {invariant : State → Prop} {guard : State → Action → State → Prop}
    (keeps : ∀ state action next, invariant state → step state action = some next →
      guard state action next → invariant next)
    {state : State} (start : invariant state) {actions : List Action}
    (guarded : EveryStep step guard state actions) : EveryState step invariant state actions := by
  induction actions generalizing state with
  | nil => exact start
  | cons action rest ih =>
      refine ⟨start, fun next stepped => ?_⟩
      obtain ⟨here, later⟩ := guarded next stepped
      exact ih (keeps state action next start stepped here) later

theorem everyStep_trivial (state : State) (actions : List Action) :
    EveryStep step (fun _ _ _ => True) state actions := by
  induction actions generalizing state with
  | nil => trivial
  | cons action rest ih => exact fun next _ => ⟨trivial, ih next⟩

theorem everyState_of_invariant {invariant : State → Prop}
    (keeps : ∀ state action next, invariant state → step state action = some next →
      invariant next)
    {state : State} (start : invariant state) (actions : List Action) :
    EveryState step invariant state actions :=
  everyState_of_guard
    (fun state action next before stepped (_ : True) => keeps state action next before stepped)
    start (everyStep_trivial state actions)

theorem runsThrough_of_invariant {invariant good : State → Prop}
    (sound : ∀ state, invariant state → good state)
    (keeps : ∀ state action, invariant state →
      ∃ next, step state action = some next ∧ invariant next)
    {state : State} (start : invariant state) (actions : List Action) :
    RunsThrough step good state actions := by
  induction actions generalizing state with
  | nil => exact sound state start
  | cons action rest ih =>
      obtain ⟨next, stepped, after⟩ := keeps state action start
      exact ⟨sound state start, next, stepped, ih after⟩

theorem exec_invariant {invariant : State → Prop}
    (keeps : ∀ state action next, invariant state → step state action = some next →
      invariant next)
    {state final : State} (start : invariant state) {actions : List Action}
    (run : exec step state actions = some final) : invariant final :=
  (everyState_of_invariant keeps start actions).last run

theorem everyStep_of_guard {invariant : State → Prop}
    {guard holds : State → Action → State → Prop}
    (keeps : ∀ state action next, invariant state → step state action = some next →
      guard state action next → invariant next ∧ holds state action next)
    {state : State} (start : invariant state) {actions : List Action}
    (guarded : EveryStep step guard state actions) : EveryStep step holds state actions := by
  induction actions generalizing state with
  | nil => trivial
  | cons action rest ih =>
      intro next stepped
      obtain ⟨here, later⟩ := guarded next stepped
      obtain ⟨after, result⟩ := keeps state action next start stepped here
      exact ⟨result, ih after later⟩

theorem everyStep_of_invariant {invariant : State → Prop} {holds : State → Action → State → Prop}
    (keeps : ∀ state action next, invariant state → step state action = some next →
      invariant next ∧ holds state action next)
    {state : State} (start : invariant state) (actions : List Action) :
    EveryStep step holds state actions :=
  everyStep_of_guard
    (fun state action next before stepped (_ : True) => keeps state action next before stepped)
    start (everyStep_trivial state actions)

/-- When a step keeps the invariant under the guard and spoils `good` or `holds` without it,
the guard is exactly the condition under which all states of a run are good and all of its
steps are as they should be. -/
theorem everyState_and_everyStep_iff {invariant good : State → Prop}
    {guard holds : State → Action → State → Prop}
    (sound : ∀ state, invariant state → good state)
    (keeps : ∀ state action next, invariant state → step state action = some next →
      guard state action next → invariant next ∧ holds state action next)
    (spoils : ∀ state action next, invariant state → step state action = some next →
      ¬guard state action next → good next → ¬holds state action next)
    {state : State} (start : invariant state) (actions : List Action) :
    (EveryState step good state actions ∧ EveryStep step holds state actions) ↔
      EveryStep step guard state actions := by
  constructor
  · rintro ⟨states, steps⟩
    induction actions generalizing state with
    | nil => trivial
    | cons action rest ih =>
        intro next stepped
        have later := states.2 next stepped
        obtain ⟨result, tail⟩ := steps next stepped
        have here : guard state action next := by
          by_contra unmet
          exact spoils state action next start stepped unmet later.head result
        exact ⟨here, ih (keeps state action next start stepped here).1 later tail⟩
  · intro guarded
    have kept := everyState_of_guard
      (fun state action next before stepped met =>
        (keeps state action next before stepped met).1) start guarded
    exact ⟨kept.mono sound, everyStep_of_guard keeps start guarded⟩

theorem everyState_iff_everyStep {invariant good : State → Prop}
    {guard : State → Action → State → Prop}
    (sound : ∀ state, invariant state → good state)
    (keeps : ∀ state action next, invariant state → step state action = some next →
      guard state action next → invariant next)
    (spoils : ∀ state action next, invariant state → step state action = some next →
      ¬guard state action next → ¬good next)
    {state : State} (start : invariant state) (actions : List Action) :
    EveryState step good state actions ↔ EveryStep step guard state actions := by
  have both := everyState_and_everyStep_iff sound
    (fun state action next before stepped met =>
      ⟨keeps state action next before stepped met, trivial⟩)
    (fun state action next before stepped unmet good (_ : True) =>
      spoils state action next before stepped unmet good) start actions
  exact (and_iff_left (everyStep_trivial state actions)).symm.trans both

theorem everyStep_iff_everyStep {invariant : State → Prop}
    {guard holds : State → Action → State → Prop}
    (keeps : ∀ state action next, invariant state → step state action = some next →
      guard state action next → invariant next ∧ holds state action next)
    (spoils : ∀ state action next, invariant state → step state action = some next →
      ¬guard state action next → ¬holds state action next)
    {state : State} (start : invariant state) (actions : List Action) :
    EveryStep step holds state actions ↔ EveryStep step guard state actions := by
  have both := everyState_and_everyStep_iff (fun _ _ => trivial) keeps
    (fun state action next before stepped unmet (_ : True) =>
      spoils state action next before stepped unmet) start actions
  have always : EveryState step (fun _ => True) state actions :=
    everyState_of_invariant (fun _ _ _ _ _ => trivial) trivial actions
  exact (and_iff_right always).symm.trans both

/-- Along a run whose steps keep a promise, where the guard keeps the invariant and is the
condition for each step to be as it should be. -/
theorem everyStep_iff_of_promise {invariant : State → Prop}
    {promise guard holds : State → Action → State → Prop}
    (sharp : ∀ state action next, invariant state → step state action = some next →
      promise state action next → (holds state action next ↔ guard state action next) ∧
        (guard state action next → invariant next))
    {state : State} (start : invariant state) {actions : List Action}
    (promised : EveryStep step promise state actions) :
    EveryStep step holds state actions ↔ EveryStep step guard state actions := by
  induction actions generalizing state with
  | nil => exact Iff.rfl
  | cons action rest ih =>
      refine forall₂_congr fun next stepped => ?_
      obtain ⟨kept, later⟩ := promised next stepped
      obtain ⟨here, keeps⟩ := sharp state action next start stepped kept
      rw [here]
      exact and_congr_right fun met => ih (keeps met) later

/-- Runs the actions and checks each state before the step that follows it. -/
def checkSteps (step : State → Action → Option State) (check : State → Action → Bool) :
    State → List Action → Bool
  | _, [] => true
  | state, action :: rest =>
      match step state action with
      | some next => check state action && checkSteps step check next rest
      | none => true

theorem checkSteps_iff {check : State → Action → Bool} {state : State} {actions : List Action} :
    checkSteps step check state actions = true ↔
      EveryStep step (fun before action _ => check before action = true) state actions := by
  induction actions generalizing state with
  | nil => simp [checkSteps, EveryStep]
  | cons action rest ih =>
      rw [checkSteps, EveryStep]
      cases step state action with
      | none => simp
      | some next => simp [ih]

/-- An action that gets done or lowers a measure gets done after so many repetitions. -/
theorem exec_replicate_of_measure {invariant done : State → Prop} {measure : State → Nat}
    {action : Action}
    (advances : ∀ state, invariant state → ∃ next, step state action = some next ∧
      (done next ∨ invariant next ∧ measure next < measure state))
    {state : State} (start : invariant state) :
    ∃ count ≤ measure state, ∃ final,
      exec step state (List.replicate (count + 1) action) = some final ∧ done final := by
  induction size : measure state using Nat.strongRecOn generalizing state with
  | ind size ih =>
      obtain ⟨next, stepped, finished | ⟨kept, lower⟩⟩ := advances state start
      · exact ⟨0, Nat.zero_le _, next, exec_cons_iff.mpr ⟨next, stepped, rfl⟩, finished⟩
      · obtain ⟨count, bound, final, run, finished⟩ := ih _ (size ▸ lower) kept rfl
        refine ⟨count + 1, by omega, final, ?_, finished⟩
        exact exec_cons_iff.mpr ⟨next, stepped, run⟩

/-- Two systems whose steps are related from related states have related runs, and one
of them gets stuck only where the other does. -/
theorem exec_related {Abstract : Type u} {abstractStep : Abstract → Action → Option Abstract}
    {related : State → Abstract → Prop}
    (simulates : ∀ state abstract action, related state abstract →
      Option.Rel related (step state action) (abstractStep abstract action))
    {state : State} {abstract : Abstract} (start : related state abstract)
    (actions : List Action) :
    Option.Rel related (exec step state actions) (exec abstractStep abstract actions) := by
  induction actions generalizing state abstract with
  | nil => exact .some start
  | cons action rest ih =>
      have here := simulates state abstract action start
      simp only [exec]
      cases stepped : step state action <;> cases moved : abstractStep abstract action <;>
        rw [stepped, moved] at here
      · exact .none
      · cases here
      · cases here
      · cases here with
        | some both => exact ih both

end Transition
