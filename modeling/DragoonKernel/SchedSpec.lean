import DragoonKernel.SchedCore

/-! What the critical section of `schedule()` decides and changes. -/

namespace DragoonKernel

theorem findReady_some {states : Nat → TaskState} {start next : Nat} :
    findReady states start = some next ↔
      ∃ offset, 1 ≤ offset ∧ offset ≤ maxTasks ∧ scanSlot start offset = next ∧
        states next = .ready ∧
        ∀ earlier, 1 ≤ earlier → earlier < offset → states (scanSlot start earlier) ≠ .ready := by
  rw [findReady, List.find?_map, Option.map_eq_some_iff]
  constructor
  · rintro ⟨offset, found, rfl⟩
    rw [List.find?_range'_eq_some] at found
    obtain ⟨ready, listed, before⟩ := found
    rw [List.mem_range'_1] at listed
    refine ⟨offset, listed.1, by omega, rfl, by simpa using ready, ?_⟩
    intro earlier lower upper
    simpa using before earlier lower upper
  · rintro ⟨offset, lower, upper, rfl, ready, before⟩
    refine ⟨offset, ?_, rfl⟩
    rw [List.find?_range'_eq_some]
    refine ⟨by simpa using ready, by rw [List.mem_range'_1]; omega, ?_⟩
    intro earlier positive below
    simpa using before earlier positive below

theorem findReady_none {states : Nat → TaskState} {start : Nat} :
    findReady states start = none ↔
      ∀ offset, 1 ≤ offset → offset ≤ maxTasks → states (scanSlot start offset) ≠ .ready := by
  simp only [findReady, List.find?_map, Option.map_eq_none_iff, List.find?_eq_none,
    List.mem_range'_1, Function.comp_apply, decide_eq_true_eq]
  constructor
  · exact fun all offset lower upper => all offset ⟨lower, by omega⟩
  · exact fun all offset inside => all offset inside.1 (by omega)

/-- Every bad ready task comes after a ready task that is not bad in the order of the search. -/
def Shielded (states : Nat → TaskState) (start : Nat) (bad : Nat → Prop) : Prop :=
  ∀ offset, 1 ≤ offset → offset ≤ maxTasks → states (scanSlot start offset) = .ready →
    bad (scanSlot start offset) → ∃ earlier, 1 ≤ earlier ∧ earlier < offset ∧
      states (scanSlot start earlier) = .ready ∧ ¬bad (scanSlot start earlier)

theorem shielded_iff {states : Nat → TaskState} {start : Nat} {bad : Nat → Prop} :
    Shielded states start bad ↔ ∀ next, findReady states start = some next → ¬bad next := by
  constructor
  · intro shielded next found isBad
    obtain ⟨offset, lower, upper, rfl, ready, before⟩ := findReady_some.mp found
    obtain ⟨earlier, positive, below, also, _⟩ := shielded offset lower upper ready isBad
    exact before earlier positive below also
  · intro good offset lower upper ready isBad
    cases found : findReady states start with
    | none => exact absurd ready (findReady_none.mp found offset lower upper)
    | some next =>
        have notBad := good next found
        obtain ⟨first, firstLower, firstUpper, rfl, firstReady, before⟩ := findReady_some.mp found
        have below : first < offset := by
          rcases Nat.lt_trichotomy first offset with below | same | above
          · exact below
          · exact absurd (same ▸ isBad) notBad
          · exact absurd ready (before offset lower above)
        exact ⟨first, firstLower, below, firstReady, notBad⟩

theorem scanSlot_lt (start offset : Nat) : scanSlot start offset < maxTasks :=
  Nat.mod_lt _ (by decide)

theorem findReady_ready {states : Nat → TaskState} {start next : Nat}
    (found : findReady states start = some next) : states next = .ready ∧ next < maxTasks := by
  obtain ⟨offset, _, _, rfl, ready, _⟩ := findReady_some.mp found
  exact ⟨ready, scanSlot_lt start offset⟩

@[simp] theorem setState_percpu (smp : Smp) (task : Nat) (state : TaskState) :
    (smp.setState task state).percpu = smp.percpu := rfl

@[simp] theorem setState_current (smp : Smp) (task cpu : Nat) (state : TaskState) :
    (smp.setState task state).current cpu = smp.current cpu := rfl

@[simp] theorem setState_states (smp : Smp) (task : Nat) (state : TaskState) :
    (smp.setState task state).states = Function.update smp.states task state := by
  funext other
  by_cases here : other = task
  · subst here
    simp [Smp.states, Smp.setState]
  · simp [Smp.states, Smp.setState, here]

@[simp] theorem setCurrent_states (smp : Smp) (cpu : Nat) (taskId : Int) :
    (smp.setCurrent cpu taskId).states = smp.states := rfl

@[simp] theorem setCurrent_tasks (smp : Smp) (cpu : Nat) (taskId : Int) :
    (smp.setCurrent cpu taskId).tasks = smp.tasks := rfl

@[simp] theorem setCurrent_current (smp : Smp) (cpu other : Nat) (taskId : Int) :
    (smp.setCurrent cpu taskId).current other =
      if other = cpu then taskId else smp.current other := by
  by_cases here : other = cpu
  · subst here
    simp [Smp.current, Smp.setCurrent]
  · simp [Smp.current, Smp.setCurrent, here]

@[simp] theorem oldContext_percpu (smp : Smp) (cpu : Nat) :
    (smp.oldContext cpu).1.percpu = smp.percpu := by
  unfold Smp.oldContext
  split
  · split
    · split <;> rfl
    · rfl
  · rfl

theorem oldContext_current (smp : Smp) (cpu other : Nat) :
    (smp.oldContext cpu).1.current other = smp.current other := by
  rw [Smp.current, oldContext_percpu, ← Smp.current]

theorem schedule_cases (smp : Smp) (cpu : Nat) :
    (findReady smp.states (scanStart (smp.current cpu)) = none ∧ smp.current cpu < 0 ∧
      smp.schedule cpu = ((smp.oldContext cpu).1, .stay)) ∨
    (findReady smp.states (scanStart (smp.current cpu)) = none ∧ 0 ≤ smp.current cpu ∧
      smp.schedule cpu = ((smp.oldContext cpu).1.setCurrent cpu (-1),
        .switch (smp.oldContext cpu).2 (.idle cpu) 0)) ∨
    (∃ next, findReady smp.states (scanStart (smp.current cpu)) = some next ∧
      smp.current cpu = (next : Int) ∧
      smp.schedule cpu = ((smp.oldContext cpu).1.setState next .running, .stay)) ∨
    (∃ next, findReady smp.states (scanStart (smp.current cpu)) = some next ∧
      smp.current cpu ≠ (next : Int) ∧
      smp.schedule cpu = (((smp.oldContext cpu).1.setState next .running).setCurrent cpu next,
        .switch (smp.oldContext cpu).2 (.task next)
          (taskTtbr0 ((smp.oldContext cpu).1.tasks next).addressSpace))) := by
  unfold Smp.schedule
  cases found : findReady smp.states (scanStart (smp.current cpu)) with
  | none =>
      by_cases runs : 0 ≤ smp.current cpu
      · refine Or.inr (Or.inl ⟨rfl, runs, ?_⟩)
        simp only [found, runs, if_true]
      · refine Or.inl ⟨rfl, by omega, ?_⟩
        simp only [found, runs, if_false]
  | some next =>
      by_cases same : smp.current cpu = (next : Int)
      · refine Or.inr (Or.inr (Or.inl ⟨next, rfl, same, ?_⟩))
        simp only [found, if_pos same.symm]
      · refine Or.inr (Or.inr (Or.inr ⟨next, rfl, same, ?_⟩))
        simp only [found, if_neg (Ne.symm same)]

theorem oldContext_blocked (smp : Smp) (cpu task : Nat) :
    (smp.oldContext cpu).1.states task = .blocked ↔ smp.states task = .blocked := by
  unfold Smp.oldContext
  split
  · split
    next old _ =>
      split
      next running =>
        by_cases here : task = old
        · subst here
          simp [running]
        · simp [here]
      next => rfl
    next => rfl
  · rfl

/-- `schedule()` blocks no task and takes none that is blocked. -/
theorem schedule_blocked (smp : Smp) (cpu task : Nat) :
    (smp.schedule cpu).1.states task = .blocked ↔ smp.states task = .blocked := by
  have started : ∀ next, findReady smp.states (scanStart (smp.current cpu)) = some next →
      (((smp.oldContext cpu).1.setState next .running).states task = .blocked ↔
        smp.states task = .blocked) := by
    intro next found
    have ready := (findReady_ready found).1
    by_cases here : task = next
    · subst here
      simp [ready]
    · simp [here, oldContext_blocked]
  rcases schedule_cases smp cpu with ⟨_, _, same⟩ | ⟨_, _, same⟩ | ⟨next, found, _, same⟩ |
    ⟨next, found, _, same⟩
  · rw [same, oldContext_blocked]
  · rw [same, setCurrent_states, oldContext_blocked]
  · rw [same]
    exact started next found
  · rw [same, setCurrent_states]
    exact started next found

theorem schedule_current (smp : Smp) (cpu other : Nat) :
    (smp.schedule cpu).1.current other =
      if other = cpu then
        match findReady smp.states (scanStart (smp.current cpu)) with
        | some next => (next : Int)
        | none => if 0 ≤ smp.current cpu then -1 else smp.current cpu
      else smp.current other := by
  rcases schedule_cases smp cpu with ⟨found, idle, same⟩ | ⟨found, runs, same⟩ |
    ⟨next, found, current, same⟩ | ⟨next, found, current, same⟩
  · have stays : ¬0 ≤ smp.current cpu := by omega
    simp only [same, found, oldContext_current, stays, if_false]
    split <;> simp_all
  · simp only [same, found, setCurrent_current, oldContext_current, runs, if_true]
  · simp only [same, found, setState_current, oldContext_current]
    split <;> simp_all
  · simp only [same, found, setCurrent_current, setState_current, oldContext_current]

end DragoonKernel
