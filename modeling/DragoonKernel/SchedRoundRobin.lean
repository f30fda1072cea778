import DragoonKernel.Library.RoundRobin
import DragoonKernel.SchedSpec

/-! Calls of `schedule()` on one CPU with nothing else that changes task states: the turns of the
tasks. -/

namespace DragoonKernel

def Smp.afterCalls (smp : Smp) (cpu : Nat) : Nat → Smp
  | 0 => smp
  | calls + 1 => ((smp.afterCalls cpu calls).schedule cpu).1

/-- The call of `schedule()` makes the task, which was ready, the running one. -/
structure Smp.Selects (smp : Smp) (cpu task : Nat) : Prop where
  ready : smp.states task = .ready
  running : (smp.schedule cpu).1.states task = .running
  current : (smp.schedule cpu).1.current cpu = task

variable {smp : Smp} {cpu task : Nat}

theorem schedule_states_some {next : Nat}
    (found : findReady smp.states (scanStart (smp.current cpu)) = some next) :
    (smp.schedule cpu).1.states =
      Function.update (smp.oldContext cpu).1.states next .running := by
  rcases schedule_cases smp cpu with ⟨none, _, _⟩ | ⟨none, _, _⟩ | ⟨other, also, _, same⟩ |
    ⟨other, also, _, same⟩
  · rw [found] at none
    cases none
  · rw [found] at none
    cases none
  · obtain rfl := Option.some.inj (found.symm.trans also)
    rw [same, setState_states]
  · obtain rfl := Option.some.inj (found.symm.trans also)
    rw [same, setCurrent_states, setState_states]

theorem schedule_current_some {next : Nat}
    (found : findReady smp.states (scanStart (smp.current cpu)) = some next) :
    (smp.schedule cpu).1.current cpu = next := by
  rw [schedule_current, if_pos rfl, found]

theorem selects_iff :
    smp.Selects cpu task ↔ findReady smp.states (scanStart (smp.current cpu)) = some task := by
  constructor
  · intro selects
    have current := selects.current
    rw [schedule_current, if_pos rfl] at current
    cases found : findReady smp.states (scanStart (smp.current cpu)) with
    | none =>
        simp only [found] at current
        split at current <;> omega
    | some next =>
        simp only [found] at current
        rw [Int.ofNat.inj current]
  · intro found
    refine ⟨(findReady_ready found).1, ?_, schedule_current_some found⟩
    rw [schedule_states_some found, Function.update_self]

theorem oldContext_ready (waits : smp.states task = .ready) :
    (smp.oldContext cpu).1.states task = .ready := by
  unfold Smp.oldContext
  split
  · split
    next old _ =>
      split
      next =>
        by_cases here : task = old
        · subst here
          simp
        · simpa [here] using waits
      next => exact waits
    next => exact waits
  · exact waits

/-- A ready task is passed by a nearer one, and stays ready. -/
theorem schedule_passes {next : Nat}
    (found : findReady smp.states (scanStart (smp.current cpu)) = some next)
    (waits : smp.states task = .ready) (passed : task ≠ next) :
    (smp.schedule cpu).1.states task = .ready := by
  rw [schedule_states_some found, Function.update_of_ne passed, oldContext_ready waits]

theorem scanSlot_distance (start : Nat) {slot : Nat} (inside : slot < maxTasks) :
    scanSlot start (RoundRobin.distance maxTasks start slot) = slot := by
  unfold scanSlot RoundRobin.distance
  split
  · rename_i ahead
    simp only [maxTasks] at inside ahead ⊢
    omega
  · rename_i behind
    simp only [maxTasks] at inside behind ⊢
    omega

theorem distance_scanSlot (start : Nat) {offset : Nat} (positive : 1 ≤ offset)
    (inside : offset ≤ maxTasks) :
    RoundRobin.distance maxTasks start (scanSlot start offset) = offset := by
  unfold scanSlot RoundRobin.distance
  split
  · rename_i ahead
    simp only [maxTasks] at inside ahead ⊢
    omega
  · rename_i behind
    simp only [maxTasks] at inside behind ⊢
    omega

theorem findReady_nearest {states : Nat → TaskState} (start : Nat) {slot : Nat}
    (inside : slot < maxTasks) (waits : states slot = .ready) :
    ∃ next < maxTasks, findReady states start = some next ∧
      RoundRobin.distance maxTasks start next ≤ RoundRobin.distance maxTasks start slot := by
  have lower := RoundRobin.distance_pos start inside
  have upper := RoundRobin.distance_le start inside
  have reached := scanSlot_distance start inside
  cases found : findReady states start with
  | none =>
      refine absurd ?_ (findReady_none.mp found _ lower upper)
      rw [reached]
      exact waits
  | some next =>
      obtain ⟨offset, positive, small, rfl, _, before⟩ := findReady_some.mp found
      refine ⟨_, scanSlot_lt start offset, rfl, ?_⟩
      rw [distance_scanSlot start positive small]
      by_contra farther
      refine before _ lower (Nat.lt_of_not_le farther) ?_
      rw [reached]
      exact waits

theorem scanStart_natCast (task : Nat) : scanStart (task : Int) = task :=
  if_pos (Int.natCast_nonneg task)

theorem afterCalls_turns (smp : Smp) (cpu : Nat) :
    RoundRobin.Turns maxTasks (fun call => scanStart ((smp.afterCalls cpu call).current cpu))
      (fun call task => (smp.afterCalls cpu call).states task = .ready) := by
  have moves : ∀ {call next : Nat}, findReady (smp.afterCalls cpu call).states
        (scanStart ((smp.afterCalls cpu call).current cpu)) = some next →
      scanStart ((smp.afterCalls cpu (call + 1)).current cpu) = next := by
    intro call next found
    rw [Smp.afterCalls, schedule_current_some found, scanStart_natCast]
  constructor
  · intro call task inside waits
    obtain ⟨next, bound, found, nearest⟩ := findReady_nearest
      (scanStart ((smp.afterCalls cpu call).current cpu)) inside waits
    simp only [moves found]
    exact ⟨bound, nearest⟩
  · intro call task inside waits passed
    obtain ⟨next, _, found, _⟩ := findReady_nearest
      (scanStart ((smp.afterCalls cpu call).current cpu)) inside waits
    simp only [moves found] at passed
    exact schedule_passes found waits passed

/-- While a task is ready, the call that moves on to its slot selects it. -/
theorem selects_of_turn {call : Nat} (inside : task < maxTasks)
    (waits : (smp.afterCalls cpu call).states task = .ready)
    (turn : scanStart ((smp.afterCalls cpu (call + 1)).current cpu) = task) :
    (smp.afterCalls cpu call).Selects cpu task := by
  obtain ⟨next, _, found, _⟩ := findReady_nearest
    (scanStart ((smp.afterCalls cpu call).current cpu)) inside waits
  rw [Smp.afterCalls, schedule_current_some found, scanStart_natCast] at turn
  exact selects_iff.mpr (turn ▸ found)

theorem turn_of_selects {call : Nat} (selects : (smp.afterCalls cpu call).Selects cpu task) :
    scanStart ((smp.afterCalls cpu (call + 1)).current cpu) = task := by
  rw [Smp.afterCalls, selects.current, scanStart_natCast]

/-- A ready task is made running by one of the next `maxTasks` calls, and between two of its
selections every other task that is ready after the first is selected. -/
theorem schedule_roundRobin (smp : Smp) (cpu task : Nat) (inside : task < maxTasks) :
    (smp.states task = .ready →
      ∃ call < maxTasks, (smp.afterCalls cpu call).Selects cpu task) ∧
    ∀ first second other, first < second → other < maxTasks → other ≠ task →
      (smp.afterCalls cpu first).Selects cpu task →
      (smp.afterCalls cpu second).Selects cpu task →
      (smp.afterCalls cpu (first + 1)).states other = .ready →
      ∃ call, first < call ∧ call < second ∧ (smp.afterCalls cpu call).Selects cpu other := by
  have turns := afterCalls_turns smp cpu
  constructor
  · intro waits
    obtain ⟨call, _, soon, ready, turn⟩ := turns.bounded inside 0 waits
    exact ⟨call, by omega, selects_of_turn inside ready turn⟩
  · intro first second other earlier otherInside different opens closes waits
    obtain ⟨call, after, before, ready, turn⟩ := turns.between inside otherInside different earlier
      (turn_of_selects opens) (turn_of_selects closes) waits
    exact ⟨call, after, before, selects_of_turn otherInside ready turn⟩

/-- Task 0 runs and task 5 is ready. -/
def runningAndReady : Smp where
  tasks := fun task =>
    { Task.zero with state := if task = 0 then .running else if task = 5 then .ready else .dead }
  percpu := fun _ => Percpu.running 0

theorem schedule_roundRobin_ready :
    ∃ call < maxTasks, (runningAndReady.afterCalls 0 call).Selects 0 5 :=
  (schedule_roundRobin runningAndReady 0 5 (by decide)).1 rfl

end DragoonKernel
