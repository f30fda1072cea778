import DragoonKernel.VirtioKbd
import DragoonKernel.VirtioTabletCore

/-!
Each reading of the mouse is where the events that the tablet has delivered so far lead, and a
point of the screen. All points can be reached.
-/

namespace DragoonKernel

structure Mouse.OnScreen (mouse : Mouse) : Prop where
  left : 0 ≤ mouse.x
  right : mouse.x < fbWidth
  top : 0 ≤ mouse.y
  bottom : mouse.y < fbHeight
  btns : mouse.btns &&& ~~~(mouseBtnLeft ||| mouseBtnRight) = 0

/-- The values that the tablet reports on an axis. -/
structure TabletValue (value : BitVec 32) : Prop where
  least : 0 ≤ value.toInt
  most : value.toInt ≤ tabletAbsMax

/-- The mouse after one event for each axis. -/
def Mouse.pointed (mouse : Mouse) (column row : BitVec 32) : Mouse :=
  processTabletEvent (processTabletEvent mouse ⟨evAbs, absX, column⟩) ⟨evAbs, absY, row⟩

/-- The mouse after the events. -/
def mouseAfter (events : List VirtioInputEvent) : Mouse :=
  events.foldl processTabletEvent mouseStart

/-- `mouse_get_state` drains the queue of the tablet. -/
def MouseSystem.polls (system : MouseSystem) : Bool := system.available && system.active

/-- The step that returns from `mouse_get_state`. Without a device to poll it is the whole call. -/
def MouseSystem.EndsCall (system : MouseSystem) (action : InputAction) (after : MouseSystem) :
    Prop :=
  if system.polls then system.input.EndsDrain after.input else action = .drainEvents

/-- The rest of the call that is running, or the next call when none is, with `count` steps of the
driver before the one that returns. -/
def MouseSystem.rest (system : MouseSystem) (count : Nat) : List InputAction :=
  if system.polls then system.input.phase.call ++ List.replicate (count + 1) .driver
  else [.drainEvents]

/-- The call has returned with nothing done by the device. Only `refill_event_queue` returns no
sample. -/
structure MouseSystem.Returned (before after : MouseSystem) : Prop where
  outside : before.polls = true → after.input.phase = .outside
  delivered : after.input.delivered = before.input.delivered
  refilled : before.polls = true → before.input.phase.refills = true →
    after.samples = before.samples
  sampled : (before.polls = true → before.input.phase.refills = false) →
    ∃ sample, after.samples = before.samples ++ [sample]

/-- The mouse has followed all events that have been handled, and the next call returns. -/
structure MouseSystem.Follows (bufs : Word) (system : MouseSystem) : Prop where
  mouse : system.mouse = mouseAfter system.input.handled
  onScreen : ∀ sample ∈ system.samples, sample.OnScreen
  returns : ∃ count ≤ system.input.stepsLeft, ∃ final,
    Transition.exec (MouseSystem.step bufs) system (system.rest count) = some final ∧
      system.Returned final

structure MouseSystem.OnScreen (system : MouseSystem) : Prop where
  mouse : system.mouse.OnScreen
  samples : ∀ sample ∈ system.samples, sample.OnScreen

/-- A device that the driver does not poll never gets a buffer to write to. -/
structure MouseSystem.Sound (num : Nat) (bufs : Word) (system : MouseSystem) : Prop where
  input : system.input.Sound num bufs
  mouse : system.mouse = mouseAfter system.input.handled
  onScreen : system.OnScreen
  unpolled : system.polls = false → system.input.handled = [] ∧ system.input.delivered = []

/-- The end of a call of `mouse_get_state` returns where all events delivered so far lead. No other
step returns a sample. -/
structure MouseSystem.StepSamples (system : MouseSystem) (action : InputAction)
    (after : MouseSystem) : Prop where
  sampled : system.EndsCall action after → ∃ sample, after.samples = system.samples ++ [sample] ∧
    if system.available then ∃ events, sample = mouseAfter events ∧
      events.map some = passedEvents after.input.delivered
    else sample = ⟨0, 0, 0⟩
  quiet : ¬system.EndsCall action after → after.samples = system.samples

section Places

variable {size : Int}

theorem absolutePlace_eq (positive : 0 < size) (value : BitVec 32) :
    absolutePlace size value = max 0 (min tabletAbsMax value.toInt) * (size - 1) / tabletAbsMax := by
  have clamped : (if (if value.toInt < 0 then 0 else value.toInt) > tabletAbsMax then tabletAbsMax
      else if value.toInt < 0 then 0 else value.toInt) = max 0 (min tabletAbsMax value.toInt) := by
    rw [tabletAbsMax]
    split <;> split <;> omega
  rw [absolutePlace, clamped]
  exact Int.tdiv_eq_ediv_of_nonneg (Int.mul_nonneg (by omega) (by omega))

theorem absolutePlace_within (size : Int) (positive : 0 < size) (value : BitVec 32) :
    0 ≤ absolutePlace size value ∧ absolutePlace size value < size := by
  rw [absolutePlace_eq positive]
  have least : 0 ≤ max 0 (min tabletAbsMax value.toInt) := by omega
  have most : max 0 (min tabletAbsMax value.toInt) ≤ tabletAbsMax := by rw [tabletAbsMax]; omega
  have range : 0 < tabletAbsMax := by decide
  refine ⟨Int.ediv_nonneg (Int.mul_nonneg least (by omega)) range.le,
    Int.ediv_lt_of_lt_mul range ?_⟩
  calc max 0 (min tabletAbsMax value.toInt) * (size - 1)
      ≤ tabletAbsMax * (size - 1) := Int.mul_le_mul_of_nonneg_right most (by omega)
    _ < tabletAbsMax * size := Int.mul_lt_mul_of_pos_left (by omega) range
    _ = size * tabletAbsMax := Int.mul_comm ..

/-- Every pixel of an axis is the place of a value that the tablet reports. -/
theorem absolutePlace_onto (most : size ≤ tabletAbsMax + 1) {place : Int} (least : 0 ≤ place)
    (inside : place < size) :
    ∃ value, TabletValue value ∧ absolutePlace size value = place := by
  rcases Int.lt_or_le 1 size with wide | narrow
  · have gap : 0 < size - 1 := by omega
    obtain ⟨k, least_k⟩ : ∃ k, k = (place * tabletAbsMax + (size - 1) - 1) / (size - 1) := ⟨_, rfl⟩
    have below := Int.ediv_mul_le (place * tabletAbsMax + (size - 1) - 1) gap.ne'
    have above := Int.lt_ediv_add_one_mul_self (place * tabletAbsMax + (size - 1) - 1) gap
    rw [← least_k] at below above
    rw [Int.add_mul, Int.one_mul] at above
    have scaled : place * tabletAbsMax ≤ (size - 1) * tabletAbsMax :=
      Int.mul_le_mul_of_nonneg_right (by omega) (by decide)
    have zero : 0 ≤ place * tabletAbsMax := Int.mul_nonneg least (by decide)
    have first : 0 ≤ k := by
      by_contra negative
      have product : k * (size - 1) ≤ -1 * (size - 1) :=
        Int.mul_le_mul_of_nonneg_right (by omega) gap.le
      omega
    have last : k ≤ tabletAbsMax := by
      by_contra beyond
      have product : (tabletAbsMax + 1) * (size - 1) ≤ k * (size - 1) :=
        Int.mul_le_mul_of_nonneg_right (by omega) gap.le
      rw [Int.add_mul, Int.one_mul, Int.mul_comm tabletAbsMax] at product
      omega
    have value : (BitVec.ofInt 32 k).toInt = k := by
      rw [tabletAbsMax] at last
      rw [BitVec.toInt_ofInt]
      exact Int.bmod_eq_of_le (by omega) (by omega)
    refine ⟨BitVec.ofInt 32 k, ⟨by rw [value]; exact first, by rw [value]; exact last⟩, ?_⟩
    rw [absolutePlace_eq (by omega), value, min_eq_right last, max_eq_right first,
      Int.ediv_eq_iff_of_pos (by decide)]
    omega
  · refine ⟨0, ⟨by decide, by decide⟩, ?_⟩
    have single := absolutePlace_within size (by omega) 0
    omega

theorem relativePlace_within (size : Int) (positive : 0 < size) (place : Int) (value : BitVec 32) :
    0 ≤ relativePlace size place value ∧ relativePlace size place value < size := by
  simp only [relativePlace]
  split <;> split <;> omega

/-- Each point of the screen is where two events of the tablet lead. -/
theorem pointed_onto {x y : Int} (left : 0 ≤ x) (right : x < fbWidth) (top : 0 ≤ y)
    (bottom : y < fbHeight) : ∃ column row, TabletValue column ∧ TabletValue row ∧
      ∀ mouse : Mouse, mouse.pointed column row = ⟨x, y, mouse.btns⟩ := by
  obtain ⟨column, reported, places⟩ := absolutePlace_onto (by decide) left right
  obtain ⟨row, alsoReported, alsoPlaces⟩ := absolutePlace_onto (by decide) top bottom
  refine ⟨column, row, reported, alsoReported, fun mouse => ?_⟩
  rw [← places, ← alsoPlaces]
  rfl

end Places

section Events

variable {mouse : Mouse}

theorem Mouse.OnScreen.absolute (onScreen : mouse.OnScreen) (ev : VirtioInputEvent) :
    (mouse.absolute ev).OnScreen := by
  have column := absolutePlace_within fbWidth (by decide) ev.value
  have row := absolutePlace_within fbHeight (by decide) ev.value
  unfold Mouse.absolute
  split
  · exact ⟨column.1, column.2, onScreen.top, onScreen.bottom, onScreen.btns⟩
  · split
    · exact ⟨onScreen.left, onScreen.right, row.1, row.2, onScreen.btns⟩
    · exact onScreen

theorem Mouse.OnScreen.relative (onScreen : mouse.OnScreen) (ev : VirtioInputEvent) :
    (mouse.relative ev).OnScreen := by
  have column := relativePlace_within fbWidth (by decide) mouse.x ev.value
  have row := relativePlace_within fbHeight (by decide) mouse.y ev.value
  unfold Mouse.relative
  split
  · exact ⟨column.1, column.2, onScreen.top, onScreen.bottom, onScreen.btns⟩
  · split
    · exact ⟨onScreen.left, onScreen.right, row.1, row.2, onScreen.btns⟩
    · exact onScreen

/-- A button event sets or clears one of the two bits. -/
theorem Mouse.OnScreen.button (onScreen : mouse.OnScreen) (ev : VirtioInputEvent) :
    (mouse.button ev).OnScreen := by
  have pressed (bit : BitVec 32) (known : bit &&& ~~~(mouseBtnLeft ||| mouseBtnRight) = 0) :
      (mouse.btns ||| bit) &&& ~~~(mouseBtnLeft ||| mouseBtnRight) = 0 := by
    have before := onScreen.btns
    rw [BitVec.and_comm, BitVec.and_or_distrib_left, BitVec.and_comm, before, BitVec.and_comm,
      known]
    decide
  have released (bit : BitVec 32) :
      (mouse.btns &&& ~~~bit) &&& ~~~(mouseBtnLeft ||| mouseBtnRight) = 0 := by
    have before := onScreen.btns
    rw [BitVec.and_assoc, BitVec.and_comm (~~~bit), ← BitVec.and_assoc, before]
    exact BitVec.zero_and
  have known : (if ev.code = btnRight then mouseBtnRight
      else if ev.code = btnLeft then mouseBtnLeft else 0) &&&
      ~~~(mouseBtnLeft ||| mouseBtnRight) = 0 := by
    split
    · decide
    · split <;> decide
  simp only [Mouse.button]
  generalize (if ev.code = btnRight then mouseBtnRight
    else if ev.code = btnLeft then mouseBtnLeft else 0) = bit at known ⊢
  split
  · split
    · exact ⟨onScreen.left, onScreen.right, onScreen.top, onScreen.bottom, pressed bit known⟩
    · exact ⟨onScreen.left, onScreen.right, onScreen.top, onScreen.bottom, released bit⟩
  · exact onScreen

theorem Mouse.OnScreen.process (onScreen : mouse.OnScreen) (ev : VirtioInputEvent) :
    (processTabletEvent mouse ev).OnScreen := by
  unfold processTabletEvent
  split
  · exact onScreen
  · have moved : (if ev.type = evAbs then mouse.absolute ev else mouse).OnScreen := by
      split
      · exact onScreen.absolute ev
      · exact onScreen
    have shifted : (if ev.type = evRel then
        (if ev.type = evAbs then mouse.absolute ev else mouse).relative ev
        else if ev.type = evAbs then mouse.absolute ev else mouse).OnScreen := by
      split
      · exact moved.relative ev
      · exact moved
    dsimp only
    split
    · exact shifted.button ev
    · exact shifted

theorem mouseAfter_snoc (events : List VirtioInputEvent) (ev : VirtioInputEvent) :
    mouseAfter (events ++ [ev]) = processTabletEvent (mouseAfter events) ev := by
  rw [mouseAfter, List.foldl_append]
  rfl

end Events

section Runs

variable {num : Nat} {bufs : Word} {system : MouseSystem} {input : InputSystem}

theorem MouseSystem.OnScreen.append {sample : Mouse} (onScreen : system.OnScreen)
    (inside : sample.OnScreen) :
    MouseSystem.OnScreen { system with samples := system.samples ++ [sample] } where
  mouse := onScreen.mouse
  samples other listed := by
    rcases List.mem_append.mp listed with before | last
    · exact onScreen.samples other before
    · rw [List.mem_singleton.mp last]
      exact inside

theorem MouseSystem.OnScreen.sample (onScreen : system.OnScreen) : system.sample.OnScreen :=
  onScreen.append onScreen.mouse

theorem MouseSystem.OnScreen.follow {action : InputAction} (onScreen : system.OnScreen) :
    MouseSystem.OnScreen { system.follow bufs action input with input := input } := by
  have kept : (system.follow bufs action input).OnScreen := by
    unfold MouseSystem.follow
    split
    · split
      · exact ⟨onScreen.mouse.process _, onScreen.samples⟩
      · exact onScreen
    · split
      · exact onScreen.sample
      · exact onScreen
    · split
      · exact onScreen.sample
      · exact onScreen
    · exact onScreen
  exact ⟨kept.mouse, kept.samples⟩

theorem MouseSystem.OnScreen.step {action : InputAction} {after : MouseSystem}
    (onScreen : system.OnScreen) (stepped : system.step bufs action = some after) :
    after.OnScreen := by
  unfold MouseSystem.step at stepped
  split at stepped
  next =>
    obtain rfl := Option.some.inj stepped
    exact onScreen.append ⟨by decide, by decide, by decide, by decide, by decide⟩
  next => cases stepped
  next =>
    obtain rfl := Option.some.inj stepped
    exact onScreen.sample
  next => cases stepped
  next =>
    obtain ⟨input, _, rfl⟩ := Option.map_eq_some_iff.mp stepped
    exact onScreen.follow

theorem mouseBoot_onScreen (input : InputSystem) (available active : Bool) :
    (MouseSystem.boot input available active).OnScreen := by
  have start : mouseStart.OnScreen := ⟨by decide, by decide, by decide, by decide, by decide⟩
  exact ⟨start, fun sample listed => absurd listed List.not_mem_nil⟩

theorem polls_iff : system.polls = true ↔ system.available = true ∧ system.active = true :=
  Bool.and_eq_true_iff

theorem endsCall_iff {action : InputAction} {after : MouseSystem} (polls : system.polls = true) :
    system.EndsCall action after ↔ system.input.EndsDrain after.input := by
  rw [MouseSystem.EndsCall, if_pos polls]

/-- A call that polls nothing is one step. -/
theorem MouseSystem.StepSamples.of_unpolled {after : MouseSystem} {sample : Mouse}
    (unpolled : system.polls = false) (samples : after.samples = system.samples ++ [sample])
    (leads : if system.available then ∃ events, sample = mouseAfter events ∧
      events.map some = passedEvents after.input.delivered else sample = ⟨0, 0, 0⟩) :
    system.StepSamples .drainEvents after := by
  refine ⟨fun _ => ⟨sample, samples, leads⟩, fun quiet => absurd ?_ quiet⟩
  rw [MouseSystem.EndsCall, unpolled]
  rfl

/-- The end of a poll finds that every event has been handled. -/
theorem MouseSystem.finish_samples {action : InputAction} (polls : system.polls = true)
    (drains : system.input.phase.drains = true)
    (mouse : system.mouse = mouseAfter input.handled)
    (drained : system.input.EndsDrain input →
      input.handled.map some = passedEvents input.delivered) :
    (if input.phase = .outside then system.sample else system).mouse = mouseAfter input.handled ∧
      system.StepSamples action { (if input.phase = .outside then system.sample else system) with
        input := input } := by
  split
  next outside =>
    refine ⟨mouse, fun _ => ⟨system.mouse, rfl, ?_⟩, fun quiet => absurd ?_ quiet⟩
    · rw [if_pos (polls_iff.mp polls).1]
      exact ⟨input.handled, mouse, drained ⟨drains, outside⟩⟩
    · exact (endsCall_iff polls).mpr ⟨drains, outside⟩
  next inside =>
    have quiet (ends : system.EndsCall action { system with input := input }) : False :=
      inside ((endsCall_iff polls).mp ends).2
    exact ⟨mouse, fun ends => absurd ends quiet, fun _ => rfl⟩

/-- The mouse moves with the event that its step hands over. -/
theorem MouseSystem.follow_samples {action : InputAction} (polls : system.polls = true)
    (mouse : system.mouse = mouseAfter system.input.handled)
    (moved : system.input.step bufs action = some input)
    (processes : system.input.StepProcesses action input) :
    (system.follow bufs action input).mouse = mouseAfter input.handled ∧
      system.StepSamples action { system.follow bufs action input with input := input } := by
  unfold MouseSystem.follow
  split
  next elem popped =>
    have called : system.input.driver bufs = some input := moved
    simp only [InputSystem.driver, popped, Option.some.injEq] at called
    have quiet {after : MouseSystem} (same : after.input = input) :
        ¬system.EndsCall .driver after := by
      rw [endsCall_iff polls, same]
      intro ends
      rcases popped ▸ (InputSystem.endsDrain_cases moved ends).2 with other | other <;> cases other
    split
    next long =>
      refine ⟨?_, fun ends => absurd ends (quiet rfl), fun _ => rfl⟩
      simp only [← called, if_pos long]
      rw [mouseAfter_snoc, mouse]
    next short =>
      refine ⟨?_, fun ends => absurd ends (quiet rfl), fun _ => rfl⟩
      simp only [← called, if_neg short]
      exact mouse
  next checking =>
    have handled : input.handled = system.input.handled :=
      InputSystem.handled_of_step moved (by simp [checking])
    exact MouseSystem.finish_samples polls (by rw [checking]; rfl) (handled ▸ mouse)
      processes.drained
  next popping =>
    have handled : input.handled = system.input.handled :=
      InputSystem.handled_of_step moved (by simp [popping])
    exact MouseSystem.finish_samples polls (by rw [popping]; rfl) (handled ▸ mouse)
      processes.drained
  next called _ _ idle notChecking notPopping =>
    have handled : input.handled = system.input.handled :=
      InputSystem.handled_of_step moved fun driver elem => idle elem driver
    refine ⟨handled ▸ mouse, fun ends => ?_, fun _ => rfl⟩
    obtain ⟨driver, checking | popping⟩ :=
      InputSystem.endsDrain_cases moved ((endsCall_iff polls).mp ends)
    · exact absurd checking (notChecking driver)
    · exact absurd popping (notPopping driver)

theorem MouseSystem.follow_polls (system : MouseSystem) (bufs : Word) (action : InputAction)
    (input : InputSystem) : (system.follow bufs action input).polls = system.polls := by
  unfold MouseSystem.follow
  split
  · split <;> rfl
  · split <;> rfl
  · split <;> rfl
  · rfl

theorem MouseSystem.Sound.step {action : InputAction} {after : MouseSystem}
    (divides : num ∣ 2 ^ 16) (small : num ≤ virtqSize) (sound : system.Sound num bufs)
    (stepped : system.step bufs action = some after) :
    after.Sound num bufs ∧ system.StepSamples action after := by
  have onScreen := sound.onScreen.step stepped
  unfold MouseSystem.step at stepped
  split at stepped
  next absent =>
    obtain rfl := Option.some.inj stepped
    refine ⟨⟨sound.input, sound.mouse, onScreen, sound.unpolled⟩, .of_unpolled ?_ rfl ?_⟩
    · rw [MouseSystem.polls, absent]
      rfl
    · rw [absent]
      rfl
  next => cases stepped
  next present inactive =>
    obtain rfl := Option.some.inj stepped
    have unpolled : system.polls = false := by
      rw [MouseSystem.polls, inactive, Bool.and_false]
    obtain ⟨handled, delivered⟩ := sound.unpolled unpolled
    refine ⟨⟨sound.input, sound.mouse, onScreen, sound.unpolled⟩, .of_unpolled unpolled rfl ?_⟩
    rw [if_pos present]
    refine ⟨[], handled ▸ sound.mouse, ?_⟩
    rw [show system.sample.input = system.input from rfl, delivered]
    rfl
  next => cases stepped
  next _ present active =>
    obtain ⟨input, moved, rfl⟩ := Option.map_eq_some_iff.mp stepped
    obtain ⟨waiting, used, early, late, tracked⟩ := sound.input
    obtain ⟨kept, processes⟩ := tracked.step divides small moved
    have polls := polls_iff.mpr ⟨present, active⟩
    obtain ⟨mouse, samples⟩ := MouseSystem.follow_samples polls sound.mouse moved processes
    refine ⟨⟨kept, mouse, onScreen, fun unpolled => ?_⟩, samples⟩
    have idle : system.polls = false := (system.follow_polls bufs _ input).symm.trans unpolled
    exact Bool.noConfusion (polls.symm.trans idle)

theorem MouseSystem.step_polls {action : InputAction} (polls : system.polls = true)
    (moved : system.input.step bufs action = some input) :
    system.step bufs action = some { system.follow bufs action input with input := input } := by
  obtain ⟨present, active⟩ := polls_iff.mp polls
  simp only [MouseSystem.step, present, active, moved, Option.map_some]

theorem MouseSystem.step_unpolled (bufs : Word) (unpolled : system.polls = false) :
    ∃ sample, system.step bufs .drainEvents =
      some { system with samples := system.samples ++ [sample] } := by
  rcases Bool.and_eq_false_iff.mp unpolled with absent | inactive
  · exact ⟨⟨0, 0, 0⟩, by simp only [MouseSystem.step, absent]⟩
  · rcases Bool.eq_false_or_eq_true system.available with present | absent
    · have called : system.step bufs .drainEvents = some system.sample := by
        simp only [MouseSystem.step, present, inactive]
      exact ⟨system.mouse, called⟩
    · exact ⟨⟨0, 0, 0⟩, by simp only [MouseSystem.step, absent]⟩

/-- Between `system` and the return of its call. -/
structure MouseSystem.Underway (num : Nat) (bufs : Word) (system current : MouseSystem) :
    Prop where
  sound : current.Sound num bufs
  polls : current.polls = true
  refills : current.input.phase.refills = system.input.phase.refills
  delivered : current.input.delivered = system.input.delivered
  samples : current.samples = system.samples

theorem MouseSystem.Underway.proceed {action : InputAction} {current : MouseSystem}
    (divides : num ∣ 2 ^ 16) (small : num ≤ virtqSize) (polls : system.polls = true)
    (underway : system.Underway num bufs current)
    (moved : current.input.step bufs action = some input)
    (proceeds : current.input.Proceeds input) :
    ∃ after, current.step bufs action = some after ∧ after.input = input ∧
      (input.phase = .outside → current.input.phase ≠ .outside → system.Returned after) ∧
      (input.phase ≠ .outside → system.Underway num bufs after) := by
  obtain ⟨sound, stillPolls, refills, delivered, samples⟩ := underway
  have stepped := MouseSystem.step_polls stillPolls moved
  obtain ⟨kept, stepSamples⟩ := sound.step divides small stepped
  have alsoDelivered := proceeds.delivered.trans delivered
  refine ⟨_, stepped, rfl, fun outside running => ?_, fun inside => ?_⟩
  · refine ⟨fun _ => outside, alsoDelivered, fun _ filling => ?_, fun filled => ?_⟩
    · refine (stepSamples.quiet ?_).trans samples
      rw [endsCall_iff stillPolls]
      intro ends
      have filled := InputPhase.refills_of_drains ends.1
      exact Bool.noConfusion (filled.symm.trans (refills.trans filling))
    · have drains := InputPhase.drains_of_running running (refills.trans (filled polls))
      obtain ⟨sample, ends, _⟩ :=
        stepSamples.sampled ((endsCall_iff stillPolls).mpr ⟨drains, outside⟩)
      exact ⟨sample, samples ▸ ends⟩
  · have quiet := stepSamples.quiet fun ends => inside ((endsCall_iff stillPolls).mp ends).2
    have same := proceeds.refills.resolve_left inside
    exact ⟨kept, (current.follow_polls bufs action input).trans stillPolls, same.trans refills,
      alsoDelivered, quiet.trans samples⟩

theorem MouseSystem.Sound.returns (divides : num ∣ 2 ^ 16) (small : num ≤ virtqSize)
    (sound : system.Sound num bufs) :
    ∃ count ≤ system.input.stepsLeft, ∃ final,
      Transition.exec (MouseSystem.step bufs) system (system.rest count) = some final ∧
        system.Returned final := by
  unfold MouseSystem.rest
  cases polls : system.polls with
  | true =>
      have start : system.Underway num bufs system := ⟨sound, polls, rfl, rfl, rfl⟩
      refine InputSystem.returns_of_proceed bufs MouseSystem.input
        (fun current action next underway moved proceeds => ?_) start
      exact underway.proceed divides small polls moved proceeds
  | false =>
      obtain ⟨sample, called⟩ := MouseSystem.step_unpolled bufs polls
      refine ⟨0, Nat.zero_le _, _, Transition.exec_cons_iff.mpr ⟨_, called, rfl⟩, ?_⟩
      exact ⟨fun still => Bool.noConfusion (polls.symm.trans still), rfl,
        fun still => Bool.noConfusion (polls.symm.trans still), fun _ => ⟨sample, rfl⟩⟩

/-- Whatever the device does between the steps of the driver, each call of `mouse_get_state`
returns a point of the screen, the one to which the events delivered so far lead. -/
theorem mouseSamples_followEvents {pagesAlloc : Nat → Option Nat} {desc : Nat → VirtqDesc}
    {avail : VirtqAvail} {used : VirtqUsed} {version : BitVec 32} {size maxSize order : Nat}
    {vq : Virtq} (setup : virtqSetup pagesAlloc desc avail used version size maxSize = some vq)
    (power : queueSize size maxSize = 2 ^ order) (small : queueSize size maxSize ≤ virtqSize)
    (bufs : Word) (memory : Word → VirtioInputEvent) (available active : Bool)
    (actions : List InputAction) :
    Transition.EveryState (MouseSystem.step bufs) (MouseSystem.Follows bufs)
        (.boot (.boot vq memory) available active) actions ∧
      Transition.EveryStep (MouseSystem.step bufs) MouseSystem.StepSamples
        (.boot (.boot vq memory) available active) actions := by
  have setUp : vq.SetUp (queueSize size maxSize) :=
    ⟨_, _, _, _, _, _, _, _, setup, rfl, power, small⟩
  obtain ⟨divides, small, input⟩ := setUp.boot bufs memory
  have start : MouseSystem.Sound (queueSize size maxSize) bufs
      (.boot (.boot vq memory) available active) :=
    ⟨input, rfl, mouseBoot_onScreen _ available active, fun _ => ⟨rfl, rfl⟩⟩
  refine ⟨(Transition.everyState_of_invariant ?_ start actions).mono ?_,
    Transition.everyStep_of_invariant ?_ start actions⟩
  · exact fun system action after sound stepped => (sound.step divides small stepped).1
  · exact fun system sound =>
      ⟨sound.mouse, sound.onScreen.samples, sound.returns divides small⟩
  · exact fun system action after sound stepped => sound.step divides small stepped

/-- The device returns the second buffer with a move to the right edge, and the mouse is read. -/
def moveDrained : List InputAction := .refillEventQueue :: List.replicate 17 .driver ++
  [.fetch, .fetch, .write 1 ⟨evAbs, absX, 0x7FFF⟩, .publish 1 8, .drainEvents] ++
    List.replicate 5 .driver

theorem mouseSamples_followEvents_move :
    (∃ final, Transition.exec (MouseSystem.step 0x1000)
        (.boot (.boot pairQueue fun _ => ⟨0, 0, 0⟩) true true) moveDrained = some final ∧
      final.input.phase = .outside ∧ final.samples = [⟨639, 240, 0⟩]) ∧
    Transition.EveryState (MouseSystem.step 0x1000) (MouseSystem.Follows 0x1000)
      (.boot (.boot pairQueue fun _ => ⟨0, 0, 0⟩) true true) moveDrained ∧
    Transition.EveryStep (MouseSystem.step 0x1000) MouseSystem.StepSamples
      (.boot (.boot pairQueue fun _ => ⟨0, 0, 0⟩) true true) moveDrained := by
  have setup : virtqSetup (fun _ => some 0) (fun _ => ⟨0, 0, 0, 0⟩) ⟨0, 0, fun _ => 0⟩
      ⟨0, 0, fun _ => ⟨0, 0⟩⟩ 2 virtqSize 2 = some pairQueue := rfl
  have power : queueSize virtqSize 2 = 2 ^ 1 := rfl
  have ends : (Transition.exec (MouseSystem.step 0x1000)
      (.boot (.boot pairQueue fun _ => ⟨0, 0, 0⟩) true true) moveDrained).any (fun final =>
        decide (final.input.phase = .outside ∧ final.samples = [⟨639, 240, 0⟩])) = true := by
    decide +kernel
  obtain ⟨final, run, outcome⟩ := (Option.any_eq_true _ _).mp ends
  exact ⟨⟨final, run, of_decide_eq_true outcome⟩,
    mouseSamples_followEvents setup power (by decide) 0x1000 _ true true moveDrained⟩

end Runs

end DragoonKernel
