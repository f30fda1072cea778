import DragoonKernel.VirtioInputCore
import DragoonKernel.VirtqConservation

/-!
Input events are handled once each and from the right buffer: the descriptor of a buffer
keeps the buffer's own index.
-/

namespace DragoonKernel

/-- What the handler must be given for these records. -/
def passedEvents (records : List Delivery) : List (Option VirtioInputEvent) :=
  (records.filter fun record => eventSize ≤ record.len).map Delivery.contents

/-- The element that has been popped and not yet handled. -/
def InputPhase.unhandled : InputPhase → Option VirtqUsedElem
  | .popped elem => some elem
  | _ => none

/-- `refill_event_queue` has not returned yet. -/
def InputPhase.refills : InputPhase → Bool
  | .fresh | .refilling _ => true
  | _ => false

/-- `drain_events` is running. -/
def InputPhase.drains : InputPhase → Bool
  | .checking | .popping | .popped _ | .resubmitting _ => true
  | _ => false

/-- The step that returns from `drain_events`. -/
def InputSystem.EndsDrain (before after : InputSystem) : Prop :=
  before.phase.drains = true ∧ after.phase = .outside

/-- The call that is made next when none is running. -/
def InputPhase.call : InputPhase → List InputAction
  | .fresh => [.refillEventQueue]
  | .outside => [.drainEvents]
  | _ => []

/-- How many steps the running call, or the next one, takes at most before the step that returns.
`waiting` is the number of used elements that are not popped. -/
def InputPhase.stepsLeft (waiting : Nat) : InputPhase → Nat
  | .fresh => eventBufCount
  | .refilling i => eventBufCount - i
  | .outside | .checking => 4 * waiting
  | .popping => 4 * waiting - 1
  | .popped _ => 4 * waiting + 2
  | .resubmitting _ => 4 * waiting + 1

def InputSystem.stepsLeft (system : InputSystem) : Nat :=
  system.phase.stepsLeft (system.virtq.vq.used.idx - system.virtq.vq.lastUsedIdx).toNat

/-- The call that was running, or the next one, has returned with nothing done by the device. -/
structure InputSystem.Returned (num : Nat) (before after : InputSystem) : Prop where
  outside : after.phase = .outside
  delivered : after.delivered = before.delivered
  refilled : before.phase.refills = true → after.handled = before.handled
  drained : before.phase.refills = false → after.handled.map some = passedEvents after.delivered
  inFlight : ∀ head < num, after.virtq.InFlight head

structure InputSystem.Processed (num : Nat) (bufs : Word) (system : InputSystem) : Prop where
  buffers : ∀ head ∈ system.virtq.submitted,
    (system.virtq.vq.desc head).addr = bufAddr bufs head
  records : system.delivered.map Delivery.len = system.virtq.published.map VirtqUsedElem.len
  handled : system.handled.map some = passedEvents (system.delivered.take
    (system.virtq.popped.length - system.phase.unhandled.toList.length))
  returned : system.phase = .outside → ∀ head < num, system.virtq.InFlight head
  returns : ∃ count ≤ system.stepsLeft, ∃ final, Transition.exec (InputSystem.step bufs) system
    (system.phase.call ++ List.replicate (count + 1) .driver) = some final ∧
      system.Returned num final

/-- The end of `drain_events` finds every event handled, and the buffer just handled is the
one that is submitted again, and the only one. Each step of the driver brings the end of its call
nearer, and a device that publishes an element delays it by four steps. -/
structure InputSystem.StepProcesses (system : InputSystem) (action : InputAction)
    (after : InputSystem) : Prop where
  drained : system.EndsDrain after → after.handled.map some = passedEvents after.delivered
  resubmits : ∀ elem, system.phase = .resubmitting elem → action = .driver →
    after.virtq.submitted = system.virtq.submitted ++ [elem.head]
  submits : system.phase.refills = true ∨ (∃ elem, system.phase = .resubmitting elem) ∨
    after.virtq.submitted = system.virtq.submitted
  advances : action = .driver → after.phase = .outside ∨ after.stepsLeft < system.stepsLeft
  delays : action ≠ .driver → after.stepsLeft ≤
    system.stepsLeft + 4 * (after.delivered.length - system.delivered.length)

def InputPhase.chain (num : Nat) : InputPhase → List Nat
  | .fresh => List.range' 0 num
  | .refilling i => List.range' i (num - i)
  | .outside | .checking | .popping => []
  | .popped elem | .resubmitting elem => [elem.head]

/-- The record of a published element, whose event is in the buffer of its descriptor. -/
def HoldsEvent (memory : Word → VirtioInputEvent) (bufs : Word) (elem : VirtqUsedElem)
    (record : Delivery) : Prop :=
  record.len = elem.len ∧
    (eventSize ≤ elem.len → record.contents = some (memory (bufAddr bufs elem.head)))

/-- `early` are the records of the elements handled, and `late` those of the others. -/
structure InputSystem.Tracked (num : Nat) (bufs : Word) (system : InputSystem)
    (waiting : List (BitVec 16)) (used : List VirtqUsedElem) (early late : List Delivery) :
    Prop where
  virtq : system.virtq.Tracked num (system.phase.chain num) waiting used
  buffers : ∀ head ∈ system.virtq.submitted, (system.virtq.vq.desc head).addr = bufAddr bufs head
  delivered : system.delivered = early ++ late
  records : system.delivered.map Delivery.len = system.virtq.published.map VirtqUsedElem.len
  handled : system.handled.map some = passedEvents early
  count : early.length + system.phase.unhandled.toList.length = system.virtq.popped.length
  unhandled : List.Forall₂ (HoldsEvent system.memory bufs)
    (system.phase.unhandled.toList ++ used) late
  wrote : ∀ head ∈ system.virtq.device.owned, ∀ event, system.wrote head = some event →
    system.memory (bufAddr bufs head.toNat) = event
  popping : system.phase = .popping → used ≠ []

def InputSystem.Sound (num : Nat) (bufs : Word) (system : InputSystem) : Prop :=
  ∃ waiting used early late, system.Tracked num bufs waiting used early late

variable {num : Nat} {bufs : Word} {system : InputSystem} {waiting : List (BitVec 16)}
  {used : List VirtqUsedElem} {early late : List Delivery}

theorem bufAddr_inj {first second : Nat} (firstBound : first < eventBufCount)
    (secondBound : second < eventBufCount) (same : bufAddr bufs first = bufAddr bufs second) :
    first = second := by
  have offsets := congrArg BitVec.toNat (add_left_cancel same)
  simp only [BitVec.toNat_ofNat, eventBufCount] at offsets firstBound secondBound
  omega

theorem passedEvents_append (first second : List Delivery) :
    passedEvents (first ++ second) = passedEvents first ++ passedEvents second := by
  rw [passedEvents, List.filter_append, List.map_append]
  rfl

/-- With nothing left in the used ring, every delivered event has been handled. -/
theorem InputSystem.Tracked.drained (tracked : system.Tracked num bufs waiting [] early late)
    (idle : system.phase.unhandled = none) :
    system.handled.map some = passedEvents system.delivered := by
  have unhandled := tracked.unhandled
  rw [idle, Option.toList_none, List.nil_append, List.forall₂_nil_left_iff] at unhandled
  rw [tracked.handled, tracked.delivered, unhandled, List.append_nil]

theorem sub_succ_toNat {start stop : BitVec 16} (some : stop ≠ start) :
    (stop - (start + 1)).toNat + 1 = (stop - start).toNat := by
  bv_omega

theorem succ_sub_toNat (start stop : BitVec 16) :
    (stop + 1 - start).toNat ≤ (stop - start).toNat + 1 := by
  bv_omega

theorem virtqPushBuf_counters (vq : Virtq) (buf : Word) (len : BitVec 32) (flags : BitVec 16) :
    (virtqPushBuf vq buf len flags).used = vq.used ∧
      (virtqPushBuf vq buf len flags).lastUsedIdx = vq.lastUsedIdx := by
  rw [virtqPushBuf]
  dsimp only
  split <;> exact ⟨rfl, rfl⟩

theorem InputSystem.push_stepsLeft (system : InputSystem) (bufs : Word) (index : Nat)
    (phase : InputPhase) : (system.push bufs index phase).stepsLeft =
      phase.stepsLeft (system.virtq.vq.used.idx - system.virtq.vq.lastUsedIdx).toNat := by
  obtain ⟨used, last⟩ := virtqPushBuf_counters system.virtq.vq (bufAddr bufs index) eventSize
    virtqDescFWrite
  rw [InputSystem.stepsLeft, InputSystem.push, VirtqSystem.pushBuf, used, last]

/-- A call or a step of it, in whatever state the rings are. -/
structure InputSystem.Proceeds (system after : InputSystem) : Prop where
  delivered : after.delivered = system.delivered
  handled : (∀ elem, system.phase ≠ .popped elem) → after.handled = system.handled
  begun : after.phase ≠ .fresh
  refills : after.phase = .outside ∨ after.phase.refills = system.phase.refills

structure InputSystem.Advances (system after : InputSystem) : Prop
    extends system.Proceeds after where
  submits : system.phase.refills = true ∨ (∃ elem, system.phase = .resubmitting elem) ∨
    after.virtq.submitted = system.virtq.submitted
  nearer : after.phase = .outside ∨ after.stepsLeft < system.stepsLeft

theorem sub_lastUsedIdx {vq : Virtq} (has : virtqHasUsed vq = true) :
    (vq.used.idx - (vq.lastUsedIdx + 1)).toNat + 1 = (vq.used.idx - vq.lastUsedIdx).toNat :=
  sub_succ_toNat (by simpa [virtqHasUsed] using has)

theorem virtqHasUsed_of_popUsed {vq : Virtq} {elem : VirtqUsedElem}
    (popped : (virtqPopUsed vq).2 = some elem) : virtqHasUsed vq = true := by
  by_contra nothing
  rw [virtqPopUsed, if_neg nothing] at popped
  cases popped

theorem InputSystem.return_advances (system : InputSystem) :
    system.Advances { system with phase := .outside } :=
  ⟨⟨rfl, fun _ => rfl, InputPhase.noConfusion, .inl rfl⟩, .inr (.inr rfl), .inl rfl⟩

/-- The driver takes an element, or returns because its id is negative. -/
theorem InputSystem.pop_advances {system : InputSystem} (phase : system.phase = .popping)
    {elem : VirtqUsedElem} (popped : (virtqPopUsed system.virtq.vq).2 = some elem) :
    system.Advances { system with
      virtq := system.virtq.popUsed
      phase := if elem.id.toInt < 0 then .outside else .popped elem } := by
  by_cases negative : elem.id.toInt < 0
  · rw [if_pos negative]
    exact ⟨⟨rfl, fun _ => rfl, InputPhase.noConfusion, .inl rfl⟩, .inr (.inr rfl), .inl rfl⟩
  · rw [if_neg negative]
    refine ⟨⟨rfl, fun _ => rfl, InputPhase.noConfusion, .inr (by rw [phase]; rfl)⟩,
      .inr (.inr rfl), .inr ?_⟩
    have has := virtqHasUsed_of_popUsed popped
    have waiting := sub_lastUsedIdx has
    simp only [InputSystem.stepsLeft, phase, InputPhase.stepsLeft, VirtqSystem.popUsed,
      virtqPopUsed, if_pos has]
    omega

theorem InputSystem.driver_advances (system : InputSystem) (bufs : Word)
    (begun : system.phase ≠ .fresh) (running : system.phase ≠ .outside) :
    ∃ after, system.driver bufs = some after ∧ system.Advances after := by
  cases phase : system.phase with
  | fresh => exact absurd phase begun
  | outside => exact absurd phase running
  | refilling i =>
      by_cases more : i < eventBufCount
      · refine ⟨system.push bufs i (.refilling (i + 1)), ?_, ⟨rfl, fun _ => rfl,
          InputPhase.noConfusion, .inr (by rw [phase]; rfl)⟩, .inl (by rw [phase]; rfl), .inr ?_⟩
        · simp only [InputSystem.driver, phase, if_pos more]
        · rw [InputSystem.push_stepsLeft, InputSystem.stepsLeft, phase]
          simp only [InputPhase.stepsLeft]
          omega
      · refine ⟨_, ?_, system.return_advances⟩
        simp only [InputSystem.driver, phase, if_neg more]
  | checking =>
      by_cases has : virtqHasUsed system.virtq.vq = true
      · refine ⟨{ system with phase := .popping }, ?_, ⟨rfl, fun _ => rfl,
          InputPhase.noConfusion, .inr (by rw [phase]; rfl)⟩, .inr (.inr rfl), .inr ?_⟩
        · simp only [InputSystem.driver, phase, if_pos has]
        · have waiting := sub_lastUsedIdx has
          simp only [InputSystem.stepsLeft, phase, InputPhase.stepsLeft]
          omega
      · refine ⟨_, ?_, system.return_advances⟩
        simp only [InputSystem.driver, phase, if_neg has]
  | popping =>
      cases popped : (virtqPopUsed system.virtq.vq).2 with
      | none =>
          refine ⟨_, ?_, system.return_advances⟩
          simp only [InputSystem.driver, phase, popped]
      | some elem =>
          refine ⟨_, ?_, InputSystem.pop_advances phase popped⟩
          simp only [InputSystem.driver, phase, popped]
  | popped elem =>
      refine ⟨{ system with
        handled := if eventSize ≤ elem.len then
          system.handled ++ [system.memory (bufAddr bufs elem.id.toNat)] else system.handled
        phase := .resubmitting elem }, ?_, ⟨rfl, fun idle => absurd phase (idle elem),
        InputPhase.noConfusion, .inr (by rw [phase]; rfl)⟩, .inr (.inr rfl), .inr ?_⟩
      · simp only [InputSystem.driver, phase]
      · simp only [InputSystem.stepsLeft, phase, InputPhase.stepsLeft]
        omega
  | resubmitting elem =>
      refine ⟨system.push bufs elem.id.toNat .checking, ?_, ⟨rfl, fun _ => rfl,
        InputPhase.noConfusion, .inr (by rw [phase]; rfl)⟩, .inr (.inl ⟨elem, phase⟩), .inr ?_⟩
      · simp only [InputSystem.driver, phase]
      · rw [InputSystem.push_stepsLeft, InputSystem.stepsLeft, phase]
        simp only [InputPhase.stepsLeft]
        omega

theorem InputSystem.advances_of_driver {after : InputSystem}
    (stepped : system.driver bufs = some after) : system.Advances after := by
  obtain ⟨other, moves, advances⟩ := system.driver_advances bufs
    (fun fresh => by simp [InputSystem.driver, fresh] at stepped)
    (fun outside => by simp [InputSystem.driver, outside] at stepped)
  obtain rfl := Option.some.inj (moves.symm.trans stepped)
  exact advances

/-- A step of the device, or of the driver when it makes a call. -/
structure InputSystem.Rests (system after : InputSystem) : Prop where
  handled : after.handled = system.handled
  submitted : after.virtq.submitted = system.virtq.submitted
  phase : after.phase = system.phase ∨ after.phase ≠ .outside
  delays : after.stepsLeft ≤
    system.stepsLeft + 4 * (after.delivered.length - system.delivered.length)

theorem InputSystem.rests_of_step {action : InputAction} {after : InputSystem}
    (stepped : system.step bufs action = some after) (other : action ≠ .driver) :
    system.Rests after := by
  cases action with
  | driver => exact absurd rfl other
  | refillEventQueue =>
      obtain ⟨fresh, same⟩ := Option.ite_none_right_eq_some.mp stepped
      rw [← Option.some.inj same]
      refine ⟨rfl, rfl, .inr InputPhase.noConfusion, ?_⟩
      simp [InputSystem.stepsLeft, fresh, InputPhase.stepsLeft]
  | drainEvents =>
      obtain ⟨outside, same⟩ := Option.ite_none_right_eq_some.mp stepped
      rw [← Option.some.inj same]
      refine ⟨rfl, rfl, .inr InputPhase.noConfusion, ?_⟩
      simp [InputSystem.stepsLeft, outside, InputPhase.stepsLeft]
  | fetch =>
      obtain ⟨virtq, fetched, rfl⟩ := Option.map_eq_some_iff.mp stepped
      obtain ⟨_, same⟩ := Option.ite_none_left_eq_some.mp fetched
      rw [← Option.some.inj same]
      exact ⟨rfl, rfl, .inl rfl, Nat.le_add_right _ _⟩
  | write head event =>
      obtain ⟨_, same⟩ := Option.ite_none_right_eq_some.mp stepped
      rw [← Option.some.inj same]
      exact ⟨rfl, rfl, .inl rfl, Nat.le_add_right _ _⟩
  | publish head len =>
      obtain ⟨_, mapped⟩ := Option.ite_none_left_eq_some.mp stepped
      obtain ⟨virtq, published, rfl⟩ := Option.map_eq_some_iff.mp mapped
      obtain ⟨_, same⟩ := Option.ite_none_right_eq_some.mp published
      rw [← Option.some.inj same]
      refine ⟨rfl, rfl, .inl rfl, ?_⟩
      have waiting := succ_sub_toNat system.virtq.vq.lastUsedIdx system.virtq.vq.used.idx
      simp only [InputSystem.stepsLeft, List.length_append, List.length_singleton,
        Nat.add_sub_cancel_left]
      cases system.phase <;> simp only [InputPhase.stepsLeft] <;> omega

/-- Only the test of the loop and the pop return from `drain_events`. -/
theorem InputSystem.handled_of_step {action : InputAction} {after : InputSystem}
    (stepped : system.step bufs action = some after)
    (idle : action = .driver → ∀ elem, system.phase ≠ .popped elem) :
    after.handled = system.handled := by
  by_cases driver : action = .driver
  · subst driver
    exact (InputSystem.advances_of_driver stepped).handled (idle rfl)
  · exact (InputSystem.rests_of_step stepped driver).handled

/-- While the device rests, the call that is running, or else the next one, comes to its end, and
so does a driver that makes its steps along with those of the event queue. -/
theorem InputSystem.returns_of_proceed (bufs : Word) {Driver : Type}
    {step : Driver → InputAction → Option Driver} (input : Driver → InputSystem)
    {underway returned : Driver → Prop}
    (proceeds : ∀ driver action next, underway driver →
      (input driver).step bufs action = some next → (input driver).Proceeds next →
      ∃ after, step driver action = some after ∧ input after = next ∧
        (next.phase = .outside → (input driver).phase ≠ .outside → returned after) ∧
        (next.phase ≠ .outside → underway after))
    {driver : Driver} (start : underway driver) :
    ∃ count ≤ (input driver).stepsLeft, ∃ final, Transition.exec step driver
      ((input driver).phase.call ++ List.replicate (count + 1) .driver) = some final ∧
        returned final := by
  have advances : ∀ current, (underway current ∧ (input current).phase ≠ .fresh ∧
      (input current).phase ≠ .outside) → ∃ after, step current .driver = some after ∧
        (returned after ∨ (underway after ∧ (input after).phase ≠ .fresh ∧
          (input after).phase ≠ .outside) ∧
            (input after).stepsLeft < (input current).stepsLeft) := by
    rintro current ⟨kept, begun, running⟩
    obtain ⟨next, moved, advance⟩ := (input current).driver_advances bufs begun running
    obtain ⟨after, stepped, rfl, ends, goesOn⟩ :=
      proceeds current .driver next kept moved advance.toProceeds
    refine ⟨after, stepped, ?_⟩
    by_cases outside : (input after).phase = .outside
    · exact .inl (ends outside running)
    · exact .inr ⟨⟨goesOn outside, advance.begun, outside⟩, advance.nearer.resolve_left outside⟩
  have finishes (current : Driver) (kept : underway current)
      (begun : (input current).phase ≠ .fresh) (running : (input current).phase ≠ .outside) :=
    Transition.exec_replicate_of_measure advances ⟨kept, begun, running⟩
  -- between two calls the driver makes the next one first
  have calls (action : InputAction) (phase : InputPhase)
      (called : (input driver).step bufs action = some { input driver with phase := phase })
      (begun : phase ≠ .fresh) (running : phase ≠ .outside)
      (refills : phase.refills = (input driver).phase.refills)
      (left : InputSystem.stepsLeft { input driver with phase := phase } =
        (input driver).stepsLeft) :
      ∃ count ≤ (input driver).stepsLeft, ∃ final, Transition.exec step driver
        (action :: List.replicate (count + 1) .driver) = some final ∧ returned final := by
    obtain ⟨after, stepped, same, _, goesOn⟩ :=
      proceeds driver action _ start called ⟨rfl, fun _ => rfl, begun, .inr refills⟩
    obtain ⟨count, bound, final, run, returned⟩ :=
      finishes after (goesOn running) (same ▸ begun) (same ▸ running)
    rw [same, left] at bound
    exact ⟨count, bound, final, Transition.exec_cons_iff.mpr ⟨_, stepped, run⟩, returned⟩
  cases phase : (input driver).phase with
  | fresh =>
      refine calls .refillEventQueue (.refilling 0) (if_pos phase) InputPhase.noConfusion
        InputPhase.noConfusion ?_ ?_
      · rw [phase]
        rfl
      · simp [InputSystem.stepsLeft, phase, InputPhase.stepsLeft]
  | outside =>
      refine calls .drainEvents .checking (if_pos phase) InputPhase.noConfusion
        InputPhase.noConfusion ?_ ?_
      · rw [phase]
        rfl
      · simp [InputSystem.stepsLeft, phase, InputPhase.stepsLeft]
  | _ => exact finishes driver start (by simp [phase]) (by simp [phase])

theorem InputSystem.endsDrain_cases {action : InputAction} {after : InputSystem}
    (stepped : system.step bufs action = some after) (ends : system.EndsDrain after) :
    action = .driver ∧ (system.phase = .checking ∨ system.phase = .popping) := by
  obtain ⟨drains, outside⟩ := ends
  by_cases driver : action = .driver
  · subst driver
    refine ⟨rfl, ?_⟩
    have moved : system.driver bufs = some after := stepped
    cases phase : system.phase with
    | checking => exact .inl rfl
    | popping => exact .inr rfl
    | popped elem =>
        simp only [InputSystem.driver, phase, Option.some.injEq] at moved
        rw [← moved] at outside
        cases outside
    | resubmitting elem =>
        simp only [InputSystem.driver, phase, Option.some.injEq] at moved
        rw [← moved] at outside
        cases outside
    | _ =>
        rw [phase] at drains
        cases drains
  · rcases (InputSystem.rests_of_step stepped driver).phase with same | still
    · rw [← same, outside] at drains
      cases drains
    · exact absurd outside still

theorem InputSystem.Tracked.rephase {phase : InputPhase}
    (tracked : system.Tracked num bufs waiting used early late)
    (chain : phase.chain num = system.phase.chain num)
    (unhandled : phase.unhandled = system.phase.unhandled)
    (popping : phase = .popping → used ≠ []) :
    InputSystem.Tracked num bufs { system with phase := phase } waiting used early late where
  virtq := chain ▸ tracked.virtq
  buffers := tracked.buffers
  delivered := tracked.delivered
  records := tracked.records
  handled := tracked.handled
  count := unhandled ▸ tracked.count
  unhandled := unhandled ▸ tracked.unhandled
  wrote := tracked.wrote
  popping := popping

theorem InputSystem.Tracked.push {index : Nat} {phase : InputPhase} (divides : num ∣ 2 ^ 16)
    (tracked : system.Tracked num bufs waiting used early late)
    (first : system.phase.chain num = index :: phase.chain num)
    (idle : system.phase.unhandled = none) (alsoIdle : phase.unhandled = none)
    (popping : phase ≠ .popping) :
    (system.push bufs index phase).Tracked num bufs (waiting ++ [system.virtq.vq.freeHead]) used
        early late ∧
      (system.push bufs index phase).virtq.submitted = system.virtq.submitted ++ [index] := by
  have before := tracked.virtq
  rw [first] at before
  obtain ⟨next, submitted⟩ := before.pushBuf divides (bufAddr bufs index) eventSize virtqDescFWrite
  refine ⟨⟨next, ?_, tracked.delivered, tracked.records, tracked.handled, ?_, ?_, tracked.wrote,
    fun here => absurd here popping⟩, submitted⟩
  · intro head listed
    simp only [InputSystem.push, submitted] at listed
    simp only [InputSystem.push, VirtqSystem.pushBuf, virtqPushBuf_free before.free]
    by_cases here : head = index
    · simp [here]
    · rw [List.mem_append, List.mem_singleton] at listed
      simp [here, tracked.buffers head (listed.resolve_right here)]
  · have count := tracked.count
    rw [idle] at count
    rw [InputSystem.push, alsoIdle]
    exact count
  · have unhandled := tracked.unhandled
    rw [idle] at unhandled
    rw [InputSystem.push, alsoIdle]
    exact unhandled

theorem InputSystem.Tracked.push_nil {phase : InputPhase}
    (tracked : system.Tracked num bufs waiting used early late)
    (exhausted : system.phase.chain num = []) (index : Nat) :
    system.push bufs index phase = { system with phase := phase } := by
  have before := tracked.virtq
  rw [exhausted] at before
  rw [InputSystem.push, before.free_nil]

theorem InputSystem.Tracked.refill {i : Nat} {after : InputSystem} (divides : num ∣ 2 ^ 16)
    (small : num ≤ virtqSize) (tracked : system.Tracked num bufs waiting used early late)
    (refilling : system.phase = .refilling i) (stepped : system.driver bufs = some after) :
    after.Sound num bufs := by
  have idle : system.phase.unhandled = none := by
    rw [refilling]
    rfl
  simp only [InputSystem.driver, refilling] at stepped
  split at stepped
  · obtain rfl := Option.some.inj stepped
    by_cases inside : i < num
    · have first : system.phase.chain num = i :: (InputPhase.refilling (i + 1)).chain num := by
        rw [refilling, InputPhase.chain, InputPhase.chain, ← List.range'_succ]
        congr 1
        omega
      exact ⟨_, _, _, _, (tracked.push divides first idle rfl InputPhase.noConfusion).1⟩
    · have exhausted : system.phase.chain num = [] := by
        rw [refilling, InputPhase.chain, Nat.sub_eq_zero_of_le (Nat.not_lt.mp inside)]
        rfl
      rw [tracked.push_nil exhausted i]
      refine ⟨_, _, _, _, tracked.rephase ?_ idle.symm InputPhase.noConfusion⟩
      rw [exhausted, InputPhase.chain, Nat.sub_eq_zero_of_le (by omega)]
      rfl
  next last =>
    obtain rfl := Option.some.inj stepped
    refine ⟨_, _, _, _, tracked.rephase ?_ idle.symm InputPhase.noConfusion⟩
    have finished : num - i = 0 := by
      simp only [virtqSize, eventBufCount] at small last
      omega
    rw [refilling, InputPhase.chain, InputPhase.chain, finished]
    rfl

theorem InputSystem.Tracked.pop {elem : VirtqUsedElem} (small : num ≤ virtqSize)
    (tracked : system.Tracked num bufs waiting (elem :: used) early late)
    (popping : system.phase = .popping) :
    system.driver bufs = some { system with virtq := system.virtq.popUsed, phase := .popped elem } ∧
      InputSystem.Tracked num bufs { system with
        virtq := system.virtq.popUsed, phase := .popped elem } waiting used early late := by
  have before := tracked.virtq
  have unhandled := tracked.unhandled
  have count := tracked.count
  rw [popping] at before unhandled count
  obtain ⟨returned, next⟩ := before.popUsed small
  have inside : elem.head < virtqSize := by
    refine Nat.lt_of_lt_of_le ((next.mem elem.head).mp (.inl List.mem_cons_self)) small
  have positive : ¬elem.id.toInt < 0 := by
    simp only [VirtqUsedElem.head, virtqSize] at inside
    rw [BitVec.toInt_eq_toNat_of_lt (by omega)]
    omega
  refine ⟨?_, next, ?_, tracked.delivered, tracked.records, tracked.handled, ?_, unhandled,
    tracked.wrote, fun impossible => by cases impossible⟩
  · simp only [InputSystem.driver, popping, returned, if_neg positive]
  · intro head listed
    have same := tracked.buffers head listed
    simp only [VirtqSystem.popUsed, virtqPopUsed]
    split
    · by_cases here : head = (system.virtq.vq.used.ring
          (Ring.slot system.virtq.vq.num.toNat system.virtq.vq.lastUsedIdx)).id.toNat
      · subst here
        simpa using same
      · simpa [here] using same
    · exact same
  · simp only [InputPhase.unhandled, Option.toList_none, List.length_nil, Nat.add_zero] at count
    simp [VirtqSystem.popUsed, returned, InputPhase.unhandled, count]

/-- The handler is called when the element is long enough, with what the device has written. -/
theorem InputSystem.Tracked.handle {elem : VirtqUsedElem}
    (tracked : system.Tracked num bufs waiting used early late)
    (popped : system.phase = .popped elem) :
    ∃ record rest, late = record :: rest ∧ InputSystem.Tracked num bufs { system with
      handled := if eventSize ≤ elem.len then
        system.handled ++ [system.memory (bufAddr bufs elem.id.toNat)] else system.handled
      phase := .resubmitting elem } waiting used (early ++ [record]) rest := by
  have before := tracked.virtq
  have unhandled := tracked.unhandled
  have count := tracked.count
  rw [popped] at before unhandled count
  simp only [InputPhase.unhandled, Option.toList_some, List.singleton_append,
    List.forall₂_cons_left_iff] at unhandled
  obtain ⟨record, rest, ⟨len, contents⟩, tail, rfl⟩ := unhandled
  refine ⟨record, rest, rfl, before, tracked.buffers, ?_, tracked.records, ?_, ?_, tail,
    tracked.wrote, fun impossible => by cases impossible⟩
  · rw [tracked.delivered, List.append_assoc, List.singleton_append]
  · rw [passedEvents_append, ← tracked.handled]
    split
    next long =>
      have written := contents long
      rw [← len] at long
      simp [passedEvents, long, written, VirtqUsedElem.head]
    next short =>
      rw [← len] at short
      simp [passedEvents, short]
  · simpa [InputPhase.unhandled] using count

theorem InputSystem.Tracked.apart (tracked : system.Tracked num bufs waiting used early late)
    {head : BitVec 16} (owned : head ∈ system.virtq.device.owned) :
    ∀ elem ∈ system.phase.unhandled.toList ++ used, elem.head < num ∧ elem.head ≠ head.toNat := by
  obtain ⟨_, _, unlisted, unused⟩ := tracked.virtq.owned owned
  intro elem listed
  rcases List.mem_append.mp listed with current | queued
  · have chain : elem.head ∈ system.phase.chain num := by
      cases phase : system.phase <;> rw [phase] at current
      case popped other =>
        obtain rfl := List.mem_singleton.mp current
        exact List.mem_singleton_self _
      all_goals cases current
    exact ⟨(tracked.virtq.mem elem.head).mp (.inl chain), fun same => unlisted (same ▸ chain)⟩
  · refine ⟨(tracked.virtq.mem elem.head).mp (.inr ?_), unused elem queued⟩
    simp only [pendingHeads, Multiset.mem_add, Multiset.mem_coe]
    exact .inr (List.mem_map_of_mem queued)

theorem InputSystem.Tracked.write {head : BitVec 16} {event : VirtioInputEvent}
    (small : num ≤ virtqSize) (tracked : system.Tracked num bufs waiting used early late)
    (owned : head ∈ system.virtq.device.owned) :
    InputSystem.Tracked num bufs { system with
      memory := Function.update system.memory (system.virtq.vq.desc head.toNat).addr event
      wrote := Function.update system.wrote head (some event) } waiting used early late := by
  obtain ⟨submitted, bound, _, _⟩ := tracked.virtq.owned owned
  have untouched : ∀ other < num, other ≠ head.toNat → Function.update system.memory
      (system.virtq.vq.desc head.toNat).addr event (bufAddr bufs other) =
        system.memory (bufAddr bufs other) := by
    intro other below different
    rw [tracked.buffers _ submitted]
    refine Function.update_of_ne (fun same => different ?_) _ _
    exact bufAddr_inj (below.trans_le small) (bound.trans_le small) same
  refine ⟨tracked.virtq, tracked.buffers, tracked.delivered, tracked.records, tracked.handled,
    tracked.count, ?_, ?_, tracked.popping⟩
  · have apart := tracked.apart owned
    refine (List.forall₂_iff_get.mpr ?_)
    obtain ⟨length, each⟩ := List.forall₂_iff_get.mp tracked.unhandled
    refine ⟨length, fun place first second => ?_⟩
    obtain ⟨len, contents⟩ := each place first second
    obtain ⟨inside, different⟩ := apart _ (List.get_mem _ ⟨place, first⟩)
    exact ⟨len, fun long => (contents long).trans
      (congrArg some (untouched _ inside different).symm)⟩
  · intro other held written same
    simp only at held same ⊢
    by_cases here : other = head
    · subst here
      rw [Function.update_self] at same
      rw [tracked.buffers _ submitted, Function.update_self]
      exact (Option.some.inj same)
    · rw [Function.update_of_ne here] at same
      have inside := (tracked.virtq.owned held).2.1
      rw [untouched other.toNat inside fun equal => here (BitVec.eq_of_toNat_eq equal)]
      exact tracked.wrote other held written same

theorem InputSystem.Tracked.fetch {after : InputSystem}
    (tracked : system.Tracked num bufs waiting used early late)
    (stepped : system.step bufs .fetch = some after) : after.Sound num bufs := by
  obtain ⟨virtq, fetched, rfl⟩ := Option.map_eq_some_iff.mp stepped
  obtain ⟨rest, next⟩ := tracked.virtq.fetch fetched
  simp only [VirtqSystem.fetch, Option.ite_none_left_eq_some] at fetched
  obtain rfl := Option.some.inj fetched.2
  refine ⟨rest, used, early, late, next, tracked.buffers, tracked.delivered, tracked.records,
    tracked.handled, tracked.count, tracked.unhandled, ?_, tracked.popping⟩
  intro head held event same
  simp only at held same
  by_cases here : head = system.virtq.vq.avail.ring
      (Ring.slot system.virtq.vq.num.toNat system.virtq.device.seen)
  · rw [here, Function.update_self] at same
    cases same
  · rw [Function.update_of_ne here] at same
    exact tracked.wrote head ((List.mem_cons.mp held).resolve_left here) event same

theorem InputSystem.Tracked.publish {head : BitVec 16} {len : BitVec 32} {after : InputSystem}
    (divides : num ∣ 2 ^ 16) (tracked : system.Tracked num bufs waiting used early late)
    (stepped : system.step bufs (.publish head len) = some after) : after.Sound num bufs := by
  simp only [InputSystem.step, Option.ite_none_left_eq_some] at stepped
  obtain ⟨honest, stepped⟩ := stepped
  obtain ⟨virtq, published, rfl⟩ := Option.map_eq_some_iff.mp stepped
  have next := tracked.virtq.publish divides published
  simp only [VirtqSystem.publish, Option.ite_none_right_eq_some] at published
  obtain ⟨owned, published⟩ := published
  obtain rfl := Option.some.inj published
  have same : VirtqUsedElem.head ⟨head.setWidth 32, len⟩ = head.toNat := by
    have bound := head.isLt
    simp only [VirtqUsedElem.head, BitVec.toNat_setWidth]
    omega
  refine ⟨waiting, _, early, late ++ [⟨len, system.wrote head⟩], next, tracked.buffers, ?_, ?_,
    tracked.handled, tracked.count, ?_, ?_, fun popping => ?_⟩
  · simp [tracked.delivered]
  · simp [tracked.records]
  · rw [← List.append_assoc]
    refine List.rel_append tracked.unhandled (.cons ⟨rfl, fun long => ?_⟩ .nil)
    obtain ⟨event, written⟩ := Option.ne_none_iff_exists'.mp fun missing => honest ⟨long, missing⟩
    rw [same, tracked.wrote head owned event written]
    exact written
  · exact fun other held => tracked.wrote other (List.mem_of_mem_erase held)
  · exact List.append_ne_nil_of_right_ne_nil _ (List.cons_ne_nil _ _)

theorem InputSystem.Tracked.driver {after : InputSystem} (divides : num ∣ 2 ^ 16)
    (small : num ≤ virtqSize) (tracked : system.Tracked num bufs waiting used early late)
    (stepped : system.driver bufs = some after) :
    after.Sound num bufs ∧ system.StepProcesses .driver after := by
  have advances := InputSystem.advances_of_driver stepped
  have processes : (system.EndsDrain after →
        after.handled.map some = passedEvents after.delivered) →
      (∀ elem, system.phase = .resubmitting elem → after.virtq.submitted =
        system.virtq.submitted ++ [elem.head]) → system.StepProcesses .driver after :=
    fun drained resubmits => ⟨drained, fun elem same _ => resubmits elem same, advances.submits,
      fun _ => advances.nearer, fun other => absurd rfl other⟩
  cases phase : system.phase with
  | fresh => simp [InputSystem.driver, phase] at stepped
  | outside => simp [InputSystem.driver, phase] at stepped
  | refilling i =>
      refine ⟨tracked.refill divides small phase stepped, processes ?_ ?_⟩ <;>
        simp [phase, InputSystem.EndsDrain, InputPhase.drains]
  | checking =>
      have idle : system.phase.unhandled = none := by
        rw [phase]
        rfl
      simp only [InputSystem.driver, phase] at stepped
      have more := tracked.virtq.hasUsed small
      split at stepped
      next has =>
        obtain rfl := Option.some.inj stepped
        refine ⟨⟨_, _, _, _, tracked.rephase (by rw [phase]; rfl) idle.symm fun _ empty => ?_⟩,
          processes ?_ ?_⟩
        · rw [more.mpr empty] at has
          cases has
        · exact fun ends => InputPhase.noConfusion ends.2
        · simp [phase]
      next hasNot =>
        obtain rfl := Option.some.inj stepped
        obtain rfl := more.mp (Bool.eq_false_iff.mpr hasNot)
        refine ⟨⟨_, _, _, _, tracked.rephase (by rw [phase]; rfl) idle.symm
          InputPhase.noConfusion⟩, processes ?_ ?_⟩
        · exact fun _ => tracked.drained idle
        · simp [phase]
  | popping =>
      cases used with
      | nil => exact absurd rfl (tracked.popping phase)
      | cons elem used =>
          obtain ⟨pops, next⟩ := tracked.pop small phase
          obtain rfl := Option.some.inj (stepped.symm.trans pops)
          refine ⟨⟨_, _, _, _, next⟩, processes (fun ends => InputPhase.noConfusion ends.2) ?_⟩
          simp [phase]
  | popped elem =>
      obtain ⟨record, rest, _, next⟩ := tracked.handle phase
      simp only [InputSystem.driver, phase] at stepped
      obtain rfl := Option.some.inj stepped
      refine ⟨⟨_, _, _, _, next⟩, processes (fun ends => InputPhase.noConfusion ends.2) ?_⟩
      simp [phase]
  | resubmitting elem =>
      simp only [InputSystem.driver, phase] at stepped
      obtain rfl := Option.some.inj stepped
      have first : system.phase.chain num = elem.id.toNat :: InputPhase.checking.chain num := by
        rw [phase]
        rfl
      obtain ⟨next, submitted⟩ := tracked.push divides first (by rw [phase]; rfl) rfl
        InputPhase.noConfusion
      refine ⟨⟨_, _, _, _, next⟩, processes (fun ends => InputPhase.noConfusion ends.2) ?_⟩
      intro other same
      cases phase.symm.trans same
      exact submitted

theorem InputSystem.Tracked.step {action : InputAction} {after : InputSystem}
    (divides : num ∣ 2 ^ 16) (small : num ≤ virtqSize)
    (tracked : system.Tracked num bufs waiting used early late)
    (stepped : system.step bufs action = some after) :
    after.Sound num bufs ∧ system.StepProcesses action after := by
  -- only a step of the driver leaves the phases of `drain_events`
  have other : action ≠ .driver → system.StepProcesses action after := by
    intro notDriver
    have rests := InputSystem.rests_of_step stepped notDriver
    exact ⟨fun ends => absurd (InputSystem.endsDrain_cases stepped ends).1 notDriver,
      fun _ _ driver => absurd driver notDriver, .inr (.inr rests.submitted),
      fun driver => absurd driver notDriver, fun _ => rests.delays⟩
  cases action with
  | refillEventQueue =>
      simp only [InputSystem.step, Option.ite_none_right_eq_some] at stepped
      obtain ⟨fresh, stepped⟩ := stepped
      obtain rfl := Option.some.inj stepped
      refine ⟨⟨_, _, _, _, tracked.rephase ?_ ?_ InputPhase.noConfusion⟩,
        other InputAction.noConfusion⟩
      · rw [fresh]
        rfl
      · rw [fresh]
        rfl
  | drainEvents =>
      simp only [InputSystem.step, Option.ite_none_right_eq_some] at stepped
      obtain ⟨outside, stepped⟩ := stepped
      obtain rfl := Option.some.inj stepped
      refine ⟨⟨_, _, _, _, tracked.rephase ?_ ?_ InputPhase.noConfusion⟩,
        other InputAction.noConfusion⟩
      · rw [outside]
        rfl
      · rw [outside]
        rfl
  | driver => exact tracked.driver divides small stepped
  | fetch => exact ⟨tracked.fetch stepped, other InputAction.noConfusion⟩
  | write head event =>
      simp only [InputSystem.step, Option.ite_none_right_eq_some, List.contains_iff_mem] at stepped
      obtain ⟨owned, stepped⟩ := stepped
      obtain rfl := Option.some.inj stepped
      exact ⟨⟨_, _, _, _, tracked.write small owned⟩, other InputAction.noConfusion⟩
  | publish head len => exact ⟨tracked.publish divides stepped, other InputAction.noConfusion⟩

theorem InputSystem.Tracked.inFlight (tracked : system.Tracked num bufs waiting used early late)
    (outside : system.phase = .outside) {head : Nat} (below : head < num) :
    system.virtq.InFlight head := by
  have chain : system.phase.chain num = [] := by rw [outside, InputPhase.chain]
  have mem := (tracked.virtq.mem head).mpr below
  rw [chain] at mem
  exact (tracked.virtq.inFlight head).mpr (mem.resolve_left List.not_mem_nil)

theorem InputPhase.refills_of_drains {phase : InputPhase} (drains : phase.drains = true) :
    phase.refills = false := by
  cases phase with
  | fresh => cases drains
  | refilling => cases drains
  | _ => rfl

theorem InputPhase.drains_of_running {phase : InputPhase} (running : phase ≠ .outside)
    (filled : phase.refills = false) : phase.drains = true := by
  cases phase with
  | fresh => cases filled
  | refilling => cases filled
  | outside => exact absurd rfl running
  | _ => rfl

/-- Between `system` and the return of its call. -/
structure InputSystem.Underway (num : Nat) (bufs : Word) (system current : InputSystem) : Prop where
  sound : current.Sound num bufs
  refills : current.phase.refills = system.phase.refills
  delivered : current.delivered = system.delivered
  handled : system.phase.refills = true → current.handled = system.handled

theorem InputSystem.Underway.proceed (divides : num ∣ 2 ^ 16) (small : num ≤ virtqSize)
    {current next : InputSystem} {action : InputAction} (underway : system.Underway num bufs current)
    (moved : current.step bufs action = some next) (proceeds : current.Proceeds next) :
    (next.phase = .outside → current.phase ≠ .outside → system.Returned num next) ∧
      (next.phase ≠ .outside → system.Underway num bufs next) := by
  obtain ⟨⟨waiting, used, early, late, tracked⟩, refills, delivered, handled⟩ := underway
  obtain ⟨kept, processes⟩ := tracked.step divides small moved
  have alsoDelivered := proceeds.delivered.trans delivered
  have alsoHandled : system.phase.refills = true → next.handled = system.handled := by
    intro refilling
    refine (proceeds.handled fun elem popped => ?_).trans (handled refilling)
    rw [← refills, popped] at refilling
    cases refilling
  constructor
  · intro outside running
    refine ⟨outside, alsoDelivered, alsoHandled, fun filled => ?_, fun head below => ?_⟩
    · have drains := InputPhase.drains_of_running running (refills.trans filled)
      exact processes.drained ⟨drains, outside⟩
    · obtain ⟨_, _, _, _, after⟩ := kept
      exact after.inFlight outside below
  · intro inside
    have same := proceeds.refills.resolve_left inside
    exact ⟨kept, same.trans refills, alsoDelivered, alsoHandled⟩

theorem InputSystem.Sound.returns (divides : num ∣ 2 ^ 16) (small : num ≤ virtqSize)
    (sound : system.Sound num bufs) :
    ∃ count ≤ system.stepsLeft, ∃ final, Transition.exec (InputSystem.step bufs) system
      (system.phase.call ++ List.replicate (count + 1) .driver) = some final ∧
        system.Returned num final := by
  have start : system.Underway num bufs system := ⟨sound, rfl, rfl, fun _ => rfl⟩
  refine InputSystem.returns_of_proceed bufs id
    (fun current action next underway moved proceeds => ?_) start
  exact ⟨next, moved, rfl, underway.proceed divides small moved proceeds⟩

theorem InputSystem.Sound.processed (divides : num ∣ 2 ^ 16) (small : num ≤ virtqSize)
    (sound : system.Sound num bufs) : system.Processed num bufs := by
  obtain ⟨waiting, used, early, late, tracked⟩ := id sound
  refine ⟨tracked.buffers, tracked.records, ?_, fun outside head => tracked.inFlight outside,
    sound.returns divides small⟩
  have count := tracked.count
  have taken : system.virtq.popped.length - system.phase.unhandled.toList.length =
      early.length := by omega
  rw [tracked.handled, taken, tracked.delivered, List.take_left]

theorem inputBoot_tracked (layout : VirtqLayout) (desc : Nat → VirtqDesc) (avail : VirtqAvail)
    (used : VirtqUsed) (memory : Word → VirtioInputEvent) (positive : 0 < num)
    (small : num ≤ virtqSize) :
    (InputSystem.boot (virtqInit layout num desc avail used) memory).Sound num bufs := by
  have start := virtqInit_tracked layout desc avail used positive small
  rw [List.range_eq_range'] at start
  refine ⟨[], [], [], [], start, ?_, rfl, rfl, rfl, rfl, .nil, ?_, fun popping => by cases popping⟩
  · exact fun head submitted => absurd submitted List.not_mem_nil
  · exact fun head owned => absurd owned List.not_mem_nil

/-- A queue as `virtq_setup` leaves it, with a power of two of descriptors. -/
def Virtq.SetUp (num : Nat) (vq : Virtq) : Prop :=
  ∃ pagesAlloc desc avail used version size maxSize order,
    virtqSetup pagesAlloc desc avail used version size maxSize = some vq ∧
      queueSize size maxSize = num ∧ num = 2 ^ order ∧ num ≤ virtqSize

theorem Virtq.SetUp.boot {vq : Virtq} (setup : vq.SetUp num) (bufs : Word)
    (memory : Word → VirtioInputEvent) :
    num ∣ 2 ^ 16 ∧ num ≤ virtqSize ∧ (InputSystem.boot vq memory).Sound num bufs := by
  obtain ⟨_, _, _, _, _, _, _, order, leaves, rfl, power, small⟩ := setup
  obtain ⟨layout, rfl⟩ := virtqSetup_init leaves
  exact ⟨queueSize_divides power small, small,
    inputBoot_tracked layout _ _ _ memory (power ▸ Nat.two_pow_pos order) small⟩

theorem inputEvents_processed {pagesAlloc : Nat → Option Nat} {desc : Nat → VirtqDesc}
    {avail : VirtqAvail} {used : VirtqUsed} {version : BitVec 32} {size maxSize order : Nat}
    {vq : Virtq} (setup : virtqSetup pagesAlloc desc avail used version size maxSize = some vq)
    (power : queueSize size maxSize = 2 ^ order) (small : queueSize size maxSize ≤ virtqSize)
    (bufs : Word) (memory : Word → VirtioInputEvent) (actions : List InputAction) :
    Transition.EveryState (InputSystem.step bufs)
        (InputSystem.Processed (queueSize size maxSize) bufs) (.boot vq memory) actions ∧
      Transition.EveryStep (InputSystem.step bufs) InputSystem.StepProcesses (.boot vq memory)
        actions := by
  have setUp : vq.SetUp (queueSize size maxSize) :=
    ⟨_, _, _, _, _, _, _, _, setup, rfl, power, small⟩
  obtain ⟨divides, small, start⟩ := setUp.boot bufs memory
  have keeps : ∀ (system : InputSystem) action after,
      system.Sound (queueSize size maxSize) bufs → system.step bufs action = some after →
      after.Sound (queueSize size maxSize) bufs ∧ system.StepProcesses action after := by
    rintro system action after ⟨waiting, used, early, late, tracked⟩ stepped
    exact tracked.step divides small stepped
  refine ⟨(Transition.everyState_of_invariant ?_ start actions).mono ?_,
    Transition.everyStep_of_invariant keeps start actions⟩
  · exact fun system action after before stepped => (keeps system action after before stepped).1
  · exact fun system sound => sound.processed divides small

/-- A queue of two descriptors. -/
def pairQueue : Virtq :=
  virtqInit (modernLayout 2 0) 2 (fun _ => ⟨0, 0, 0, 0⟩) ⟨0, 0, fun _ => 0⟩ ⟨0, 0, fun _ => ⟨0, 0⟩⟩

theorem pairQueue_setUp : pairQueue.SetUp 2 :=
  ⟨fun _ => some 0, fun _ => ⟨0, 0, 0, 0⟩, ⟨0, 0, fun _ => 0⟩, ⟨0, 0, fun _ => ⟨0, 0⟩⟩, 2, virtqSize,
    2, 1, rfl, rfl, rfl, by decide⟩

/-- The device returns the second buffer with a key press, and the driver drains the queue. -/
def keyPressDrained : List InputAction := .refillEventQueue :: List.replicate 17 .driver ++
  [.fetch, .fetch, .write 1 ⟨1, 30, 1⟩, .publish 1 8, .drainEvents] ++ List.replicate 5 .driver

theorem inputEvents_processed_keyPress :
    (∃ final, Transition.exec (InputSystem.step 0x1000) (.boot pairQueue fun _ => ⟨0, 0, 0⟩)
        keyPressDrained = some final ∧ final.phase = .outside ∧ final.handled = [⟨1, 30, 1⟩] ∧
        final.virtq.submitted = [0, 1, 1]) ∧
      Transition.EveryState (InputSystem.step 0x1000) (InputSystem.Processed 2 0x1000)
        (.boot pairQueue fun _ => ⟨0, 0, 0⟩) keyPressDrained ∧
      Transition.EveryStep (InputSystem.step 0x1000) InputSystem.StepProcesses
        (.boot pairQueue fun _ => ⟨0, 0, 0⟩) keyPressDrained := by
  have setup : virtqSetup (fun _ => some 0) (fun _ => ⟨0, 0, 0, 0⟩) ⟨0, 0, fun _ => 0⟩
      ⟨0, 0, fun _ => ⟨0, 0⟩⟩ 2 virtqSize 2 = some pairQueue := rfl
  have power : queueSize virtqSize 2 = 2 ^ 1 := rfl
  have ends : (Transition.exec (InputSystem.step 0x1000) (.boot pairQueue fun _ => ⟨0, 0, 0⟩)
      keyPressDrained).any (fun final => decide (final.phase = .outside ∧
        final.handled = [⟨1, 30, 1⟩] ∧ final.virtq.submitted = [0, 1, 1])) = true := by
    decide +kernel
  obtain ⟨final, run, outcome⟩ := (Option.any_eq_true _ _).mp ends
  exact ⟨⟨final, run, of_decide_eq_true outcome⟩,
    inputEvents_processed setup power (by decide) 0x1000 _ keyPressDrained⟩

end DragoonKernel
