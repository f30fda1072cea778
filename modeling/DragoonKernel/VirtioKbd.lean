import DragoonKernel.VirtioKbdCore
import DragoonKernel.VirtioInput

/-!
Keystrokes are returned in the order of their events. A key is lost only when it arrives
while the ring is full.
-/

namespace DragoonKernel

/-- The key for a press or a repeat, and 0 for any other event. -/
def kbdTranslation (shift : Bool) (ev : VirtioInputEvent) : Int :=
  if ev.type = evKey ∧ ev.code ≠ 42 ∧ ev.code ≠ 54 ∧ ev.value ≠ 0 ∧ ev.code < 128 then
    if shift ∧ shiftTable.get ev.code ≠ 0 then shiftTable.get ev.code
    else keycodeTable.get ev.code
  else 0

def shiftAfter (shift : Bool) (ev : VirtioInputEvent) : Bool :=
  if ev.type = evKey ∧ (ev.code = 42 ∨ ev.code = 54) then ev.value ≠ 0 else shift

/-- The translations of the events that found room in the ring. -/
def acceptedKeys : Bool → List Arrival → List Int
  | _, [] => []
  | shift, arrival :: rest =>
      let key := kbdTranslation shift arrival.event
      (if key ≠ 0 ∧ arrival.held ≠ keyRingSize - 1 then [key] else []) ++
        acceptedKeys (shiftAfter shift arrival.event) rest

/-- The step that returns from `virtio_kbd_poll`. Without an active device it is the whole call. -/
def KbdSystem.EndsPoll (system : KbdSystem) (action : InputAction) (after : KbdSystem) : Prop :=
  if system.active then system.input.EndsDrain after.input else action = .drainEvents

/-- The rest of the call that is running, or the next call when none is, with `count` steps of the
driver before the one that returns. -/
def KbdSystem.rest (system : KbdSystem) (count : Nat) : List InputAction :=
  if system.active then system.input.phase.call ++ List.replicate (count + 1) .driver
  else [.drainEvents]

/-- The call has returned with nothing done by the device. Only `refill_event_queue` returns no
key. -/
structure KbdSystem.Returned (before after : KbdSystem) : Prop where
  outside : before.active = true → after.input.phase = .outside
  delivered : after.input.delivered = before.input.delivered
  refilled : before.active = true → before.input.phase.refills = true →
    after.returned = before.returned
  polled : (before.active = true → before.input.phase.refills = false) →
    ∃ key, after.returned = before.returned ++ [key]

structure KbdSystem.Delivers (bufs : Word) (system : KbdSystem) : Prop where
  events : system.arrivals.map Arrival.event = system.input.handled
  keys : (system.returned.filter fun key => key ≠ keyNone) ++ system.kbd.keys.stored =
    acceptedKeys false system.arrivals
  returns : ∃ count ≤ system.input.stepsLeft, ∃ final,
    Transition.exec (KbdSystem.step bufs) system (system.rest count) = some final ∧
      system.Returned final

/-- The end of a poll returns the oldest key stored, and `KEY_NONE` if no key is stored and only
then. No other step returns a key or takes one out of the ring. -/
structure KbdSystem.StepDelivers (system : KbdSystem) (action : InputAction) (after : KbdSystem) :
    Prop where
  polled : system.EndsPoll action after →
    after.returned = system.returned ++ [system.kbd.keys.stored.headD keyNone] ∧
      after.kbd.keys.stored = system.kbd.keys.stored.tail
  none : system.EndsPoll action after →
    (system.kbd.keys.stored.headD keyNone = keyNone ↔ system.kbd.keys.stored = [])
  quiet : ¬system.EndsPoll action after →
    after.returned = system.returned ∧ system.kbd.keys.stored <+: after.kbd.keys.stored

/-- A poll of a device that is active ends with every event handled that it has delivered. -/
def KbdSystem.StepDrains (system : KbdSystem) (_ : InputAction) (after : KbdSystem) : Prop :=
  system.active = true → system.input.EndsDrain after.input →
    (after.arrivals.map fun arrival => some arrival.event) = passedEvents after.input.delivered

def shiftHeldAfter (arrivals : List Arrival) : Bool :=
  (arrivals.map Arrival.event).foldl shiftAfter false

structure KeyRing.Sound (keys : KeyRing) : Prop where
  head : keys.head < keyRingSize
  tail : keys.tail < keyRingSize
  pressed : ∀ key ∈ keys.stored, key ≠ keyNone

structure KbdSystem.Sound (system : KbdSystem) : Prop where
  events : system.arrivals.map Arrival.event = system.input.handled
  keys : (system.returned.filter fun key => key ≠ keyNone) ++ system.kbd.keys.stored =
    acceptedKeys false system.arrivals
  ring : system.kbd.keys.Sound
  shift : system.kbd.shiftHeld = shiftHeldAfter system.arrivals

/-- The keyboard on a queue that `virtq_setup` has set up. -/
structure KbdSystem.Fed (num : Nat) (bufs : Word) (system : KbdSystem) : Prop where
  keyboard : system.Sound
  input : system.input.Sound num bufs

theorem processKbdEvent_eq (kbd : Kbd) (ev : VirtioInputEvent) :
    processKbdEvent kbd ev = {
      keys := if kbdTranslation kbd.shiftHeld ev ≠ 0 then
        keyRingPush kbd.keys (kbdTranslation kbd.shiftHeld ev) else kbd.keys
      shiftHeld := shiftAfter kbd.shiftHeld ev } := by
  unfold processKbdEvent
  split
  next syn =>
    have other : ev.type ≠ evKey := by
      rw [syn]
      decide
    simp [kbdTranslation, shiftAfter, other]
  next =>
    split
    next key =>
      split
      next modifier =>
        have quiet : kbdTranslation kbd.shiftHeld ev = 0 := if_neg fun typed =>
          modifier.elim typed.2.1 typed.2.2.1
        have moved : shiftAfter kbd.shiftHeld ev = decide (ev.value ≠ 0) := if_pos ⟨key, modifier⟩
        rw [quiet, moved]
        rfl
      next plain =>
        have held : shiftAfter kbd.shiftHeld ev = kbd.shiftHeld := if_neg fun typed => plain typed.2
        rw [held]
        split
        next released =>
          have quiet : kbdTranslation kbd.shiftHeld ev = 0 := if_neg fun typed =>
            typed.2.2.2.1 released
          simp [quiet]
        next pressed =>
          split
          next small =>
            have typed : kbdTranslation kbd.shiftHeld ev = _ :=
              if_pos ⟨key, fun left => plain (.inl left), fun right => plain (.inr right), pressed,
                small⟩
            rw [typed]
            dsimp only
            split <;> split <;> rfl
          next large =>
            have quiet : kbdTranslation kbd.shiftHeld ev = 0 := if_neg fun typed =>
              large typed.2.2.2.2
            simp [quiet]
    next other => simp [kbdTranslation, shiftAfter, other]

theorem acceptedKeys_append (first second : List Arrival) (shift : Bool) :
    acceptedKeys shift (first ++ second) = acceptedKeys shift first ++
      acceptedKeys ((first.map Arrival.event).foldl shiftAfter shift) second := by
  induction first generalizing shift with
  | nil => rfl
  | cons arrival rest ih =>
      simp only [List.cons_append, acceptedKeys, ih, List.append_assoc, List.map_cons,
        List.foldl_cons]

theorem shiftHeldAfter_snoc (arrivals : List Arrival) (arrival : Arrival) :
    shiftHeldAfter (arrivals ++ [arrival]) =
      shiftAfter (shiftHeldAfter arrivals) arrival.event := by
  rw [shiftHeldAfter, List.map_append, List.foldl_append]
  rfl

variable {keys : KeyRing}

theorem KeyRing.Sound.push (sound : keys.Sound) {key : Int} (pressed : key ≠ keyNone) :
    (keyRingPush keys key).Sound ∧ (keyRingPush keys key).stored =
      keys.stored ++ if keys.stored.length ≠ keyRingSize - 1 then [key] else [] := by
  have full : (keys.head + 1) % keyRingSize = keys.tail ↔
      keys.stored.length = keyRingSize - 1 := by
    rw [KeyRing.stored, Ring.length_contents]
    exact Ring.full_iff sound.tail sound.head
  unfold keyRingPush
  dsimp only
  split
  next same =>
    refine ⟨sound, ?_⟩
    rw [if_neg (not_not_intro (full.mp same)), List.append_nil]
  next room =>
    have stored := Ring.contents_push keys.ring sound.tail sound.head room key
    refine ⟨⟨Nat.mod_lt _ (by decide), sound.tail, fun other listed => ?_⟩, ?_⟩
    · rw [KeyRing.stored, stored, List.mem_append, List.mem_singleton] at listed
      rcases listed with before | rfl
      · exact sound.pressed other before
      · exact pressed
    · rw [if_pos (fun long => room (full.mpr long))]
      exact stored

theorem KeyRing.Sound.headD_eq (sound : keys.Sound) :
    keys.stored.headD keyNone = keyNone ↔ keys.stored = [] := by
  cases stored : keys.stored with
  | nil => exact iff_of_true rfl rfl
  | cons key rest =>
      have pressed := sound.pressed key (stored ▸ List.mem_cons_self)
      exact iff_of_false pressed (List.cons_ne_nil _ _)

theorem KeyRing.Sound.pop (sound : keys.Sound) :
    (keyRingPop keys).1.Sound ∧ (keyRingPop keys).2 = keys.stored.headD keyNone ∧
      (keyRingPop keys).1.stored = keys.stored.tail := by
  have empty := Ring.contents_eq_nil_iff keys.ring sound.tail sound.head
  unfold keyRingPop
  split
  next same =>
    have none : keys.stored = [] := empty.mpr same.symm
    refine ⟨sound, ?_, ?_⟩ <;> rw [none] <;> rfl
  next some =>
    have stored : keys.stored = _ :=
      Ring.contents_pop keys.ring sound.tail sound.head (Ne.symm some)
    refine ⟨⟨sound.head, Nat.mod_lt _ (by decide), fun key listed => ?_⟩, ?_, ?_⟩
    · exact sound.pressed key (stored ▸ List.mem_cons_of_mem _ listed)
    · rw [stored]
      rfl
    · rw [stored]
      rfl

/-- The handler stores the key of its event when there is room for it. -/
theorem KeyRing.Sound.process {kbd : Kbd} (sound : kbd.keys.Sound) (ev : VirtioInputEvent) :
    (processKbdEvent kbd ev).keys.Sound ∧
      (processKbdEvent kbd ev).keys.stored = kbd.keys.stored ++
        acceptedKeys kbd.shiftHeld [⟨ev, kbd.keys.stored.length⟩] := by
  rw [processKbdEvent_eq]
  simp only [acceptedKeys, List.append_nil]
  by_cases typed : kbdTranslation kbd.shiftHeld ev ≠ 0
  · simp only [ite_and, if_pos typed]
    exact sound.push typed
  · simp only [ite_and, if_neg typed, List.append_nil, and_true]
    exact sound

variable {system : KbdSystem}

theorem KbdSystem.Sound.handle (sound : system.Sound) (event : VirtioInputEvent)
    {input : InputSystem} (handled : input.handled = system.input.handled ++ [event]) :
    KbdSystem.Sound { system.handle event with input := input } ∧
      system.kbd.keys.stored <+: (system.handle event).kbd.keys.stored := by
  obtain ⟨events, keys, ring, shift⟩ := sound
  obtain ⟨processed, stored⟩ := ring.process event
  refine ⟨⟨?_, ?_, processed, ?_⟩, _, stored.symm⟩
  · simp only [KbdSystem.handle, List.map_append, events, handled]
    rfl
  · simp only [KbdSystem.handle]
    rw [acceptedKeys_append, ← keys, stored, List.append_assoc, shift]
    rfl
  · simp only [KbdSystem.handle]
    rw [processKbdEvent_eq, shiftHeldAfter_snoc, shift]

theorem KbdSystem.Sound.pop (sound : system.Sound) {input : InputSystem}
    (handled : input.handled = system.input.handled) :
    KbdSystem.Sound { system.pop with input := input } := by
  obtain ⟨events, keys, ring, shift⟩ := sound
  obtain ⟨popped, key, rest⟩ := ring.pop
  have none := ring.headD_eq
  refine ⟨events.trans handled.symm, ?_, popped, shift⟩
  simp only [KbdSystem.pop]
  rw [← keys, key, rest, List.filter_append, List.append_assoc]
  congr 1
  cases stored : system.kbd.keys.stored with
  | nil => simp
  | cons first later =>
      rw [stored] at none
      have pressed : first ≠ keyNone := fun same => List.cons_ne_nil _ _ (none.mp same)
      simp [pressed]

theorem KbdSystem.Sound.stay (sound : system.Sound) {input : InputSystem}
    (handled : input.handled = system.input.handled) :
    KbdSystem.Sound { system with input := input } :=
  ⟨sound.events.trans handled.symm, sound.keys, sound.ring, sound.shift⟩

theorem KbdSystem.Sound.popDelivers (sound : system.Sound) {action : InputAction}
    {input : InputSystem} (ends : system.EndsPoll action { system.pop with input := input }) :
    system.StepDelivers action { system.pop with input := input } := by
  obtain ⟨_, key, rest⟩ := sound.ring.pop
  refine ⟨fun _ => ⟨?_, rest⟩, fun _ => sound.ring.headD_eq, fun quiet => absurd ends quiet⟩
  simp only [KbdSystem.pop, key]

theorem KbdSystem.stay_delivers {action : InputAction} {after : KbdSystem}
    (quiet : ¬system.EndsPoll action after) (returned : after.returned = system.returned)
    (stored : system.kbd.keys.stored <+: after.kbd.keys.stored) :
    system.StepDelivers action after :=
  ⟨fun ends => absurd ends quiet, fun ends => absurd ends quiet, fun _ => ⟨returned, stored⟩⟩

theorem endsPoll_iff {action : InputAction} {after : KbdSystem} (active : system.active = true) :
    system.EndsPoll action after ↔ system.input.EndsDrain after.input := by
  rw [KbdSystem.EndsPoll, if_pos active]

/-- A step of `drain_events` that calls no handler, the last of which ends the poll. -/
theorem KbdSystem.Sound.drain (sound : system.Sound) (active : system.active = true)
    (action : InputAction) {input : InputSystem} (drains : system.input.phase.drains = true)
    (handled : input.handled = system.input.handled) :
    KbdSystem.Sound { (if input.phase = .outside then system.pop else system) with
        input := input } ∧
      system.StepDelivers action { (if input.phase = .outside then system.pop else system) with
        input := input } := by
  split
  next outside =>
    exact ⟨sound.pop handled, sound.popDelivers ((endsPoll_iff active).mpr ⟨drains, outside⟩)⟩
  next inside =>
    have quiet (ends : system.EndsPoll action { system with input := input }) : False :=
      inside ((endsPoll_iff active).mp ends).2
    exact ⟨sound.stay handled, KbdSystem.stay_delivers quiet rfl (List.prefix_refl _)⟩

theorem kbd_follow {bufs : Word} {action : InputAction} {input : InputSystem}
    (sound : system.Sound) (active : system.active = true)
    (moved : system.input.step bufs action = some input) :
    KbdSystem.Sound { system.follow bufs action input with input := input } ∧
      system.StepDelivers action { system.follow bufs action input with input := input } := by
  unfold KbdSystem.follow
  split
  next elem popped =>
    have quiet {after : KbdSystem} (same : after.input = input) :
        ¬system.EndsPoll .driver after := by
      rw [endsPoll_iff active, same]
      intro ends
      have passed := (InputSystem.endsDrain_cases moved ends).2
      rw [popped] at passed
      rcases passed with impossible | impossible <;> cases impossible
    have called : system.input.driver bufs = some input := moved
    simp only [InputSystem.driver, popped, Option.some.injEq] at called
    split
    next long =>
      obtain ⟨handled, stored⟩ := @KbdSystem.Sound.handle system sound _ input (by
        rw [← called, if_pos long])
      exact ⟨handled, KbdSystem.stay_delivers (quiet rfl) rfl stored⟩
    next short =>
      refine ⟨sound.stay ?_, KbdSystem.stay_delivers (quiet rfl) rfl (List.prefix_refl _)⟩
      rw [← called, if_neg short]
  next checking =>
    refine sound.drain active _ (by rw [checking]; rfl) (InputSystem.handled_of_step moved ?_)
    simp [checking]
  next popping =>
    refine sound.drain active _ (by rw [popping]; rfl) (InputSystem.handled_of_step moved ?_)
    simp [popping]
  next called _ _ idle notChecking notPopping =>
    refine ⟨sound.stay ?_, KbdSystem.stay_delivers ?_ rfl (List.prefix_refl _)⟩
    · exact InputSystem.handled_of_step moved fun driver elem => idle elem driver
    · rw [endsPoll_iff active]
      intro ends
      obtain ⟨driver, checking | popping⟩ := InputSystem.endsDrain_cases moved ends
      · exact notChecking driver checking
      · exact notPopping driver popping

theorem kbd_step {bufs : Word} {action : InputAction} {after : KbdSystem} (sound : system.Sound)
    (stepped : system.step bufs action = some after) :
    after.Sound ∧ system.StepDelivers action after := by
  unfold KbdSystem.step at stepped
  split at stepped
  next active =>
    obtain ⟨input, moved, rfl⟩ := Option.map_eq_some_iff.mp stepped
    exact kbd_follow sound active moved
  next inactive =>
    obtain rfl := Option.some.inj stepped
    refine ⟨sound.pop rfl, @KbdSystem.Sound.popDelivers system sound .drainEvents system.input ?_⟩
    rw [KbdSystem.EndsPoll, if_neg (by rw [inactive]; exact Bool.false_ne_true)]
  next => cases stepped

theorem kbdBoot_sound (vq : Virtq) (memory : Word → VirtioInputEvent) (active : Bool) :
    (KbdSystem.boot (.boot vq memory) active).Sound := by
  have room : 0 < keyRingSize := by decide
  have empty : (KbdSystem.boot (.boot vq memory) active).kbd.keys.stored = [] :=
    (Ring.contents_eq_nil_iff _ room room).mpr rfl
  refine ⟨rfl, ?_, ⟨room, room, fun key listed => ?_⟩, rfl⟩
  · rw [empty]
    rfl
  · rw [empty] at listed
    exact absurd listed List.not_mem_nil

theorem KbdSystem.follow_active (system : KbdSystem) (bufs : Word) (action : InputAction)
    (input : InputSystem) : (system.follow bufs action input).active = system.active := by
  unfold KbdSystem.follow
  split
  · split <;> rfl
  · split <;> rfl
  · split <;> rfl
  · rfl

theorem KbdSystem.step_active {bufs : Word} {action : InputAction} {input : InputSystem}
    (active : system.active = true) (moved : system.input.step bufs action = some input) :
    system.step bufs action = some { system.follow bufs action input with input := input } := by
  simp only [KbdSystem.step, active, moved, Option.map_some]

/-- Between `system` and the return of its call. -/
structure KbdSystem.Underway (system current : KbdSystem) : Prop where
  sound : current.Sound
  active : current.active = true
  refills : current.input.phase.refills = system.input.phase.refills
  delivered : current.input.delivered = system.input.delivered
  returned : current.returned = system.returned

theorem KbdSystem.Underway.proceed {bufs : Word} {action : InputAction} {current : KbdSystem}
    {input : InputSystem} (underway : system.Underway current) (active : system.active = true)
    (moved : current.input.step bufs action = some input)
    (proceeds : current.input.Proceeds input) :
    ∃ after, current.step bufs action = some after ∧ after.input = input ∧
      (input.phase = .outside → current.input.phase ≠ .outside → system.Returned after) ∧
      (input.phase ≠ .outside → system.Underway after) := by
  obtain ⟨sound, stillActive, refills, delivered, returned⟩ := underway
  obtain ⟨kept, delivers⟩ := kbd_follow sound stillActive moved
  have alsoDelivered := proceeds.delivered.trans delivered
  refine ⟨_, KbdSystem.step_active stillActive moved, rfl, fun outside running => ?_,
    fun inside => ?_⟩
  · refine ⟨fun _ => outside, alsoDelivered, fun _ filling => ?_, fun filled => ?_⟩
    · refine (delivers.quiet ?_).1.trans returned
      rw [endsPoll_iff stillActive]
      intro ends
      have filled := InputPhase.refills_of_drains ends.1
      exact Bool.noConfusion (filled.symm.trans (refills.trans filling))
    · have drains := InputPhase.drains_of_running running (refills.trans (filled active))
      have ends := (delivers.polled ((endsPoll_iff stillActive).mpr ⟨drains, outside⟩)).1
      exact ⟨_, returned ▸ ends⟩
  · have quiet := (delivers.quiet fun ends => inside ((endsPoll_iff stillActive).mp ends).2).1
    have same := proceeds.refills.resolve_left inside
    exact ⟨kept, (current.follow_active bufs action input).trans stillActive, same.trans refills,
      alsoDelivered, quiet.trans returned⟩

theorem KbdSystem.Sound.returns (sound : system.Sound) (bufs : Word) :
    ∃ count ≤ system.input.stepsLeft, ∃ final,
      Transition.exec (KbdSystem.step bufs) system (system.rest count) = some final ∧
        system.Returned final := by
  unfold KbdSystem.rest
  cases active : system.active with
  | true =>
      have start : system.Underway system := ⟨sound, active, rfl, rfl, rfl⟩
      refine InputSystem.returns_of_proceed bufs KbdSystem.input
        (fun current action next underway moved proceeds => ?_) start
      exact underway.proceed active moved proceeds
  | false =>
      have polls : system.step bufs .drainEvents = some system.pop := by
        simp [KbdSystem.step, active]
      refine ⟨0, Nat.zero_le _, system.pop, Transition.exec_cons_iff.mpr ⟨_, polls, rfl⟩, ?_⟩
      exact ⟨fun stillActive => Bool.noConfusion (active.symm.trans stillActive), rfl,
        fun stillActive => Bool.noConfusion (active.symm.trans stillActive), fun _ => ⟨_, rfl⟩⟩

theorem kbd_step_input {bufs : Word} {action : InputAction} {after : KbdSystem}
    (stepped : system.step bufs action = some after) :
    after.input = system.input ∨ system.input.step bufs action = some after.input := by
  unfold KbdSystem.step at stepped
  split at stepped
  next =>
    obtain ⟨input, moved, rfl⟩ := Option.map_eq_some_iff.mp stepped
    exact .inr moved
  next =>
    obtain rfl := Option.some.inj stepped
    exact .inl rfl
  next => cases stepped

/-- The events that reach the keyboard's handler are those that its device has delivered. -/
theorem kbdEvents_processed {num : Nat} {vq : Virtq} (setup : vq.SetUp num) (bufs : Word)
    (memory : Word → VirtioInputEvent) (active : Bool) (actions : List InputAction) :
    Transition.EveryState (KbdSystem.step bufs) (fun system => system.input.Processed num bufs)
        (.boot (.boot vq memory) active) actions ∧
      Transition.EveryStep (KbdSystem.step bufs) KbdSystem.StepDrains
        (.boot (.boot vq memory) active) actions := by
  obtain ⟨divides, small, input⟩ := setup.boot bufs memory
  have keeps : ∀ (system : KbdSystem) action after, system.Fed num bufs →
      system.step bufs action = some after →
      after.Fed num bufs ∧ system.StepDrains action after := by
    rintro system action after ⟨sound, waiting, used, early, late, tracked⟩ stepped
    have kept := (kbd_step sound stepped).1
    rcases kbd_step_input stepped with same | moved
    · refine ⟨⟨kept, same ▸ ⟨waiting, used, early, late, tracked⟩⟩, fun _ ends => ?_⟩
      rw [same] at ends
      have drains := ends.1
      rw [ends.2] at drains
      cases drains
    · obtain ⟨inputKept, processes⟩ := tracked.step divides small moved
      refine ⟨⟨kept, inputKept⟩, fun _ ends => ?_⟩
      have drained := processes.drained ends
      rw [← kept.events, List.map_map] at drained
      exact drained
  have start : KbdSystem.Fed num bufs (.boot (.boot vq memory) active) :=
    ⟨kbdBoot_sound vq memory active, input⟩
  refine ⟨(Transition.everyState_of_invariant ?_ start actions).mono ?_,
    Transition.everyStep_of_invariant keeps start actions⟩
  · exact fun system action after sound stepped => (keeps system action after sound stepped).1
  · exact fun system fed => fed.input.processed divides small

theorem keystrokes_delivered (bufs : Word) (vq : Virtq) (memory : Word → VirtioInputEvent)
    (active : Bool) (actions : List InputAction) :
    Transition.EveryState (KbdSystem.step bufs) (KbdSystem.Delivers bufs)
        (.boot (.boot vq memory) active) actions ∧
      Transition.EveryStep (KbdSystem.step bufs) KbdSystem.StepDelivers
        (.boot (.boot vq memory) active) actions ∧
      ∀ num, vq.SetUp num →
        Transition.EveryState (KbdSystem.step bufs)
            (fun system => system.input.Processed num bufs)
            (.boot (.boot vq memory) active) actions ∧
          Transition.EveryStep (KbdSystem.step bufs) KbdSystem.StepDrains
            (.boot (.boot vq memory) active) actions := by
  have start := kbdBoot_sound vq memory active
  refine ⟨(Transition.everyState_of_invariant ?_ start actions).mono ?_,
    Transition.everyStep_of_invariant ?_ start actions,
    fun num setup => kbdEvents_processed setup bufs memory active actions⟩
  · exact fun system action after sound stepped => (kbd_step sound stepped).1
  · exact fun system sound => ⟨sound.events, sound.keys, sound.returns bufs⟩
  · exact fun system action after sound stepped => kbd_step sound stepped

/-- After the key press has been drained the keyboard is polled once more. -/
def keyPressPolled : List InputAction := keyPressDrained ++ [.drainEvents, .driver]

theorem keystrokes_delivered_keyPress :
    (∃ final, Transition.exec (KbdSystem.step 0x1000)
        (.boot (.boot pairQueue fun _ => ⟨0, 0, 0⟩) true) keyPressPolled = some final ∧
      final.input.phase = .outside ∧ final.returned = [ascii 'a', keyNone]) ∧
    Transition.EveryState (KbdSystem.step 0x1000) (KbdSystem.Delivers 0x1000)
      (.boot (.boot pairQueue fun _ => ⟨0, 0, 0⟩) true) keyPressPolled ∧
    Transition.EveryStep (KbdSystem.step 0x1000) KbdSystem.StepDelivers
      (.boot (.boot pairQueue fun _ => ⟨0, 0, 0⟩) true) keyPressPolled ∧
    Transition.EveryStep (KbdSystem.step 0x1000) KbdSystem.StepDrains
      (.boot (.boot pairQueue fun _ => ⟨0, 0, 0⟩) true) keyPressPolled := by
  obtain ⟨delivers, stepDelivers, processes⟩ :=
    keystrokes_delivered 0x1000 pairQueue (fun _ => ⟨0, 0, 0⟩) true keyPressPolled
  have ends : (Transition.exec (KbdSystem.step 0x1000)
      (.boot (.boot pairQueue fun _ => ⟨0, 0, 0⟩) true) keyPressPolled).any (fun final =>
        decide (final.input.phase = .outside ∧ final.returned = [ascii 'a', keyNone])) = true := by
    decide +kernel
  obtain ⟨final, run, outcome⟩ := (Option.any_eq_true _ _).mp ends
  exact ⟨⟨final, run, of_decide_eq_true outcome⟩, delivers, stepDelivers,
    (processes 2 pairQueue_setUp).2⟩

end DragoonKernel
