import DragoonKernel.VirtioKbd

/-!
Which table a key is translated through. One flag stands for the two shift keys, so it follows
the last of their events and not the keys themselves.
-/

namespace DragoonKernel

/-- The keyboard after `virtio_input_init`, which leaves the slots of the ring as they are. -/
def kbdInit (ring : Nat → Int) : Kbd := ⟨⟨ring, 0, 0⟩, false⟩

/-- The keyboard and the events it has handled, the last one first. -/
structure KeyHistory where
  kbd : Kbd
  past : List VirtioInputEvent

def KeyHistory.start (ring : Nat → Int) : KeyHistory := ⟨kbdInit ring, []⟩

def KeyHistory.step (history : KeyHistory) (ev : VirtioInputEvent) : Option KeyHistory :=
  some ⟨processKbdEvent history.kbd ev, ev :: history.past⟩

def VirtioInputEvent.IsKey (ev : VirtioInputEvent) (code : BitVec 16) : Bool :=
  ev.type = evKey ∧ ev.code = code

def VirtioInputEvent.IsShift (ev : VirtioInputEvent) : Bool := ev.IsKey 42 || ev.IsKey 54

/-- A press or a repeat of a key that has a shifted symbol. -/
def VirtioInputEvent.Shiftable (ev : VirtioInputEvent) : Prop :=
  ev.type = evKey ∧ ev.value ≠ 0 ∧ shiftTable.get ev.code ≠ 0

/-- The last event of the key was a press or a repeat. -/
def keyHeld (past : List VirtioInputEvent) (code : BitVec 16) : Bool :=
  (past.find? fun ev => ev.IsKey code).any fun ev => ev.value ≠ 0

def shiftKeyHeld (past : List VirtioInputEvent) : Bool := keyHeld past 42 || keyHeld past 54

/-- Each key is pressed when it is up, and repeats and is released when it is down. -/
def KeyHistory.Alternates (history : KeyHistory) (ev : VirtioInputEvent) : Bool :=
  ev.type = evKey →
    ev.value = 1 ∧ keyHeld history.past ev.code = false ∨
      (ev.value = 0 ∨ ev.value = 2) ∧ keyHeld history.past ev.code = true

/-- The key that goes to the ring is the one of `shift_table`, whatever the ring holds. -/
def Kbd.ThroughShiftTable (kbd : Kbd) (ev : VirtioInputEvent) : Prop :=
  ∀ keys, processKbdEvent { kbd with keys := keys } ev =
    { kbd with keys := keyRingPush keys (shiftTable.get ev.code) }

def KeyHistory.ShiftFollowsKeys (history : KeyHistory) (ev : VirtioInputEvent)
    (_ : KeyHistory) : Prop :=
  ev.Shiftable → (history.kbd.ThroughShiftTable ev ↔ shiftKeyHeld history.past = true)

/-- The last event of the shift keys was the release of one of them, and the other one is
still down. -/
def OtherShiftHeld (past : List VirtioInputEvent) : Prop :=
  (∃ ev, past.find? VirtioInputEvent.IsShift = some ev ∧ ev.value = 0) ∧ shiftKeyHeld past = true

def KeyHistory.ShiftsOneByOne (history : KeyHistory) (ev : VirtioInputEvent)
    (_ : KeyHistory) : Prop :=
  ev.Shiftable → ¬OtherShiftHeld history.past

def lastShiftDown (past : List VirtioInputEvent) : Bool :=
  (past.find? VirtioInputEvent.IsShift).any fun ev => ev.value ≠ 0

/-- The flag says where the last event of a shift key has left that key. -/
def KeyHistory.Flagged (history : KeyHistory) : Prop :=
  history.kbd.shiftHeld = lastShiftDown history.past

variable {ev : VirtioInputEvent} {past : List VirtioInputEvent} {code : BitVec 16}

theorem isKey_iff : ev.IsKey code = true ↔ ev.type = evKey ∧ ev.code = code := decide_eq_true_iff

theorem isShift_iff :
    ev.IsShift = true ↔ ev.type = evKey ∧ (ev.code = 42 ∨ ev.code = 54) := by
  rw [VirtioInputEvent.IsShift, Bool.or_eq_true, isKey_iff, isKey_iff]
  exact and_or_left.symm

theorem shiftAfter_lastShiftDown (past : List VirtioInputEvent) (ev : VirtioInputEvent) :
    shiftAfter (lastShiftDown past) ev = lastShiftDown (ev :: past) := by
  unfold shiftAfter
  split
  next modifier => simp [lastShiftDown, List.find?_cons_of_pos, isShift_iff.mpr modifier]
  next other =>
    have skipped : ¬ev.IsShift = true := fun shift => other (isShift_iff.mp shift)
    rw [lastShiftDown, lastShiftDown, List.find?_cons_of_neg skipped]

/-- The last event of the two shift keys is the last event of its own key. -/
theorem find?_isKey_of_isShift (last : past.find? VirtioInputEvent.IsShift = some ev) :
    past.find? (fun event => event.IsKey ev.code) = some ev := by
  obtain ⟨shift, before, rest, rfl, others⟩ := List.find?_eq_some_iff_append.mp last
  obtain ⟨key, code⟩ := isShift_iff.mp shift
  refine List.find?_eq_some_iff_append.mpr ⟨isKey_iff.mpr ⟨key, rfl⟩, before, rest, rfl,
    fun event listed => ?_⟩
  have other : ¬event.IsShift = true := by simpa using others event listed
  have apart : ¬event.IsKey ev.code = true := by
    intro same
    obtain ⟨key, same⟩ := isKey_iff.mp same
    exact other (isShift_iff.mpr ⟨key, same ▸ code⟩)
  simpa using apart

theorem shiftKeyHeld_of_lastShiftDown (down : lastShiftDown past = true) :
    shiftKeyHeld past = true := by
  obtain ⟨ev, last, pressed⟩ := (Option.any_eq_true _ _).mp down
  have held : keyHeld past ev.code = true := by
    rw [keyHeld, find?_isKey_of_isShift last]
    exact pressed
  obtain ⟨_, left | right⟩ := isShift_iff.mp (List.find?_some last)
  · rw [shiftKeyHeld, ← left, held, Bool.true_or]
  · rw [shiftKeyHeld, ← right, held, Bool.or_true]

/-- A shift key that is held while the flag is down has outlasted the other one. -/
theorem otherShiftHeld_iff :
    OtherShiftHeld past ↔ lastShiftDown past = false ∧ shiftKeyHeld past = true := by
  refine and_congr_left fun held => ?_
  constructor
  · rintro ⟨ev, last, released⟩
    rw [lastShiftDown, last, Option.any_some, released]
    rfl
  · intro up
    cases last : past.find? VirtioInputEvent.IsShift with
    | some ev =>
        rw [lastShiftDown, last] at up
        exact ⟨ev, rfl, by simpa using up⟩
    | none =>
        have absent : ∀ code : BitVec 16, code = 42 ∨ code = 54 → keyHeld past code = false := by
          intro code shift
          have unseen : past.find? (fun ev => ev.IsKey code) = none := by
            refine List.find?_eq_none.mpr fun event listed same => ?_
            obtain ⟨key, rfl⟩ := isKey_iff.mp same
            exact List.find?_eq_none.mp last event listed (isShift_iff.mpr ⟨key, shift⟩)
          rw [keyHeld, unseen]
          rfl
        rw [shiftKeyHeld, absent 42 (.inl rfl), absent 54 (.inr rfl)] at held
        cases held

theorem KeyTable.listed {table : KeyTable} (symbol : table.get code ≠ 0) :
    (code.toNat, table.get code) ∈ table := by
  cases found : table.lookup code.toNat with
  | none =>
      rw [KeyTable.get, found] at symbol
      exact absurd rfl symbol
  | some key =>
      obtain ⟨before, rest, same, _⟩ := List.lookup_eq_some_iff.mp found
      have value : table.get code = key := by
        rw [KeyTable.get, found]
        rfl
      rw [value]
      exact same ▸ List.mem_append_right before List.mem_cons_self

/-- Each entry of `shift_table` is about a plain key and changes its symbol. -/
theorem shiftTable_entries : ∀ entry ∈ shiftTable,
    entry.1 < 128 ∧ entry.1 ≠ 42 ∧ entry.1 ≠ 54 ∧
      (keycodeTable.lookup entry.1).getD 0 ≠ 0 ∧
        (keycodeTable.lookup entry.1).getD 0 ≠ entry.2 := by decide

theorem kbdTranslation_shiftable (shiftable : ev.Shiftable) (shift : Bool) :
    kbdTranslation shift ev =
        (if shift then shiftTable.get ev.code else keycodeTable.get ev.code) ∧
      shiftAfter shift ev = shift := by
  obtain ⟨key, pressed, symbol⟩ := shiftable
  obtain ⟨below, notLeft, notRight, _⟩ := shiftTable_entries _ (KeyTable.listed symbol)
  have left : ev.code ≠ 42 := fun same => notLeft (congrArg BitVec.toNat same)
  have right : ev.code ≠ 54 := fun same => notRight (congrArg BitVec.toNat same)
  constructor
  · rw [kbdTranslation, if_pos ⟨key, left, right, pressed, BitVec.lt_def.mpr below⟩]
    simp only [symbol, ne_eq, not_false_iff, and_true]
  · exact if_neg fun modifier => modifier.2.elim left right

/-- An empty ring shows which key was pushed. -/
theorem keyRingPush_injective {key other : Int}
    (same : keyRingPush ⟨fun _ => 0, 0, 0⟩ key = keyRingPush ⟨fun _ => 0, 0, 0⟩ other) :
    key = other := congrArg (fun keys => keys.ring 0) same

theorem throughShiftTable_iff {kbd : Kbd} (shiftable : ev.Shiftable) :
    kbd.ThroughShiftTable ev ↔ kbd.shiftHeld = true := by
  obtain ⟨key, same⟩ := kbdTranslation_shiftable shiftable kbd.shiftHeld
  obtain ⟨_, _, symbol⟩ := shiftable
  obtain ⟨_, _, _, typed, changed⟩ := shiftTable_entries _ (KeyTable.listed symbol)
  change keycodeTable.get ev.code ≠ 0 at typed
  constructor
  · intro through
    by_contra up
    have pushed := through ⟨fun _ => 0, 0, 0⟩
    rw [processKbdEvent_eq] at pushed
    rw [key, if_neg up, if_pos typed] at pushed
    exact changed (keyRingPush_injective (congrArg Kbd.keys pushed))
  · intro down keys
    rw [processKbdEvent_eq]
    simp only [key, same, if_pos down, if_pos symbol]

theorem KeyHistory.Flagged.step {history after : KeyHistory} (flagged : history.Flagged)
    (stepped : history.step ev = some after) : after.Flagged := by
  obtain rfl := Option.some.inj stepped
  rw [KeyHistory.Flagged, processKbdEvent_eq, flagged]
  exact shiftAfter_lastShiftDown history.past ev

theorem KeyHistory.Flagged.follows_iff {history : KeyHistory} (flagged : history.Flagged)
    (after : KeyHistory) :
    history.ShiftFollowsKeys ev after ↔ history.ShiftsOneByOne ev after := by
  refine forall_congr' fun shiftable => ?_
  rw [throughShiftTable_iff shiftable, flagged, otherShiftHeld_iff]
  cases down : lastShiftDown history.past with
  | true => simp [shiftKeyHeld_of_lastShiftDown down]
  | false => simp

/-- Whether or not the events of each key alternate. -/
theorem shiftFollowsKeys_iff_shiftsOneByOne (ring : Nat → Int) (events : List VirtioInputEvent) :
    Transition.EveryStep KeyHistory.step KeyHistory.ShiftFollowsKeys (.start ring) events ↔
      Transition.EveryStep KeyHistory.step KeyHistory.ShiftsOneByOne (.start ring) events := by
  have start : (KeyHistory.start ring).Flagged := rfl
  refine Transition.everyStep_iff_everyStep ?_ ?_ start events
  · exact fun history ev after flagged stepped single =>
      ⟨flagged.step stepped, (flagged.follows_iff after).mpr single⟩
  · exact fun history ev after flagged _ both follows =>
      both ((flagged.follows_iff after).mp follows)

/-- Both shift keys go down, the left one is released and a letter is pressed. -/
def oneShiftReleased : List VirtioInputEvent :=
  [⟨evKey, 42, 1⟩, ⟨evKey, 54, 1⟩, ⟨evKey, 42, 0⟩, ⟨evKey, 30, 1⟩]

theorem not_shiftFollowsKeys :
    Transition.checkSteps KeyHistory.step KeyHistory.Alternates (.start fun _ => 0)
        oneShiftReleased = true ∧
      ¬Transition.EveryStep KeyHistory.step KeyHistory.ShiftFollowsKeys (.start fun _ => 0)
        oneShiftReleased := by
  refine ⟨by decide, fun follows => ?_⟩
  have run : Transition.exec KeyHistory.step (.start fun _ => 0) (oneShiftReleased.take 3) =
    some ⟨kbdInit fun _ => 0, (oneShiftReleased.take 3).reverse⟩ := by rfl
  have letter : VirtioInputEvent.Shiftable ⟨evKey, 30, 1⟩ := ⟨rfl, by decide, by decide⟩
  have through := (Transition.EveryStep.snoc follows run rfl letter).mpr (by decide)
  cases (throughShiftTable_iff letter).mp through

end DragoonKernel
