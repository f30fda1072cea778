import DragoonKernel.VirtioNamesCore
import DragoonKernel.Library.Transition
import Mathlib.Data.List.Infix
import Mathlib.Data.List.TakeWhile

/-!
By which name each input device is classified, and when it is the device's own.
-/

namespace DragoonKernel

def InputDevice.reportedName (dev : InputDevice) : List (BitVec 8) :=
  (List.range dev.size.toNat).map dev.data

/-- The name contains `keyboard` in any letter case. -/
def HasKeyboard (name : List (BitVec 8)) : Prop := cString "keyboard" <:+: name.map lowercase

instance (name : List (BitVec 8)) : Decidable (HasKeyboard name) :=
  inferInstanceAs (Decidable (_ <:+: _))

/-- The place of the last device in the list of which `holds` is true. -/
def LastWith (holds : InputDevice → Prop) (devices : List InputDevice) (place : Nat) : Prop :=
  ∃ before dev after, devices = before ++ dev :: after ∧ before.length = place ∧ holds dev ∧
    ∀ later ∈ after, ¬holds later

structure InputProbe.Chosen (probe : InputProbe) : Prop where
  keyboard : ∀ place, probe.kbdDev = some place ↔
    LastWith (fun dev => HasKeyboard dev.reportedName) probe.seen place
  pointer : ∀ place, probe.tabletDev = some place ↔
    LastWith (fun dev => ¬HasKeyboard dev.reportedName) probe.seen place

/-- What the query leaves in the buffer, when the size is one that it accepts. -/
def InputDevice.readName (dev : InputDevice) : Option (List (BitVec 8)) :=
  if 0 < dev.size.toNat ∧ dev.size.toNat ≤ 128 then
    some ((dev.reportedName.take (nameSize - 1)).takeWhile fun c => c ≠ 0)
  else none

/-- What the test of the loop says of a device: whether it is a keyboard. -/
def InputProbe.classOf (probe : InputProbe) (dev : InputDevice) : Option Bool :=
  namesKeyboard (queryInputName dev probe.name nameSize).1

/-- Some devices have been seen, after something was left on the stack. -/
def InputProbe.Reached (probe : InputProbe) : Prop :=
  ∃ leftover before, Transition.exec InputProbe.step (.start leftover) before = some probe

/-- The class of the device is the same whatever devices come before it and whatever was left on
the stack. -/
def InputDevice.ClassedAlone (dev : InputDevice) : Prop :=
  ∀ first second : InputProbe, first.Reached → second.Reached →
    first.classOf dev = second.classOf dev

/-- The device has a name that can be read, and what is read of it contains `keyboard` if the name
does and only then. -/
def InputDevice.HasOwnName (dev : InputDevice) : Prop :=
  ∃ name, dev.readName = some name ∧ (HasKeyboard name ↔ HasKeyboard dev.reportedName)

section Search

variable {text needle tail : List (BitVec 8)}

theorem matchHere_eq (visible : ∀ c ∈ text, c ≠ 0) :
    matchHere (text ++ 0 :: tail) needle =
      some (decide (needle.map lowercase <+: text.map lowercase)) := by
  induction needle generalizing text with
  | nil => simp [matchHere]
  | cons n needle ih =>
      cases text with
      | nil => simp [matchHere]
      | cons h text =>
          have here : h ≠ 0 := visible h List.mem_cons_self
          rw [List.cons_append, matchHere, if_neg here]
          by_cases same : lowercase h = lowercase n
          · rw [if_neg (not_not_intro same),
              ih fun c listed => visible c (List.mem_cons_of_mem h listed)]
            simp [List.cons_prefix_cons, same]
          · simp [List.cons_prefix_cons, same, Ne.symm same]

/-- On a terminated string the search finds what is there. -/
theorem strContains_eq (visible : ∀ c ∈ text, c ≠ 0) (some : needle ≠ []) :
    strContains (text ++ 0 :: tail) needle =
      .some (decide (needle.map lowercase <:+: text.map lowercase)) := by
  induction text with
  | nil => simp [strContains, some]
  | cons h text ih =>
      have here : h ≠ 0 := visible h List.mem_cons_self
      have later := ih fun c listed => visible c (List.mem_cons_of_mem h listed)
      have found : matchHere (h :: text ++ 0 :: tail) needle = _ := matchHere_eq visible
      rw [List.cons_append] at found ⊢
      rw [strContains, if_neg here, found, later]
      by_cases starts : needle.map lowercase <+: (h :: text).map lowercase
      · simp only [decide_eq_true starts, decide_eq_true starts.isInfix]
      · have skipped : needle.map lowercase <:+: (h :: text).map lowercase ↔
            needle.map lowercase <:+: text.map lowercase := by
          rw [List.map_cons, List.infix_cons_iff]
          exact or_iff_right starts
        simp only [starts, skipped, decide_false]

/-- Letter case makes no difference to the second search. -/
theorem namesKeyboard_eq (visible : ∀ c ∈ text, c ≠ 0) :
    namesKeyboard (text ++ 0 :: tail) = some (decide (HasKeyboard text)) := by
  have small : (cString "keyboard").map lowercase = cString "keyboard" := by decide
  have capital : (cString "Keyboard").map lowercase = cString "keyboard" := by decide
  rw [namesKeyboard, strContains_eq visible (by decide), strContains_eq visible (by decide), small,
    capital]
  by_cases contains : HasKeyboard text
  · simp only [HasKeyboard] at contains ⊢
    simp [contains]
  · simp only [HasKeyboard] at contains ⊢
    simp [contains]

end Search

section Query

variable {dev : InputDevice} {out : List (BitVec 8)}

theorem foldl_set_range (data : Nat → BitVec 8) {count : Nat} (fits : count ≤ out.length) :
    (List.range count).foldl (fun out i => out.set i (data i)) out =
      (List.range count).map data ++ out.drop count := by
  induction count with
  | zero => rfl
  | succ count ih =>
      rw [List.range_succ, List.foldl_append, ih (Nat.le_of_succ_le fits), List.map_append,
        List.foldl_cons, List.foldl_nil, List.drop_eq_getElem_cons fits,
        List.set_append_right _ _ (by simp), List.length_map, List.length_range, Nat.sub_self,
        List.set_cons_zero, List.append_assoc]
      rfl

/-- The string in a buffer. -/
def Holds (buffer name : List (BitVec 8)) : Prop :=
  (∀ c ∈ name, c ≠ 0) ∧ ∃ tail, buffer = name ++ 0 :: tail

/-- What is written before a terminator is a string up to its first NUL. -/
theorem holds_takeWhile (raw tail : List (BitVec 8)) :
    Holds (raw ++ 0 :: tail) (raw.takeWhile fun c => c ≠ 0) := by
  refine ⟨fun c listed => by simpa using List.mem_takeWhile_imp listed, ?_⟩
  have split := List.takeWhile_append_dropWhile (p := fun c : BitVec 8 => decide (c ≠ 0)) (l := raw)
  cases rest : raw.dropWhile fun c => decide (c ≠ 0) with
  | nil =>
      rw [rest, List.append_nil] at split
      exact ⟨tail, by rw [split]⟩
  | cons c rest' =>
      have nul : c = 0 := by
        have stopped := List.head_dropWhile_not (fun c : BitVec 8 => decide (c ≠ 0)) (l := raw)
        simp only [rest, List.head_cons] at stopped
        exact not_not.mp (of_decide_eq_false (stopped (by simp)))
      refine ⟨rest' ++ 0 :: tail, ?_⟩
      rw [rest, nul] at split
      conv_lhs => rw [← split]
      rw [List.append_assoc]
      rfl

/-- The buffer after a query that reads a name, cut to the room there is and terminated. -/
theorem queryInputName_readable (size : out.length = nameSize) {name : List (BitVec 8)}
    (read : dev.readName = some name) :
    Holds (queryInputName dev out nameSize).1 name ∧
      (queryInputName dev out nameSize).1.length = nameSize := by
  obtain ⟨⟨long, short⟩, cut⟩ := Option.ite_none_right_eq_some.mp read
  have count : (if dev.size.toNat < nameSize - 1 then dev.size.toNat else nameSize - 1) =
      min (nameSize - 1) dev.size.toNat := by
    split <;> omega
  have room : min (nameSize - 1) dev.size.toNat < out.length := by
    rw [size, nameSize]
    omega
  have written : (queryInputName dev out nameSize).1 =
      dev.reportedName.take (nameSize - 1) ++
        0 :: out.drop (min (nameSize - 1) dev.size.toNat + 1) := by
    simp only [queryInputName]
    rw [if_neg (by omega), count, foldl_set_range dev.data room.le,
      List.drop_eq_getElem_cons room, List.set_append_right _ _ (by simp), List.length_map,
      List.length_range, Nat.sub_self, List.set_cons_zero, InputDevice.reportedName, ← List.map_take,
      List.take_range]
  constructor
  · rw [written, ← Option.some.inj cut]
    exact holds_takeWhile _ _
  · rw [written, List.length_append, List.length_cons, List.length_drop, InputDevice.reportedName,
      List.length_take, List.length_map, List.length_range]
    omega

theorem queryInputName_unreadable (unread : dev.readName = none) (maxLen : Nat) :
    (queryInputName dev out maxLen).1 = out := by
  have bad : ¬(0 < dev.size.toNat ∧ dev.size.toNat ≤ 128) := by
    intro good
    rw [InputDevice.readName, if_pos good] at unread
    cases unread
  simp only [queryInputName]
  rw [if_pos (by omega)]

end Query

section Last

variable {holds : InputDevice → Prop} {devices : List InputDevice} {place : Nat}

theorem lastWith_snoc (dev : InputDevice) :
    LastWith holds (devices ++ [dev]) place ↔
      holds dev ∧ devices.length = place ∨ ¬holds dev ∧ LastWith holds devices place := by
  constructor
  · rintro ⟨before, last, after, same, length, good, others⟩
    rcases List.eq_nil_or_concat after with rfl | ⟨after, final, rfl⟩
    · obtain ⟨rfl, single⟩ := List.append_inj' same rfl
      exact .inl ⟨(List.cons.inj single).1 ▸ good, length⟩
    · rw [List.concat_eq_append] at same others
      rw [← List.cons_append, ← List.append_assoc] at same
      obtain ⟨rfl, single⟩ := List.append_inj' same rfl
      obtain rfl := (List.cons.inj single).1
      refine .inr ⟨others dev (by simp), before, last, after, rfl, length, good, ?_⟩
      exact fun later listed => others later (List.mem_append_left _ listed)
  · rintro (⟨good, length⟩ | ⟨other, before, last, after, rfl, length, good, others⟩)
    · exact ⟨devices, dev, [], rfl, length, good, fun _ listed => absurd listed List.not_mem_nil⟩
    · refine ⟨before, last, after ++ [dev], by simp, length, good, fun later listed => ?_⟩
      rcases List.mem_append.mp listed with earlier | final
      · exact others later earlier
      · exact List.mem_singleton.mp final ▸ other

theorem LastWith.lt (last : LastWith holds devices place) : place < devices.length := by
  obtain ⟨before, dev, after, rfl, rfl, _⟩ := last
  simp

/-- Whether the device takes the place of the last one. -/
theorem lastWith_step {before : Option Nat} {taken : Bool} {dev : InputDevice}
    (found : ∀ place, before = some place ↔ LastWith holds devices place) :
    (∀ place, (if taken then some devices.length else before) = some place ↔
      LastWith holds (devices ++ [dev]) place) ↔ (taken = true ↔ holds dev) := by
  constructor
  · intro after
    have here := after devices.length
    rw [lastWith_snoc] at here
    have older : ¬LastWith holds devices devices.length := fun last => absurd last.lt (by simp)
    cases taken with
    | true =>
        have last := here.mp rfl
        exact iff_of_true rfl (last.elim And.left fun other => absurd other.2 older)
    | false =>
        refine iff_of_false Bool.false_ne_true fun good => older ?_
        exact (found _).mp (here.mpr (.inl ⟨good, rfl⟩))
  · intro right place
    rw [lastWith_snoc, ← found place]
    cases taken with
    | true =>
        have good : holds dev := right.mp rfl
        simp [good]
    | false =>
        have other : ¬holds dev := fun good => absurd (right.mpr good) Bool.false_ne_true
        simp [other]

end Last

section Loop

variable {probe next : InputProbe} {dev : InputDevice}

theorem InputProbe.Chosen.step_iff (chosen : probe.Chosen) {keyboard : Bool}
    (named : namesKeyboard (queryInputName dev probe.name nameSize).1 = some keyboard)
    (stepped : probe.step dev = some next) :
    next.Chosen ↔ (keyboard = true ↔ HasKeyboard dev.reportedName) := by
  have kbd : _ ↔ (keyboard = true ↔ HasKeyboard dev.reportedName) :=
    lastWith_step chosen.keyboard
  have tablet : _ ↔ ((!keyboard) = true ↔ ¬HasKeyboard dev.reportedName) :=
    lastWith_step chosen.pointer
  rw [InputProbe.step, named] at stepped
  obtain rfl := Option.some.inj stepped
  have other : (if keyboard then probe.tabletDev else some probe.seen.length) =
      if !keyboard then some probe.seen.length else probe.tabletDev := by
    cases keyboard <;> rfl
  constructor
  · exact fun after => kbd.mp after.keyboard
  · intro right
    refine ⟨kbd.mpr right, ?_⟩
    simp only [other]
    refine tablet.mpr ?_
    rw [← right]
    cases keyboard <;> simp

/-- The buffer has its size and holds the last name that was read, if one was. -/
structure InputProbe.Reads (probe : InputProbe) (held : Option (List (BitVec 8))) : Prop where
  size : probe.name.length = nameSize
  holds : ∀ name, held = some name → Holds probe.name name

theorem InputProbe.Reads.query {held : Option (List (BitVec 8))} {name : List (BitVec 8)}
    (reads : probe.Reads held) (read : dev.readName.or held = some name) :
    Holds (queryInputName dev probe.name nameSize).1 name ∧
      (queryInputName dev probe.name nameSize).1.length = nameSize := by
  cases own : dev.readName with
  | some text =>
      rw [own, Option.some_or] at read
      exact queryInputName_readable reads.size (own.trans read)
  | none =>
      rw [own, Option.none_or] at read
      rw [queryInputName_unreadable own]
      exact ⟨reads.holds name read, reads.size⟩

/-- A device that comes after a readable name is classified by the last one. -/
theorem InputProbe.Reads.step {held : Option (List (BitVec 8))} {name : List (BitVec 8)}
    (reads : probe.Reads held) (read : dev.readName.or held = some name) :
    ∃ next, probe.step dev = some next ∧ next.Reads (some name) ∧
      (probe.Chosen → (next.Chosen ↔ (HasKeyboard name ↔ HasKeyboard dev.reportedName))) := by
  obtain ⟨holds, size⟩ := reads.query read
  obtain ⟨visible, tail, text⟩ := holds
  have named : namesKeyboard (name ++ 0 :: tail) = _ := namesKeyboard_eq visible
  rw [← text] at named
  obtain ⟨next, stepped, buffer⟩ : ∃ next, probe.step dev = some next ∧
      next.name = (queryInputName dev probe.name nameSize).1 := by
    rw [InputProbe.step, named]
    exact ⟨_, rfl, rfl⟩
  refine ⟨next, stepped, ⟨buffer ▸ size, ?_⟩, fun chosen => ?_⟩
  · rintro _ ⟨⟩
    exact ⟨visible, tail, buffer.trans text⟩
  · rw [chosen.step_iff named stepped, decide_eq_true_iff]

/-- Devices whose names can be read are classified by them, whatever the buffer held before. -/
theorem InputProbe.Reads.run_iff {devices : List InputDevice} (reads : probe.Reads none)
    (chosen : probe.Chosen) (readable : ∀ dev ∈ devices, ∃ name, dev.readName = some name) :
    Transition.RunsThrough InputProbe.step InputProbe.Chosen probe devices ↔
      ∀ dev ∈ devices, dev.HasOwnName := by
  induction devices generalizing probe with
  | nil => exact iff_of_true chosen fun dev listed => absurd listed List.not_mem_nil
  | cons dev rest ih =>
      obtain ⟨name, read⟩ := readable dev List.mem_cons_self
      obtain ⟨next, stepped, nextReads, right⟩ := reads.step (by rw [read, Option.some_or])
      have own : dev.HasOwnName ↔ (HasKeyboard name ↔ HasKeyboard dev.reportedName) := by
        simp [InputDevice.HasOwnName, read]
      have later (nextChosen : next.Chosen) := ih ⟨nextReads.size, fun _ same => nomatch same⟩
        nextChosen fun other listed => readable other (List.mem_cons_of_mem dev listed)
      rw [List.forall_mem_cons, own]
      constructor
      · rintro ⟨_, after, same, run⟩
        obtain rfl := Option.some.inj (stepped.symm.trans same)
        exact ⟨(right chosen).mp run.head, (later run.head).mp run⟩
      · rintro ⟨here, others⟩
        have nextChosen := (right chosen).mpr here
        exact ⟨chosen, next, stepped, (later nextChosen).mpr others⟩

theorem queryInputName_length (dev : InputDevice) {out : List (BitVec 8)}
    (size : out.length = nameSize) : (queryInputName dev out nameSize).1.length = nameSize := by
  cases read : dev.readName with
  | some name => exact (queryInputName_readable size read).2
  | none => rwa [queryInputName_unreadable read]

theorem InputProbe.Reached.size (reached : probe.Reached) : probe.name.length = nameSize := by
  obtain ⟨leftover, before, run⟩ := reached
  have keeps : ∀ (probe : InputProbe) dev next, probe.name.length = nameSize →
      probe.step dev = some next → next.name.length = nameSize := by
    intro probe dev next size stepped
    obtain ⟨keyboard, _, rfl⟩ := Option.map_eq_some_iff.mp stepped
    exact queryInputName_length dev size
  have start : (InputProbe.start leftover).name.length = nameSize := List.length_ofFn
  exact Transition.exec_invariant keeps start run

theorem classOf_readable {name : List (BitVec 8)} (size : probe.name.length = nameSize)
    (read : dev.readName = some name) :
    probe.classOf dev = some (decide (HasKeyboard name)) := by
  obtain ⟨visible, tail, text⟩ := (queryInputName_readable size read).1
  rw [InputProbe.classOf, text]
  exact namesKeyboard_eq visible

theorem inputProbe_start_chosen (leftover : Fin nameSize → BitVec 8) :
    (InputProbe.start leftover).Chosen := by
  have none {holds : InputDevice → Prop} (place : Nat) : ¬LastWith holds [] place :=
    fun last => absurd last.lt (Nat.not_lt_zero place)
  exact ⟨fun place => iff_of_false (by rintro ⟨⟩) (none place),
    fun place => iff_of_false (by rintro ⟨⟩) (none place)⟩

/-- Contents that say the opposite. -/
def misleading (keyboard : Bool) : Fin nameSize → BitVec 8 := fun i =>
  if keyboard then 0 else (cString "keyboard").getD i 0

theorem misleading_named (unread : dev.readName = none) (keyboard : Bool) :
    namesKeyboard (queryInputName dev (InputProbe.start (misleading keyboard)).name nameSize).1 =
      some !keyboard := by
  rw [queryInputName_unreadable unread]
  revert keyboard
  decide

/-- A device without a readable name takes the class that the stack says. -/
theorem classedAlone_iff_readable : dev.ClassedAlone ↔ ∃ name, dev.readName = some name := by
  constructor
  · intro alone
    cases read : dev.readName with
    | some name => exact ⟨name, rfl⟩
    | none =>
        have same := alone (.start (misleading true)) (.start (misleading false)) ⟨_, [], rfl⟩
          ⟨_, [], rfl⟩
        rw [InputProbe.classOf, misleading_named read, InputProbe.classOf, misleading_named read]
          at same
        cases same
  · rintro ⟨name, read⟩ first second firstReached secondReached
    rw [classOf_readable firstReached.size read, classOf_readable secondReached.size read]

/-- Whatever the stack holds, the choice is right after each device and each class is the device's
own, exactly when every device has a name of its own. -/
theorem inputProbe_chosen_iff (devices : List InputDevice) :
    ((∀ leftover, Transition.RunsThrough InputProbe.step InputProbe.Chosen (.start leftover)
        devices) ∧ ∀ dev ∈ devices, dev.ClassedAlone) ↔
      ∀ dev ∈ devices, dev.HasOwnName := by
  have run (leftover) (readable : ∀ dev ∈ devices, ∃ name, dev.readName = some name) :
      Transition.RunsThrough InputProbe.step InputProbe.Chosen (.start leftover) devices ↔
        ∀ dev ∈ devices, dev.HasOwnName :=
    InputProbe.Reads.run_iff ⟨List.length_ofFn, fun _ same => nomatch same⟩
      (inputProbe_start_chosen leftover) readable
  constructor
  · rintro ⟨runs, alone⟩
    have readable dev (listed : dev ∈ devices) := classedAlone_iff_readable.mp (alone dev listed)
    exact (run (fun _ => 0) readable).mp (runs _)
  · intro own
    have readable : ∀ dev ∈ devices, ∃ name, dev.readName = some name := fun dev listed =>
      (own dev listed).imp fun _ => And.left
    exact ⟨fun leftover => (run leftover readable).mpr own,
      fun dev listed => classedAlone_iff_readable.mpr (readable dev listed)⟩

end Loop

/-- It reports no name. -/
def namelessDevice : InputDevice := ⟨0, fun _ => 0⟩

/-- A device without a name is taken for a keyboard when the stack says so. -/
theorem inputProbe_not_chosen :
    ¬Transition.RunsThrough InputProbe.step InputProbe.Chosen (.start (misleading false))
      [namelessDevice] := by
  rintro ⟨chosen, next, stepped, last⟩
  have named := misleading_named (show namelessDevice.readName = none by decide) false
  have right := (chosen.step_iff named stepped).mp last
  exact absurd (right.mp rfl) (by decide)

end DragoonKernel
