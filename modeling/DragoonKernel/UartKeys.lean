import DragoonKernel.InputCore
import DragoonKernel.Library.Transition
import Mathlib.Data.List.Forall2

/-!
The keys that a stream of bytes asks for, and the streams for which the decoder returns them.
-/

namespace DragoonKernel

def arrowCodes : List Int := [keyUp, keyDown, keyLeft, keyRight]

inductive KeyDue where
  | arrow (key : Int)
  | esc
  | plain (c : BitVec 8)

/-- The key that the decoder returns when it gets it right. -/
def KeyDue.key : KeyDue → Int
  | .arrow key => key
  | .esc => keyEsc
  | .plain c => plainKey c

/-- For a byte of its own any key will do that is not an arrow. -/
def KeyDue.Allows : KeyDue → Int → Prop
  | .arrow key, returned => returned = key
  | .esc, returned => returned = keyEsc
  | .plain _, returned => returned ∉ arrowCodes

/-- One key is due for each arrow sequence, for each ESC without a bracket and for each other
byte. A sequence that is not complete asks for nothing yet. -/
def keysDue : List (BitVec 8) → List KeyDue
  | [] => []
  | first :: rest =>
      if first = escByte then
        match rest with
        | [] => []
        | second :: tail =>
            if second = byte '[' then
              match tail with
              | [] => []
              | last :: tail => (arrowKey last).toList.map .arrow ++ keysDue tail
            else .esc :: keysDue (second :: tail)
      else if first = 0 then keysDue rest
      else .plain first :: keysDue rest

/-- The start of a sequence that the stream ends in. -/
def openSequence : List (BitVec 8) → List (BitVec 8)
  | [] => []
  | first :: rest =>
      if first = escByte then
        match rest with
        | [] => [escByte]
        | second :: tail =>
            if second = byte '[' then
              match tail with
              | [] => [escByte, byte '[']
              | _ :: tail => openSequence tail
            else openSequence (second :: tail)
      else openSequence rest

/-- The keys returned are those due, one for one and in order. -/
def Uart.Decodes (uart : Uart) : Prop :=
  List.Forall₂ KeyDue.Allows (keysDue uart.bytes) uart.keys

/-- The stream ends in an ESC that comes after an ESC of its own. -/
def DoubledEsc (bytes : List (BitVec 8)) : Prop :=
  openSequence bytes = [escByte] ∧ openSequence bytes.dropLast = [escByte]

/-- The byte is no arrow code if it stands by itself, and after an ESC it is a bracket, a NUL
or a second ESC that nothing follows. -/
def Uart.KeepsUp (uart : Uart) (read : Option (BitVec 8)) (_ : Uart) : Prop :=
  match read with
  | none => True
  | some c =>
      (openSequence uart.bytes = [] → (c.toNat : Int) ∉ arrowCodes) ∧
        (openSequence uart.bytes = [escByte] → c = byte '[' ∨ c = 0 ∨ c = escByte) ∧
          ¬DoubledEsc uart.bytes

/-- Where the decoder stands in the stream. It loses its place at a second ESC. -/
inductive DecoderAt (bytes : List (BitVec 8)) : EscState → Prop where
  | between (nothing : openSequence bytes = []) : DecoderAt bytes .normal
  | esc (started : openSequence bytes = [escByte])
      (single : openSequence bytes.dropLast ≠ [escByte]) : DecoderAt bytes .gotEsc
  | bracket (started : openSequence bytes = [escByte, byte '[']) : DecoderAt bytes .gotEscBracket
  | lost (doubled : DoubledEsc bytes) : DecoderAt bytes .normal

structure Uart.Sound (uart : Uart) : Prop where
  place : DecoderAt uart.bytes uart.escState
  keys : uart.keys = (keysDue uart.bytes).map KeyDue.key
  allowed : ∀ due ∈ keysDue uart.bytes, due.Allows due.key

section Sequences

variable {bytes : List (BitVec 8)}

theorem keysDue_plain {c : BitVec 8} (plain : c ≠ escByte) (rest : List (BitVec 8)) :
    keysDue (c :: rest) = (if c = 0 then [] else [.plain c]) ++ keysDue rest := by
  rw [keysDue.eq_def]
  dsimp only
  rw [if_neg plain]
  split <;> rfl

theorem keysDue_sequence (c : BitVec 8) (rest : List (BitVec 8)) :
    keysDue (escByte :: byte '[' :: c :: rest) =
      (arrowKey c).toList.map .arrow ++ keysDue rest := by
  simp only [keysDue, if_true]

theorem keysDue_lone {c : BitVec 8} (lone : c ≠ byte '[') (rest : List (BitVec 8)) :
    keysDue (escByte :: c :: rest) = .esc :: keysDue (c :: rest) := by
  rw [keysDue.eq_def]
  simp only [if_true, if_neg lone]

theorem openSequence_plain {c : BitVec 8} (plain : c ≠ escByte) (rest : List (BitVec 8)) :
    openSequence (c :: rest) = openSequence rest := by
  rw [openSequence.eq_def]
  exact if_neg plain

theorem openSequence_lone {c : BitVec 8} (lone : c ≠ byte '[') (rest : List (BitVec 8)) :
    openSequence (escByte :: c :: rest) = openSequence (c :: rest) := by
  rw [openSequence.eq_def]
  simp only [if_true, if_neg lone]

/-- What comes after a stream sees no more of it than the sequence it ends in. -/
theorem keysDue_append (bytes more : List (BitVec 8)) :
    keysDue (bytes ++ more) = keysDue bytes ++ keysDue (openSequence bytes ++ more) := by
  fun_induction openSequence bytes with
  | case1 => rfl
  | case2 => rfl
  | case3 => rfl
  | case4 last tail ih =>
      rw [List.cons_append, List.cons_append, List.cons_append, keysDue_sequence, keysDue_sequence,
        ih, List.append_assoc]
  | case5 second tail lone ih =>
      rw [List.cons_append, List.cons_append, keysDue_lone lone, keysDue_lone lone,
        ← List.cons_append, ih, List.cons_append]
  | case6 first rest plain ih =>
      rw [List.cons_append, keysDue_plain plain, keysDue_plain plain, ih, List.append_assoc]

theorem openSequence_append (bytes more : List (BitVec 8)) :
    openSequence (bytes ++ more) = openSequence (openSequence bytes ++ more) := by
  fun_induction openSequence bytes with
  | case1 => rfl
  | case2 => rfl
  | case3 => rfl
  | case4 last tail ih => exact ih
  | case5 second tail lone ih =>
      rw [List.cons_append, List.cons_append, openSequence_lone lone, ← List.cons_append, ih]
  | case6 first rest plain ih => rw [List.cons_append, openSequence_plain plain, ih]

end Sequences

section Keys

variable {c : BitVec 8}

theorem plainKey_eq_none_iff : plainKey c = keyNone ↔ c = 0 := by
  revert c
  decide

theorem plainKey_mem_arrowCodes_iff : plainKey c ∈ arrowCodes ↔ (c.toNat : Int) ∈ arrowCodes := by
  revert c
  decide

theorem arrowKey_ne_none {key : Int} (arrow : arrowKey c = some key) : key ≠ keyNone := by
  unfold arrowKey at arrow
  split_ifs at arrow <;> cases arrow <;> decide

theorem keysDue_singleton (c : BitVec 8) :
    keysDue [c] = if c = escByte ∨ c = 0 then [] else [.plain c] := by
  by_cases esc : c = escByte
  · rw [if_pos (.inl esc), esc]
    rfl
  · rw [keysDue_plain esc]
    by_cases nul : c = 0
    · rw [if_pos nul, if_pos (.inr nul)]
      rfl
    · rw [if_neg nul, if_neg (not_or.mpr ⟨esc, nul⟩)]
      rfl

/-- Between sequences a poll returns the key that its byte is due. -/
theorem returnedKey_normal (c : BitVec 8) :
    returnedKey (uartPoll .normal (some c)).2 = (keysDue [c]).map KeyDue.key := by
  rw [keysDue_singleton]
  by_cases esc : c = escByte
  · rw [if_pos (.inl esc), esc]
    rfl
  · have key : (uartPoll .normal (some c)).2 = plainKey c := by simp only [uartPoll, if_neg esc]
    rw [key, returnedKey]
    by_cases nul : c = 0
    · rw [if_pos (plainKey_eq_none_iff.mpr nul), if_pos (.inr nul)]
      rfl
    · rw [if_neg (mt plainKey_eq_none_iff.mp nul), if_neg (not_or.mpr ⟨esc, nul⟩)]
      rfl

theorem returnedKey_bracket (c : BitVec 8) :
    returnedKey (uartPoll .gotEscBracket (some c)).2 =
      (keysDue [escByte, byte '[', c]).map KeyDue.key := by
  rw [keysDue_sequence]
  cases arrow : arrowKey c with
  | none => simp [uartPoll, arrow, returnedKey, keysDue]
  | some key =>
      simp only [uartPoll, arrow, Option.getD_some, returnedKey, if_neg (arrowKey_ne_none arrow)]
      rfl

theorem openSequence_singleton (c : BitVec 8) :
    openSequence [c] = if c = escByte then [escByte] else [] := by
  by_cases esc : c = escByte
  · rw [if_pos esc, esc]
    rfl
  · rw [if_neg esc, openSequence_plain esc]
    rfl

variable {uart after : Uart}

theorem Uart.step_some (stepped : uart.step (some c) = some after) :
    after.escState = (uartPoll uart.escState (some c)).1 ∧ after.bytes = uart.bytes ++ [c] ∧
      after.keys = uart.keys ++ returnedKey (uartPoll uart.escState (some c)).2 := by
  obtain rfl := Option.some.inj stepped
  exact ⟨rfl, rfl, rfl⟩

/-- What one more byte adds to the keys due. -/
def dueNext (bytes : List (BitVec 8)) (c : BitVec 8) : List KeyDue :=
  keysDue (openSequence bytes ++ [c])

theorem Uart.Sound.stay (sound : uart.Sound) (stepped : uart.step none = some after) :
    after.Sound := by
  obtain rfl := Option.some.inj stepped
  obtain ⟨place, keys, allowed⟩ := sound
  have same : uart.bytes ++ Option.toList none = uart.bytes := List.append_nil _
  simp only [same]
  exact ⟨place, by simpa [uartPoll, returnedKey] using keys, allowed⟩

/-- It is enough to look at what the byte adds. -/
theorem Uart.Sound.read (sound : uart.Sound) (stepped : uart.step (some c) = some after)
    (place : DecoderAt (uart.bytes ++ [c]) (uartPoll uart.escState (some c)).1)
    (returned : returnedKey (uartPoll uart.escState (some c)).2 =
      (dueNext uart.bytes c).map KeyDue.key)
    (allowed : ∀ due ∈ dueNext uart.bytes c, due.Allows due.key) : after.Sound := by
  obtain ⟨escState, bytes, keys⟩ := Uart.step_some stepped
  refine ⟨escState ▸ bytes ▸ place, ?_, ?_⟩
  · rw [keys, bytes, sound.keys, keysDue_append, List.map_append, returned]
    rfl
  · rw [bytes, keysDue_append]
    exact fun due listed => (List.mem_append.mp listed).elim (sound.allowed due) (allowed due)

theorem allows_key {due : KeyDue} (plain : ∀ c, due = .plain c → (c.toNat : Int) ∉ arrowCodes) :
    due.Allows due.key := by
  cases due with
  | arrow key => rfl
  | esc => rfl
  | plain c => exact fun listed => plain c rfl (plainKey_mem_arrowCodes_iff.mp listed)

theorem Uart.Sound.between (sound : uart.Sound) (stepped : uart.step (some c) = some after)
    (state : uart.escState = .normal) (nothing : openSequence uart.bytes = [])
    (plain : (c.toNat : Int) ∉ arrowCodes) : after.Sound := by
  have moved := openSequence_append uart.bytes [c]
  rw [nothing, List.nil_append, openSequence_singleton] at moved
  refine sound.read stepped ?_ ?_ ?_
  · by_cases esc : c = escByte
    · rw [if_pos esc] at moved
      rw [state, uartPoll, if_pos esc]
      exact .esc moved (by rw [List.dropLast_concat, nothing]; decide)
    · rw [if_neg esc] at moved
      rw [state, uartPoll, if_neg esc]
      exact .between moved
  · rw [state, dueNext, nothing]
    exact returnedKey_normal c
  · intro due listed
    rw [dueNext, nothing, List.nil_append, keysDue_singleton] at listed
    refine allows_key fun other same => ?_
    split at listed
    · cases listed
    · obtain rfl := KeyDue.plain.inj (same.symm.trans (List.mem_singleton.mp listed))
      exact plain

theorem Uart.Sound.afterEsc (sound : uart.Sound) (stepped : uart.step (some c) = some after)
    (state : uart.escState = .gotEsc) (started : openSequence uart.bytes = [escByte])
    (lone : c = byte '[' ∨ c = 0 ∨ c = escByte) : after.Sound := by
  have moved := openSequence_append uart.bytes [c]
  have due := dueNext.eq_1 uart.bytes c
  rw [started] at moved due
  rcases lone with rfl | rfl | rfl
  · refine sound.read stepped ?_ (by rw [state, due]; rfl) ?_
    · rw [state]
      exact .bracket moved
    · rw [due]
      exact fun _ listed => absurd listed List.not_mem_nil
  · refine sound.read stepped ?_ (by rw [state, due]; rfl) ?_
    · rw [state]
      exact .between moved
    · rw [due]
      exact List.forall_mem_singleton.mpr rfl
  · refine sound.read stepped ?_ (by rw [state, due]; rfl) ?_
    · rw [state]
      exact .lost ⟨moved, by rw [List.dropLast_concat, started]⟩
    · rw [due]
      exact List.forall_mem_singleton.mpr rfl

theorem Uart.Sound.afterBracket (sound : uart.Sound) (stepped : uart.step (some c) = some after)
    (state : uart.escState = .gotEscBracket)
    (started : openSequence uart.bytes = [escByte, byte '[']) : after.Sound := by
  have moved := openSequence_append uart.bytes [c]
  rw [started] at moved
  refine sound.read stepped ?_ ?_ ?_
  · rw [state]
    exact .between moved
  · rw [state, dueNext, started]
    exact returnedKey_bracket c
  · intro due listed
    rw [dueNext, started, List.cons_append, List.singleton_append, keysDue_sequence,
      keysDue.eq_1, List.append_nil] at listed
    obtain ⟨key, _, rfl⟩ := List.mem_map.mp listed
    rfl

theorem Uart.Sound.step (sound : uart.Sound) {read : Option (BitVec 8)}
    (stepped : uart.step read = some after) (keepsUp : uart.KeepsUp read after) : after.Sound := by
  cases read with
  | none => exact sound.stay stepped
  | some c =>
      obtain ⟨plain, lone, single⟩ := keepsUp
      have place := sound.place
      generalize state : uart.escState = escState at place
      cases place with
      | between nothing => exact sound.between stepped state nothing (plain nothing)
      | esc started _ => exact sound.afterEsc stepped state started (lone started)
      | bracket started => exact sound.afterBracket stepped state started
      | lost doubled => exact absurd doubled single

theorem Uart.Sound.decodes (sound : uart.Sound) : uart.Decodes := by
  rw [Uart.Decodes, sound.keys, List.forall₂_map_right_iff]
  exact List.forall₂_same.mpr sound.allowed

/-- As many keys are due for the byte as the poll returns. -/
theorem Uart.Decodes.length_next (decodes : after.Decodes) (sound : uart.Sound)
    (stepped : uart.step (some c) = some after) :
    (dueNext uart.bytes c).length =
      (returnedKey (uartPoll uart.escState (some c)).2).length := by
  have lengths := decodes.length_eq
  obtain ⟨_, bytes, keys⟩ := Uart.step_some stepped
  rw [bytes, keys, keysDue_append, sound.keys, List.length_append, List.length_append,
    List.length_map] at lengths
  exact Nat.add_left_cancel lengths

/-- A byte of its own that is an arrow code comes out as an arrow. -/
theorem Uart.spoils_arrow (stepped : uart.step (some c) = some after)
    (state : uart.escState = .normal) (nothing : openSequence uart.bytes = [])
    (arrow : (c.toNat : Int) ∈ arrowCodes) : ¬after.Decodes := by
  intro decodes
  have visible : ∀ c : BitVec 8, (c.toNat : Int) ∈ arrowCodes → ¬(c = escByte ∨ c = 0) := by decide
  obtain ⟨_, bytes, keys⟩ := Uart.step_some stepped
  have due : keysDue [c] = [.plain c] := by
    rw [keysDue_singleton, if_neg (visible c arrow)]
  rw [Uart.Decodes, bytes, keys, keysDue_append, nothing, List.nil_append, state,
    returnedKey_normal, due, ← List.forall₂_reverse_iff, List.reverse_append,
    List.reverse_append] at decodes
  have last : KeyDue.Allows (.plain c) (plainKey c) := (List.forall₂_cons.mp decodes).1
  exact last (plainKey_mem_arrowCodes_iff.mpr arrow)

/-- The byte after an ESC is swallowed. -/
theorem Uart.Sound.spoils_lone (sound : uart.Sound) (stepped : uart.step (some c) = some after)
    (state : uart.escState = .gotEsc) (started : openSequence uart.bytes = [escByte])
    (lone : ¬(c = byte '[' ∨ c = 0 ∨ c = escByte)) : ¬after.Decodes := by
  intro decodes
  obtain ⟨bracket, nul, esc⟩ : c ≠ byte '[' ∧ c ≠ 0 ∧ c ≠ escByte := by simpa using lone
  have lengths := decodes.length_next sound stepped
  rw [state, uartPoll, if_neg bracket, dueNext, started, List.singleton_append,
    keysDue_lone bracket, keysDue_singleton, if_neg (not_or.mpr ⟨esc, nul⟩)] at lengths
  cases lengths

/-- A second ESC is swallowed, and whatever follows it is read as if it had not been there. -/
theorem Uart.Sound.spoils_doubled (sound : uart.Sound) (stepped : uart.step (some c) = some after)
    (state : uart.escState = .normal) (doubled : DoubledEsc uart.bytes) : ¬after.Decodes := by
  intro decodes
  have lengths := decodes.length_next sound stepped
  rw [state, returnedKey_normal, dueNext, doubled.1, List.singleton_append,
    List.length_map] at lengths
  by_cases bracket : c = byte '['
  · rw [bracket] at lengths
    cases lengths
  · rw [keysDue_lone bracket, List.length_cons] at lengths
    omega

theorem Uart.Sound.spoils (sound : uart.Sound) {read : Option (BitVec 8)}
    (stepped : uart.step read = some after) (behind : ¬uart.KeepsUp read after) :
    ¬after.Decodes := by
  cases read with
  | none => exact absurd trivial behind
  | some c =>
      have place := sound.place
      generalize state : uart.escState = escState at place
      cases place with
      | between nothing =>
          have arrow : (c.toNat : Int) ∈ arrowCodes := by
            by_contra plain
            refine behind ⟨fun _ => plain, fun started => ?_, fun doubled => ?_⟩
            · cases nothing.symm.trans started
            · cases nothing.symm.trans doubled.1
          exact Uart.spoils_arrow stepped state nothing arrow
      | esc started single =>
          refine sound.spoils_lone stepped state started fun lone => behind ?_
          refine ⟨fun nothing => ?_, fun _ => lone, fun doubled => single doubled.2⟩
          cases started.symm.trans nothing
      | bracket started =>
          refine absurd ⟨fun nothing => ?_, fun esc => ?_, fun doubled => ?_⟩ behind
          · cases started.symm.trans nothing
          · cases started.symm.trans esc
          · cases started.symm.trans doubled.1
      | lost doubled => exact sound.spoils_doubled stepped state doubled

/-- Over any polls, those that find nothing in the FIFO included. -/
theorem uart_decodes_iff (reads : List (Option (BitVec 8))) :
    Transition.EveryState Uart.step Uart.Decodes .start reads ↔
      Transition.EveryStep Uart.step Uart.KeepsUp .start reads := by
  have start : Uart.start.Sound :=
    ⟨.between rfl, rfl, fun _ listed => absurd listed List.not_mem_nil⟩
  refine Transition.everyState_iff_everyStep (fun _ sound => sound.decodes) ?_ ?_ start reads
  · exact fun uart read after sound stepped keepsUp => sound.step stepped keepsUp
  · exact fun uart read after sound stepped behind => sound.spoils stepped behind

/-- ESC and then a letter: the letter is lost. -/
theorem uart_not_decodes :
    ¬Transition.EveryState Uart.step Uart.Decodes .start [some escByte, some (byte 'a')] := by
  intro all
  have run : Transition.exec Uart.step .start [some escByte, some (byte 'a')] =
    some ⟨.normal, [escByte, byte 'a'], [keyEsc]⟩ := rfl
  cases (all.last run).length_eq

end Keys

end DragoonKernel
