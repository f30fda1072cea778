import DragoonKernel.PrintfCore
import DragoonKernel.Library.Numeral

/-! What the digit buffer holds, and what the scanner of a conversion finds. -/

namespace DragoonKernel

def newline : BitVec 8 := 10

theorem printString_plain {s : List (BitVec 8)} (plain : ∀ c ∈ s, c ≠ newline) :
    printString s = s := by
  induction s with
  | nil => rfl
  | cons c rest ih =>
      have first : c ≠ 10 := plain c List.mem_cons_self
      rw [printString, List.flatMap_cons, printChar, if_neg first]
      exact congrArg (c :: ·) (ih fun other listed => plain other (List.mem_cons_of_mem _ listed))

theorem digitSymbol_plain (isUpper : Bool) {digit : Nat} (small : digit < 16) :
    digitSymbol isUpper digit ≠ newline := by
  have all : ∀ isUpper, ∀ digit < 16, digitSymbol isUpper digit ≠ newline := by decide
  exact all isUpper digit small

section Digits

variable {base : Nat} {isUpper : Bool}

theorem putDigits_eq (large : 1 < base) {turns val : Nat} (short : val < base ^ turns)
    (buf : List (BitVec 8)) :
    putDigits isUpper base turns val buf =
      buf ++ (Nat.digits base val).map (digitSymbol isUpper) := by
  induction turns generalizing val buf with
  | zero =>
      obtain rfl : val = 0 := Nat.lt_one_iff.mp short
      simp [putDigits]
  | succ turns ih =>
      rw [putDigits]
      split
      next positive =>
        have shorter : val / base < base ^ turns := Nat.div_lt_of_lt_mul (by rwa [← Nat.pow_succ'])
        rw [ih shorter, Nat.digits_of_two_le_of_pos large positive, List.map_cons,
          List.append_assoc]
        rfl
      next zero =>
        obtain rfl : val = 0 := by omega
        simp

/-- The digits as they are printed. -/
def numeral (isUpper : Bool) (base val : Nat) : List (BitVec 8) :=
  Numeral.write (digitSymbol isUpper) base val

theorem mem_numeral (large : 1 < base) {val : Nat} {c : BitVec 8}
    (listed : c ∈ numeral isUpper base val) : ∃ digit < base, digitSymbol isUpper digit = c := by
  rw [numeral, Numeral.write, List.mem_reverse] at listed
  obtain ⟨digit, place, symbol⟩ := List.mem_map.mp listed
  exact ⟨digit, Numeral.digits_lt large place, symbol⟩

theorem numeral_plain (large : 1 < base) (small : base ≤ 16) (val : Nat) :
    ∀ c ∈ numeral isUpper base val, c ≠ newline := by
  intro c listed
  obtain ⟨digit, below, rfl⟩ := mem_numeral large listed
  exact digitSymbol_plain isUpper (Nat.lt_of_lt_of_le below small)

theorem digitBuf_eq (large : 1 < base) (val : Word) :
    (if val = 0 then [byte '0'] else putDigits isUpper base 64 val.toNat []) =
      (Numeral.digits base val.toNat).map (digitSymbol isUpper) := by
  unfold Numeral.digits
  split
  next zero =>
    subst zero
    cases isUpper <;> rfl
  next nonzero =>
    have short : val.toNat < base ^ 64 :=
      Nat.lt_of_lt_of_le val.isLt (Nat.pow_le_pow_left large 64)
    have positive : val.toNat ≠ 0 := fun zero => nonzero (BitVec.eq_of_toNat_eq zero)
    rw [putDigits_eq large short, if_neg positive, List.nil_append]

theorem printUnsigned_eq (large : 1 < base) (small : base ≤ 16) (val : Word) (width : BitVec 32)
    {pad : BitVec 8} (plain : pad ≠ newline) :
    printUnsigned val base width pad isUpper =
      let body := numeral isUpper base val.toNat
      let padding := List.replicate (width.toInt - body.length).toNat pad
      if padding.length + body.length ≤ digitBufSize then some (padding ++ body) else none := by
  have length : (numeral isUpper base val.toNat).length =
      ((Numeral.digits base val.toNat).map (digitSymbol isUpper)).length := by
    rw [numeral, Numeral.write, List.length_reverse]
  simp only [printUnsigned]
  rw [digitBuf_eq large, List.length_append, length, Nat.add_comm]
  congr 2
  rw [List.reverse_append, List.reverse_replicate]
  refine printString_plain fun c listed => ?_
  rcases List.mem_append.mp listed with padding | digits
  · rwa [List.eq_of_mem_replicate padding]
  · exact numeral_plain large small val.toNat c digits

theorem toNat_neg_magnitude {val : Word} (negative : val.toInt < 0) :
    (-val).toNat = val.toInt.natAbs := by
  have msb := BitVec.toInt_neg_iff.mp negative
  rw [BitVec.toNat_neg, BitVec.toInt_eq_toNat_cond]
  omega

/-- The sign goes out before anything is put into the buffer. -/
theorem printSigned_eq {val : Word} (negative : val.toInt < 0) (width : BitVec 32)
    {pad : BitVec 8} (plain : pad ≠ newline) :
    printSigned val width pad =
      let below := if width.toInt > 0 then width - 1 else width
      let body := numeral false 10 val.toInt.natAbs
      let padding := List.replicate (below.toInt - body.length).toNat pad
      if padding.length + body.length ≤ digitBufSize then some (byte '-' :: (padding ++ body))
      else none := by
  rw [printSigned, if_pos negative]
  dsimp only
  rw [printUnsigned_eq (by decide) (by decide) (-val) _ plain, toNat_neg_magnitude negative]
  dsimp only
  generalize (if width.toInt > 0 then width - 1 else width) = below
  split <;> rfl

end Digits

/-- The NUL-terminated string at a place of the memory. -/
def Formats (text : Nat → BitVec 8) (start : Nat) : List (BitVec 8) → Prop
  | [] => text start = 0
  | c :: rest => text start = c ∧ c ≠ 0 ∧ Formats text (start + 1) rest

/-- A string with zeros after it. -/
def textOf (s : List (BitVec 8)) : Nat → BitVec 8 := fun place => s.getD place 0

theorem formats_textOf (before : List (BitVec 8)) {s : List (BitVec 8)}
    (visible : ∀ c ∈ s, c ≠ 0) : Formats (textOf (before ++ s)) before.length s := by
  induction s generalizing before with
  | nil => simp [Formats, textOf]
  | cons c rest ih =>
      refine ⟨by simp [textOf], visible c List.mem_cons_self, ?_⟩
      have later := ih (before ++ [c]) fun other listed =>
        visible other (List.mem_cons_of_mem _ listed)
      rwa [List.append_assoc, List.length_append] at later

/-- What is left of the format is `s`, and nothing has been read beyond its NUL. -/
structure Printer.At (text : Nat → BitVec 8) (nul : Nat) (s : List (BitVec 8))
    (printer : Printer) : Prop where
  formats : Formats text printer.fmt s
  stop : printer.fmt + s.length = nul
  reads : ∀ place ∈ printer.reads, place ≤ nul

def afterFlag (s : List (BitVec 8)) : List (BitVec 8) :=
  if s.head? = some (byte '0') then s.tail else s

def flagPad (s : List (BitVec 8)) : BitVec 8 :=
  if s.head? = some (byte '0') then byte '0' else byte ' '

def afterWidth (s : List (BitVec 8)) : List (BitVec 8) := s.dropWhile isDigit

/-- The width as the `int` that the digits come to. -/
def widthFrom (width : BitVec 32) (s : List (BitVec 8)) : BitVec 32 :=
  (s.takeWhile isDigit).foldl (fun width c => width * 10 + (c - byte '0').setWidth 32) width

def afterLength (s : List (BitVec 8)) : List (BitVec 8) :=
  if s.head? = some (byte 'l') then
    if s.tail.head? = some (byte 'l') then s.tail.tail else s.tail
  else s

def lengthModifier (s : List (BitVec 8)) : LengthModifier :=
  if s.head? = some (byte 'l') then
    if s.tail.head? = some (byte 'l') then .longlong else .long
  else .int

section Scan

variable {text : Nat → BitVec 8} {nul : Nat} {s : List (BitVec 8)} {printer : Printer}

theorem Printer.At.read (here : printer.At text nul s) : printer.read.At text nul s := by
  refine ⟨here.formats, here.stop, fun place listed => ?_⟩
  have stop := here.stop
  rcases List.mem_append.mp listed with before | now
  · exact here.reads place before
  · rw [List.mem_singleton.mp now]
    omega

theorem Printer.At.advance {c : BitVec 8} {rest : List (BitVec 8)}
    (here : printer.At text nul (c :: rest)) : printer.advance.At text nul rest := by
  refine ⟨here.formats.2.2, ?_, here.reads⟩
  have stop := here.stop
  simp only [List.length_cons] at stop
  simp only [Printer.advance]
  omega

theorem Printer.At.congr {other : Printer} (here : printer.At text nul s)
    (fmt : other.fmt = printer.fmt) (reads : other.reads = printer.reads) :
    other.At text nul s :=
  ⟨fmt ▸ here.formats, fmt ▸ here.stop, reads ▸ here.reads⟩

/-- A test of `*fmt` against a character, which the NUL always fails. -/
theorem Printer.At.test_iff (here : printer.At text nul s) {c : BitVec 8} (visible : c ≠ 0) :
    text printer.fmt = c ↔ s.head? = some c := by
  have formats := here.formats
  cases s with
  | nil =>
      rw [show text printer.fmt = 0 from formats]
      exact iff_of_false visible.symm (by simp)
  | cons first rest => rw [formats.1, List.head?_cons, Option.some.injEq]

theorem Printer.At.next {c : BitVec 8} (here : printer.At text nul s) (found : s.head? = some c) :
    printer.advance.At text nul s.tail := by
  cases s with
  | nil => cases found
  | cons first rest => exact here.advance

theorem parseFlag_at (here : printer.At text nul s) :
    ∃ after, parseFlag text printer = (after, flagPad s) ∧ after.At text nul (afterFlag s) ∧
      after.ap = printer.ap ∧ after.out = printer.out := by
  have test := here.read.test_iff (c := byte '0') (by decide)
  simp only [parseFlag, test, flagPad, afterFlag]
  by_cases flag : s.head? = some (byte '0')
  · simp only [if_pos flag]
    exact ⟨_, rfl, here.read.next flag, rfl, rfl⟩
  · simp only [if_neg flag]
    exact ⟨_, rfl, here.read, rfl, rfl⟩

theorem parseLength_at (here : printer.At text nul s) :
    ∃ after, parseLength text printer = (after, lengthModifier s) ∧
      after.At text nul (afterLength s) ∧ after.ap = printer.ap ∧ after.out = printer.out := by
  have test := here.read.test_iff (c := byte 'l') (by decide)
  simp only [parseLength, test, lengthModifier, afterLength]
  by_cases first : s.head? = some (byte 'l')
  · have there := (here.read.next first).read
    have again := there.test_iff (c := byte 'l') (by decide)
    simp only [if_pos first, again]
    by_cases second : s.tail.head? = some (byte 'l')
    · simp only [if_pos second]
      exact ⟨_, rfl, there.next second, rfl, rfl⟩
    · simp only [if_neg second]
      exact ⟨_, rfl, there, rfl, rfl⟩
  · simp only [if_neg first]
    exact ⟨_, rfl, here.read, rfl, rfl⟩

/-- The NUL is no digit, so the loop ends there at the latest. -/
theorem parseWidth_at (here : printer.At text nul s) (turns : Nat) (width : BitVec 32) :
    ∃ after, parseWidth text turns printer width =
        (if (s.takeWhile isDigit).length < turns then some (after, widthFrom width s) else none) ∧
      after.At text nul (afterWidth s) ∧ after.ap = printer.ap ∧ after.out = printer.out := by
  induction s generalizing turns printer width with
  | nil =>
      refine ⟨printer.read, ?_, here.read, rfl, rfl⟩
      have stop : text printer.read.fmt = 0 := here.formats
      cases turns with
      | zero => rfl
      | succ turns =>
          rw [parseWidth, stop]
          rfl
  | cons c rest ih =>
      have found : text printer.read.fmt = c := here.formats.1
      by_cases digit : isDigit c
      · obtain ⟨after, scanned, there, ap, out⟩ := ih here.read.advance (turns - 1)
          (width * 10 + (c - byte '0').setWidth 32)
        refine ⟨after, ?_, ?_, ap, out⟩
        · cases turns with
          | zero => rfl
          | succ turns =>
              simp only [parseWidth, found, if_pos digit]
              refine scanned.trans ?_
              simp only [widthFrom, List.takeWhile_cons_of_pos digit, List.length_cons,
                Nat.add_lt_add_iff_right, Nat.add_sub_cancel, List.foldl_cons]
        · rw [afterWidth, List.dropWhile_cons_of_pos digit]
          exact there
      · refine ⟨printer.read, ?_, ?_, rfl, rfl⟩
        · cases turns with
          | zero => rfl
          | succ turns =>
              simp only [parseWidth, found, if_neg digit, widthFrom,
                List.takeWhile_cons_of_neg digit]
              rfl
        · rw [afterWidth, List.dropWhile_cons_of_neg digit]
          exact here.read

/-- What follows the flag, the width and the length modifier. -/
def afterModifiers (spec : List (BitVec 8)) : List (BitVec 8) :=
  afterLength (afterWidth (afterFlag spec))

/-- What the conversion `c` prints after these modifiers. -/
def specOutput (strings : Word → List (BitVec 8)) (spec : List (BitVec 8)) (c : BitVec 8)
    (slot : Word) : Option (List (BitVec 8)) :=
  printConversion strings c (flagPad spec) (widthFrom 0 (afterFlag spec))
    (lengthModifier (afterWidth (afterFlag spec))) slot

theorem convert_at (here : printer.At text nul s) (args : Nat → Word)
    (strings : Word → List (BitVec 8)) (turns : Nat) :
    ∃ after : Printer, after.At text nul (afterModifiers s) ∧ after.ap = printer.ap ∧
      after.out = printer.out ∧
      convert text args strings turns printer =
        if ((afterFlag s).takeWhile isDigit).length < turns then
          (specOutput strings s (text after.fmt) (args printer.ap)).map fun out =>
            { (after.print out).advance with ap := printer.ap + slotsTaken (text after.fmt) }
        else none := by
  obtain ⟨flagged, flag, there, ap, out⟩ := parseFlag_at here
  obtain ⟨wide, width, there, wideAp, wideOut⟩ := parseWidth_at there turns 0
  obtain ⟨long, length, there, longAp, longOut⟩ := parseLength_at there
  refine ⟨long.read, there.read, ?_, ?_, ?_⟩
  · exact longAp.trans (wideAp.trans ap)
  · exact longOut.trans (wideOut.trans out)
  · simp only [convert, flag, width]
    split
    next enough =>
      have same : long.read.ap = printer.ap := longAp.trans (wideAp.trans ap)
      simp only [Option.bind_some, length, same]
      rfl
    next => rfl

end Scan

end DragoonKernel
