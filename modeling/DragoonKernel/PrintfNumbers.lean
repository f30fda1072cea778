import DragoonKernel.PrintfFormat

/-!
The numeric conversions against what the C standard asks of them. The sign is printed before
the padding is, and the padding shares the buffer of the digits.
-/

namespace DragoonKernel

inductive NumericConversion where
  | d
  | u
  | x
  | X
deriving DecidableEq

def NumericConversion.char : NumericConversion → BitVec 8
  | .d => byte 'd'
  | .u => byte 'u'
  | .x => byte 'x'
  | .X => byte 'X'

def NumericConversion.base : NumericConversion → Nat
  | .d => 10
  | .u => 10
  | .x => 16
  | .X => 16

def LengthModifier.chars : LengthModifier → List (BitVec 8)
  | .int => []
  | .long => [byte 'l']
  | .longlong => [byte 'l', byte 'l']

/-- The argument as the C standard reads it. -/
def NumericConversion.value : NumericConversion → LengthModifier → Word → Int
  | .d, .int, slot => (slot.setWidth 32).toInt
  | .d, _, slot => slot.toInt
  | _, .int, slot => (slot.setWidth 32).toNat
  | _, _, slot => slot.toNat

structure NumericSpec where
  zeros : Bool
  width : Nat
  length : LengthModifier
  conversion : NumericConversion

/-- No digits stand for the width 0. -/
def widthText (width : Nat) : List (BitVec 8) := if width = 0 then [] else numeral false 10 width

def NumericSpec.text (spec : NumericSpec) : List (BitVec 8) :=
  (if spec.zeros then [byte '0'] else []) ++ (widthText spec.width ++ (spec.length.chars ++
    [spec.conversion.char]))

def NumericSpec.digits (spec : NumericSpec) (slot : Word) : List (BitVec 8) :=
  numeral (spec.conversion = .X) spec.conversion.base
    (spec.conversion.value spec.length slot).natAbs

/-- What the C standard asks for. -/
def NumericSpec.field (spec : NumericSpec) (slot : Word) : List (BitVec 8) :=
  Numeral.field (byte ' ') (byte '0') spec.zeros spec.width
    (if spec.conversion.value spec.length slot < 0 then [byte '-'] else []) (spec.digits slot)

def digitValue (c : BitVec 8) : Nat :=
  if c ≤ byte '9' then (c - byte '0').toNat
  else if c ≤ byte 'F' then (c - byte 'A').toNat + 10
  else (c - byte 'a').toNat + 10

/-- Blanks, a sign and digits. -/
def parseNumber (base : Nat) (text : List (BitVec 8)) : Int :=
  match text.dropWhile (· = byte ' ') with
  | [] => 0
  | c :: rest =>
      if c = byte '-' then -(Numeral.read digitValue base rest)
      else Numeral.read digitValue base (c :: rest)

/-- The run ends without a fault, and its output is the field, which parses back. -/
def PrintsNumber (text : Nat → BitVec 8) (args : Nat → Word) (strings : Word → List (BitVec 8))
    (spec : NumericSpec) : Prop :=
  ∃ turns final, kvprintf text args strings turns .start = some final ∧
    final.out = spec.field (args 0) ∧
    parseNumber spec.conversion.base final.out = spec.conversion.value spec.length (args 0)

/-- A negative number is printed right without zeros if there is no room for a blank. -/
def NumericSpec.Fits (spec : NumericSpec) (slot : Word) : Prop :=
  if spec.conversion.value spec.length slot < 0 then
    if spec.zeros then spec.width ≤ 65 else spec.width ≤ (spec.digits slot).length + 1
  else spec.width ≤ 64

instance (spec : NumericSpec) (slot : Word) : Decidable (spec.Fits slot) :=
  inferInstanceAs (Decidable (if spec.conversion.value spec.length slot < 0 then
    if spec.zeros then spec.width ≤ 65 else spec.width ≤ (spec.digits slot).length + 1
    else spec.width ≤ 64))

section Scan

theorem widthFrom_digits (number : Nat) (text : List (BitVec 8))
    (digits : ∀ c ∈ text, isDigit c) :
    text.foldl (fun width c => width * 10 + (c - byte '0').setWidth 32) (BitVec.ofNat 32 number) =
      BitVec.ofNat 32 (text.foldl (fun total c => total * 10 + digitValue c) number) := by
  induction text generalizing number with
  | nil => rfl
  | cons c rest ih =>
      have digit : byte '0' ≤ c ∧ c ≤ byte '9' := by
        simpa [isDigit] using digits c List.mem_cons_self
      have next : BitVec.ofNat 32 number * 10 + (c - byte '0').setWidth 32 =
          BitVec.ofNat 32 (number * 10 + digitValue c) := by
        rw [digitValue, if_pos digit.2, BitVec.ofNat_add, BitVec.ofNat_mul, BitVec.ofNat_toNat]
        rfl
      rw [List.foldl_cons, next,
        ih _ fun other listed => digits other (List.mem_cons_of_mem _ listed)]
      rfl

theorem digitSymbol_isDigit {digit : Nat} (small : digit < 10) :
    isDigit (digitSymbol false digit) := by
  have all : ∀ digit < 10, isDigit (digitSymbol false digit) := by decide
  exact all digit small

theorem digitValue_symbol (isUpper : Bool) {digit : Nat} (small : digit < 16) :
    digitValue (digitSymbol isUpper digit) = digit := by
  have all : ∀ isUpper, ∀ digit < 16, digitValue (digitSymbol isUpper digit) = digit := by decide
  exact all isUpper digit small

theorem widthText_isDigit (width : Nat) : ∀ c ∈ widthText width, isDigit c := by
  intro c listed
  unfold widthText at listed
  split at listed
  next => exact absurd listed List.not_mem_nil
  next =>
    obtain ⟨digit, below, rfl⟩ := mem_numeral (by decide) listed
    exact digitSymbol_isDigit below

theorem read_numeral {isUpper : Bool} {base : Nat} (large : 1 < base) (small : base ≤ 16)
    (val : Nat) : Numeral.read digitValue base (numeral isUpper base val) = val :=
  Numeral.read_write large (fun _ below => digitValue_symbol isUpper (by omega)) val

theorem widthText_read (width : Nat) : Numeral.read digitValue 10 (widthText width) = width := by
  unfold widthText
  split
  next zero => exact zero.symm
  next => exact read_numeral (by decide) (by decide) width

theorem numeral_ne_nil (isUpper : Bool) (base val : Nat) : numeral isUpper base val ≠ [] := by
  rw [← List.length_pos_iff, numeral, Numeral.length_write]
  exact Numeral.length_digits_pos base val

/-- A width does not start with the digit that the scanner takes for the flag. -/
theorem numeral_head_ne_zero {width : Nat} (nonzero : width ≠ 0) :
    (numeral false 10 width).head? ≠ some (byte '0') := by
  have nonempty := Nat.digits_ne_nil_iff_ne_zero (b := 10).mpr nonzero
  have small := Nat.digits_lt_base (b := 10) (by decide) (List.getLast_mem nonempty)
  have leading := Nat.getLast_digit_ne_zero 10 nonzero
  have all : ∀ digit < 10, digit ≠ 0 → digitSymbol false digit ≠ byte '0' := by decide
  rw [numeral, Numeral.write, Numeral.digits, if_neg nonzero, List.head?_reverse,
    List.getLast?_map, List.getLast?_eq_some_getLast nonempty, Option.map_some]
  exact fun same => all _ small leading (Option.some.inj same)

theorem modifiers_head (length : LengthModifier) (conversion : NumericConversion) :
    ∃ c rest, length.chars ++ [conversion.char] = c :: rest ∧ ¬isDigit c := by
  cases length <;> cases conversion <;> exact ⟨_, _, rfl, by decide⟩

theorem text_head (spec : NumericSpec) :
    (widthText spec.width ++ (spec.length.chars ++ [spec.conversion.char])).head? ≠
      some (byte '0') := by
  unfold widthText
  split
  next =>
    obtain ⟨c, rest, modifiers, other⟩ := modifiers_head spec.length spec.conversion
    rw [List.nil_append, modifiers, List.head?_cons]
    rintro ⟨⟩
    exact other (by decide)
  next nonzero =>
    have leading := numeral_head_ne_zero nonzero
    obtain ⟨c, rest, digits⟩ := List.exists_cons_of_ne_nil (numeral_ne_nil false 10 spec.width)
    rwa [digits] at leading ⊢

theorem flagPad_text (spec : NumericSpec) :
    flagPad spec.text = if spec.zeros then byte '0' else byte ' ' := by
  unfold flagPad NumericSpec.text
  cases spec.zeros
  · exact if_neg (text_head spec)
  · rfl

theorem afterFlag_text (spec : NumericSpec) :
    afterFlag spec.text =
      widthText spec.width ++ (spec.length.chars ++ [spec.conversion.char]) := by
  unfold afterFlag NumericSpec.text
  cases spec.zeros
  · exact if_neg (text_head spec)
  · rfl

theorem takeWhile_text (spec : NumericSpec) :
    (afterFlag spec.text).takeWhile isDigit = widthText spec.width := by
  obtain ⟨c, rest, modifiers, other⟩ := modifiers_head spec.length spec.conversion
  rw [afterFlag_text, modifiers, List.takeWhile_append_of_pos (widthText_isDigit spec.width),
    List.takeWhile_cons_of_neg other, List.append_nil]

theorem afterWidth_text (spec : NumericSpec) :
    afterWidth (afterFlag spec.text) = spec.length.chars ++ [spec.conversion.char] := by
  obtain ⟨c, rest, modifiers, other⟩ := modifiers_head spec.length spec.conversion
  rw [afterFlag_text, afterWidth, modifiers,
    List.dropWhile_append_of_pos (widthText_isDigit spec.width), List.dropWhile_cons_of_neg other]

theorem widthFrom_text (spec : NumericSpec) :
    widthFrom 0 (afterFlag spec.text) = BitVec.ofNat 32 spec.width := by
  rw [widthFrom, takeWhile_text]
  refine (widthFrom_digits 0 _ (widthText_isDigit spec.width)).trans ?_
  exact congrArg (BitVec.ofNat 32) (widthText_read spec.width)

theorem lengthModifier_text (spec : NumericSpec) :
    lengthModifier (afterWidth (afterFlag spec.text)) = spec.length := by
  rw [afterWidth_text]
  cases spec.length <;> cases spec.conversion <;> rfl

theorem afterModifiers_text (spec : NumericSpec) :
    afterModifiers spec.text = [spec.conversion.char] := by
  rw [afterModifiers, afterWidth_text]
  cases spec.length <;> cases spec.conversion <;> rfl

end Scan

section Run

variable {text : Nat → BitVec 8}

/-- A format that is one conversion prints what the conversion does, or faults with it. -/
theorem kvprintf_single {spec : List (BitVec 8)} {c : BitVec 8}
    (holds : Formats text 0 (byte '%' :: spec)) (complete : afterModifiers spec = [c])
    (args : Nat → Word) (strings : Word → List (BitVec 8)) (turns : Nat) :
    (kvprintf text args strings (turns + 1) .start).map Printer.out =
      if ((afterFlag spec).takeWhile isDigit).length < turns then
        specOutput strings spec c (args 0) else none := by
  have here := start_at holds
  obtain ⟨after, there, _, out, converted⟩ := convert_at here.read.advance args strings turns
  rw [complete] at there
  rw [kvprintf_percent here, converted, there.formats.1]
  split
  next enough =>
    obtain ⟨turns, rfl⟩ := Nat.exists_eq_add_one_of_ne_zero (Nat.ne_zero_of_lt enough)
    have blank : after.out = [] := out
    have slot : args Printer.start.read.advance.ap = args 0 := rfl
    rw [slot]
    cases specOutput strings spec c (args 0) with
    | none => rfl
    | some printed =>
        have stop : Printer.At text _ [] { (after.print printed).advance with
            ap := Printer.start.read.advance.ap + slotsTaken c } := there.advance.congr rfl rfl
        rw [Option.map_some, Option.bind_some, kvprintf_nul stop, Option.map_some]
        simp [Printer.read, Printer.advance, Printer.print, blank]
  next => rfl

theorem kvprintf_single_iff {spec : List (BitVec 8)} {c : BitVec 8}
    (holds : Formats text 0 (byte '%' :: spec)) (complete : afterModifiers spec = [c])
    (args : Nat → Word) (strings : Word → List (BitVec 8)) (wanted : List (BitVec 8) → Prop) :
    (∃ turns final, kvprintf text args strings turns .start = some final ∧ wanted final.out) ↔
      ∃ out, specOutput strings spec c (args 0) = some out ∧ wanted out := by
  constructor
  · rintro ⟨turns, final, run, good⟩
    cases turns with
    | zero => cases run
    | succ turns =>
        have printed := kvprintf_single holds complete args strings turns
        rw [run, Option.map_some] at printed
        split at printed
        next => exact ⟨final.out, printed.symm, good⟩
        next => cases printed
  · rintro ⟨out, printed, good⟩
    have run := kvprintf_single holds complete args strings
      (((afterFlag spec).takeWhile isDigit).length + 1)
    rw [if_pos (Nat.lt_succ_self _), printed] at run
    obtain ⟨final, finished, rfl⟩ := Option.map_eq_some_iff.mp run
    exact ⟨_, final, finished, good⟩

end Run

section Output

variable {isUpper : Bool} {base : Nat}

theorem toInt_width {width : Nat} (small : width ≤ 65) : (BitVec.ofNat 32 width).toInt = width := by
  have toNat : (BitVec.ofNat 32 width).toNat = width := by
    rw [BitVec.toNat_ofNat]
    omega
  rw [BitVec.toInt_eq_toNat_of_lt (by omega), toNat]

/-- The width that reaches `print_unsigned` below a sign. -/
theorem toInt_signWidth {width : Nat} (small : width ≤ 65) :
    (if (BitVec.ofNat 32 width).toInt > 0 then BitVec.ofNat 32 width - 1
      else BitVec.ofNat 32 width).toInt = (width - 1 : Nat) := by
  have whole := toInt_width small
  split
  next positive =>
    rw [toInt_pred positive, whole]
    omega
  next none =>
    rw [whole] at none ⊢
    omega

theorem printUnsigned_field_iff (large : 1 < base) (small : base ≤ 16) (val : Word) (width : Nat)
    (zeros : Bool) :
    printUnsigned val base (BitVec.ofNat 32 width) (if zeros then byte '0' else byte ' ') isUpper =
        some (Numeral.field (byte ' ') (byte '0') zeros width [] (numeral isUpper base val.toNat)) ↔
      width ≤ 64 := by
  have plain : (if zeros then byte '0' else byte ' ') ≠ newline := by
    cases zeros <;> decide
  have body := length_numeral_le isUpper large val
  have long := Numeral.le_length_field (byte ' ') (byte '0') zeros width []
    (numeral isUpper base val.toNat)
  rw [printUnsigned_eq large small val _ plain]
  simp only [List.length_replicate, digitBufSize] at body ⊢
  constructor
  · intro printed
    split at printed
    next fits =>
      rw [← Option.some.inj printed, List.length_append, List.length_replicate] at long
      omega
    next => cases printed
  · intro fits
    rw [toInt_width (by omega), if_pos (by omega)]
    have count : ((width : Int) - (numeral isUpper base val.toNat).length).toNat =
        width - (numeral isUpper base val.toNat).length := by omega
    rw [count, Numeral.field_unsigned]

section Signed

variable {digits : List (BitVec 8)} {width : Nat} {zeros : Bool}

/-- A field that starts with its sign has no blanks. -/
theorem width_of_signFirst {out : List (BitVec 8)}
    (field : byte '-' :: out =
      Numeral.field (byte ' ') (byte '0') false width [byte '-'] digits) :
    width ≤ digits.length + 1 := by
  rw [Numeral.field_blanks] at field
  cases count : width - ([byte '-'].length + digits.length) with
  | zero =>
      rw [List.length_singleton] at count
      omega
  | succ blanks =>
      rw [count, List.replicate_succ] at field
      exact absurd (List.cons.inj field).1 (by decide)

/-- The sign, the padding and the digits are the field if no blank is due. -/
theorem signFirst_of_fits
    (fits : if zeros then width ≤ 65 else width ≤ digits.length + 1) :
    byte '-' :: (List.replicate (((width - 1 : Nat) : Int) - digits.length).toNat
        (if zeros then byte '0' else byte ' ') ++ digits) =
      Numeral.field (byte ' ') (byte '0') zeros width [byte '-'] digits := by
  cases zeros
  · simp only [Bool.false_eq_true, if_false] at fits
    have none : (((width - 1 : Nat) : Int) - digits.length).toNat = 0 := by omega
    have blanks : width - ([byte '-'].length + digits.length) = 0 := by
      rw [List.length_singleton]
      omega
    rw [none, Numeral.field_blanks, blanks]
    rfl
  · have count : (((width - 1 : Nat) : Int) - digits.length).toNat =
        width - ([byte '-'].length + digits.length) := by
      rw [List.length_singleton]
      omega
    rw [count, Numeral.field_zeros]
    rfl

end Signed

theorem printSigned_field_iff {val : Word} (negative : val.toInt < 0) (width : Nat)
    (zeros : Bool) :
    printSigned val (BitVec.ofNat 32 width) (if zeros then byte '0' else byte ' ') =
        some (Numeral.field (byte ' ') (byte '0') zeros width [byte '-']
          (numeral false 10 val.toInt.natAbs)) ↔
      if zeros then width ≤ 65 else width ≤ (numeral false 10 val.toInt.natAbs).length + 1 := by
  have plain : (if zeros then byte '0' else byte ' ') ≠ newline := by
    cases zeros <;> decide
  have body := length_numeral_le false (show 1 < 10 by decide) (-val)
  rw [toNat_neg_magnitude negative] at body
  have long := Numeral.le_length_field (byte ' ') (byte '0') zeros width [byte '-']
    (numeral false 10 val.toInt.natAbs)
  rw [printSigned_eq negative _ plain]
  generalize numeral false 10 val.toInt.natAbs = digits at body long ⊢
  simp only [List.length_replicate, digitBufSize] at body ⊢
  constructor
  · intro printed
    rw [Option.ite_none_right_eq_some] at printed
    obtain ⟨fits, same⟩ := printed
    have field := Option.some.inj same
    rw [← field, List.length_cons, List.length_append, List.length_replicate] at long
    cases zeros
    · exact width_of_signFirst field
    · rw [if_pos rfl]
      omega
  · intro fits
    have short : width ≤ 65 := by
      cases zeros
      · simp only [Bool.false_eq_true, if_false] at fits
        omega
      · exact fits
    rw [toInt_signWidth short, if_pos (by omega), signFirst_of_fits fits]

theorem numeral_head {c : BitVec 8} {rest : List (BitVec 8)} (large : 1 < base)
    (small : base ≤ 16) {val : Nat} (digits : numeral isUpper base val = c :: rest) :
    c ≠ byte ' ' ∧ c ≠ byte '-' := by
  have all : ∀ isUpper, ∀ digit < 16,
      digitSymbol isUpper digit ≠ byte ' ' ∧ digitSymbol isUpper digit ≠ byte '-' := by decide
  have listed : c ∈ numeral isUpper base val := digits ▸ List.mem_cons_self
  obtain ⟨digit, below, rfl⟩ := mem_numeral large listed
  exact all isUpper digit (Nat.lt_of_lt_of_le below small)

theorem parseNumber_blanks (count : Nat) (text : List (BitVec 8)) :
    parseNumber base (List.replicate count (byte ' ') ++ text) = parseNumber base text := by
  rw [parseNumber, List.dropWhile_append_of_pos]
  · rfl
  · intro c listed
    rw [List.eq_of_mem_replicate listed]
    rfl

theorem parseNumber_negative (text : List (BitVec 8)) :
    parseNumber base (byte '-' :: text) = -(Numeral.read digitValue base text) := rfl

theorem parseNumber_zeros (large : 1 < base) (small : base ≤ 16) (count val : Nat) :
    parseNumber base (List.replicate count (byte '0') ++ numeral isUpper base val) = val := by
  have read : Numeral.read digitValue base
      (List.replicate count (byte '0') ++ numeral isUpper base val) = val := by
    rw [Numeral.read_zeros (by decide), read_numeral large small]
  obtain ⟨c, rest, digits⟩ := List.exists_cons_of_ne_nil (numeral_ne_nil isUpper base val)
  obtain ⟨blank, sign⟩ := numeral_head large small digits
  cases count with
  | zero =>
      rw [List.replicate_zero, List.nil_append, digits] at read ⊢
      rw [parseNumber, List.dropWhile_cons_of_neg (by simpa using blank)]
      simp only [if_neg sign, read]
  | succ count =>
      rw [List.replicate_succ, List.cons_append] at read ⊢
      exact congrArg Int.ofNat read

/-- Whatever its padding, a field stands for the number in it. -/
theorem parseNumber_field (isUpper : Bool) (large : 1 < base) (small : base ≤ 16) (zeros : Bool)
    (width val : Nat) (negative : Bool) :
    parseNumber base (Numeral.field (byte ' ') (byte '0') zeros width
      (if negative then [byte '-'] else []) (numeral isUpper base val)) =
        if negative then -(val : Int) else val := by
  cases negative
  · simp only [Bool.false_eq_true, if_false, Numeral.field_unsigned]
    cases zeros
    · simp only [Bool.false_eq_true, if_false, parseNumber_blanks]
      exact parseNumber_zeros large small 0 val
    · exact parseNumber_zeros large small _ val
  · simp only [if_true]
    cases zeros
    · rw [Numeral.field_blanks, List.append_assoc, parseNumber_blanks, List.singleton_append,
        parseNumber_negative, read_numeral large small]
    · rw [Numeral.field_zeros, List.append_assoc, List.singleton_append, parseNumber_negative,
        Numeral.read_zeros (by decide), read_numeral large small]

theorem signed_toInt (length : LengthModifier) (slot : Word) :
    (length.signed slot).toInt = NumericConversion.d.value length slot := by
  cases length
  · exact BitVec.toInt_signExtend_of_le (by decide)
  · rfl
  · rfl

theorem unsigned_toNat (length : LengthModifier) (slot : Word) {conversion : NumericConversion}
    (unsigned : conversion ≠ .d) :
    ((length.unsigned slot).toNat : Int) = conversion.value length slot := by
  have narrow : ((slot.setWidth 32).setWidth 64).toNat = (slot.setWidth 32).toNat := by
    rw [BitVec.toNat_setWidth_of_le (by decide)]
  cases conversion with
  | d => exact absurd rfl unsigned
  | u => cases length <;> first | exact congrArg Int.ofNat narrow | rfl
  | x => cases length <;> first | exact congrArg Int.ofNat narrow | rfl
  | X => cases length <;> first | exact congrArg Int.ofNat narrow | rfl

/-- The conversions other than `%d`. -/
theorem printUnsigned_spec (spec : NumericSpec) (slot : Word) (unsigned : spec.conversion ≠ .d)
    (large : 1 < spec.conversion.base) (small : spec.conversion.base ≤ 16) :
    printUnsigned (spec.length.unsigned slot) spec.conversion.base (BitVec.ofNat 32 spec.width)
        (if spec.zeros then byte '0' else byte ' ') (spec.conversion = .X) =
        some (spec.field slot) ↔ spec.Fits slot := by
  have value := unsigned_toNat spec.length slot unsigned
  have positive : ¬spec.conversion.value spec.length slot < 0 := by omega
  have digits : spec.digits slot = numeral (spec.conversion = .X) spec.conversion.base
      (spec.length.unsigned slot).toNat := by
    rw [NumericSpec.digits, ← value]
    rfl
  rw [NumericSpec.field, NumericSpec.Fits, if_neg positive, if_neg positive, digits]
  exact printUnsigned_field_iff large small _ spec.width spec.zeros

theorem printSigned_spec (spec : NumericSpec) (slot : Word) (signed : spec.conversion = .d) :
    printSigned (spec.length.signed slot) (BitVec.ofNat 32 spec.width)
        (if spec.zeros then byte '0' else byte ' ') = some (spec.field slot) ↔ spec.Fits slot := by
  have value := signed_toInt spec.length slot
  rw [← signed] at value
  have digits : spec.digits slot = numeral false 10 (spec.length.signed slot).toInt.natAbs := by
    rw [NumericSpec.digits, ← value, signed]
    rfl
  rw [NumericSpec.field, NumericSpec.Fits, digits, ← value]
  by_cases negative : (spec.length.signed slot).toInt < 0
  · rw [if_pos negative, if_pos negative]
    exact printSigned_field_iff negative spec.width spec.zeros
  · rw [if_neg negative, if_neg negative, printSigned, if_neg negative]
    have magnitude : (spec.length.signed slot).toInt.natAbs = (spec.length.signed slot).toNat := by
      rw [BitVec.toInt_eq_toNat_cond] at negative ⊢
      split at negative <;> omega
    rw [magnitude]
    exact printUnsigned_field_iff (by decide) (by decide) _ spec.width spec.zeros

theorem specOutput_field_iff (spec : NumericSpec) (strings : Word → List (BitVec 8))
    (slot : Word) :
    specOutput strings spec.text spec.conversion.char slot = some (spec.field slot) ↔
      spec.Fits slot := by
  rw [specOutput, flagPad_text, widthFrom_text, lengthModifier_text]
  cases conversion : spec.conversion with
  | d => exact printSigned_spec spec slot conversion
  | u =>
      have fits := printUnsigned_spec spec slot (by simp [conversion])
      rw [conversion] at fits
      exact fits (by decide) (by decide)
  | x =>
      have fits := printUnsigned_spec spec slot (by simp [conversion])
      rw [conversion] at fits
      exact fits (by decide) (by decide)
  | X =>
      have fits := printUnsigned_spec spec slot (by simp [conversion])
      rw [conversion] at fits
      exact fits (by decide) (by decide)

theorem parseNumber_spec (spec : NumericSpec) (slot : Word) :
    parseNumber spec.conversion.base (spec.field slot) =
      spec.conversion.value spec.length slot := by
  have large : 1 < spec.conversion.base := by cases spec.conversion <;> decide
  have small : spec.conversion.base ≤ 16 := by cases spec.conversion <;> decide
  generalize value : spec.conversion.value spec.length slot = number
  have parsed := parseNumber_field (spec.conversion = .X) large small spec.zeros
    spec.width number.natAbs (number < 0)
  rw [NumericSpec.field, NumericSpec.digits, value]
  simp only [decide_eq_true_eq] at parsed
  rw [parsed]
  split <;> omega

end Output

theorem printsNumber_iff_specOutput (spec : NumericSpec) {text : Nat → BitVec 8}
    (holds : Formats text 0 (byte '%' :: spec.text)) (args : Nat → Word)
    (strings : Word → List (BitVec 8)) :
    PrintsNumber text args strings spec ↔
      specOutput strings spec.text spec.conversion.char (args 0) = some (spec.field (args 0)) := by
  have single := kvprintf_single_iff holds (afterModifiers_text spec) args strings fun out =>
    out = spec.field (args 0) ∧
      parseNumber spec.conversion.base out = spec.conversion.value spec.length (args 0)
  refine single.trans ⟨?_, fun printed => ?_⟩
  · rintro ⟨_, printed, rfl, _⟩
    exact printed
  · exact ⟨spec.field (args 0), printed, rfl, parseNumber_spec spec (args 0)⟩

theorem kvprintf_number_iff (spec : NumericSpec) {text : Nat → BitVec 8}
    (holds : Formats text 0 (byte '%' :: spec.text)) (args : Nat → Word)
    (strings : Word → List (BitVec 8)) :
    PrintsNumber text args strings spec ↔ spec.Fits (args 0) :=
  (printsNumber_iff_specOutput spec holds args strings).trans
    (specOutput_field_iff spec strings (args 0))

/-- The format `"%05d"` with the argument -5. -/
theorem kvprintf_number_iff_zeros :
    PrintsNumber (textOf (byte '%' :: NumericSpec.text ⟨true, 5, .int, .d⟩)) (fun _ => -5)
      (fun _ => []) ⟨true, 5, .int, .d⟩ := by
  have holds : Formats (textOf (byte '%' :: NumericSpec.text ⟨true, 5, .int, .d⟩)) 0
      (byte '%' :: NumericSpec.text ⟨true, 5, .int, .d⟩) := formats_textOf [] (by decide)
  exact (kvprintf_number_iff _ holds (fun _ => -5) fun _ => []).mpr (by decide)

/-- The format `"%5d"` with the argument -5, where the sign comes before the blanks. -/
theorem kvprintf_signBeforeBlanks :
    let spec : NumericSpec := ⟨false, 5, .int, .d⟩
    let text := textOf (byte '%' :: spec.text)
    Formats text 0 (byte '%' :: spec.text) ∧
      (kvprintf text (fun _ => -5) (fun _ => []) 5 .start).map Printer.out =
        some (cString "-   5") ∧
      spec.field (-5) = cString "   -5" ∧ ¬PrintsNumber text (fun _ => -5) (fun _ => []) spec := by
  intro spec text
  have holds : Formats text 0 (byte '%' :: spec.text) := formats_textOf [] (by decide)
  refine ⟨holds, by decide +kernel, by decide +kernel, fun prints => ?_⟩
  have printed := (printsNumber_iff_specOutput spec holds (fun _ => -5) fun _ => []).mp prints
  exact absurd ((specOutput_field_iff spec (fun _ => []) (-5)).mp printed) (by decide)

end DragoonKernel
