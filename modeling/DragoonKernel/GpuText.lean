import DragoonKernel.GpuTextCore
import DragoonKernel.PrintfNumbers

/-!
The numbers that the screen shows are the numbers that `printf` prints: `gpu_draw_int` draws the
digits of `%d`.
-/

namespace DragoonKernel

universe u

variable {Pixel : Type u}

/-- The text of a number as `%d` prints it. -/
def intText (val : Int) : List (BitVec 8) :=
  (if val < 0 then [byte '-'] else []) ++ numeral false 10 val.natAbs

theorem decimalSymbol_eq {digit : Nat} (small : digit < 10) :
    byte '0' + BitVec.ofNat 8 digit = digitSymbol false digit := by
  have all : ∀ digit < 10, byte '0' + BitVec.ofNat 8 digit = digitSymbol false digit := by decide
  exact all digit small

theorem pushDigits_eq {turns val : Nat} (short : val < 10 ^ turns) {buf : List (BitVec 8)}
    (room : buf.length ≤ decimalBufSize) :
    pushDigits turns val buf =
      let full := buf ++ (Nat.digits 10 val).map (digitSymbol false)
      if full.length ≤ decimalBufSize then some full else none := by
  induction turns generalizing val buf with
  | zero =>
      obtain rfl : val = 0 := Nat.lt_one_iff.mp short
      simp [pushDigits, room]
  | succ turns ih =>
      rw [pushDigits]
      split
      next positive =>
        have shorter : val / 10 < 10 ^ turns := Nat.div_lt_of_lt_mul (by rwa [← Nat.pow_succ'])
        have digits : (Nat.digits 10 val).map (digitSymbol false) =
            digitSymbol false (val % 10) :: (Nat.digits 10 (val / 10)).map (digitSymbol false) := by
          rw [Nat.digits_of_two_le_of_pos (by decide) positive, List.map_cons]
        rw [digits, decimalSymbol_eq (Nat.mod_lt val (by decide)), pushByte]
        split
        next place =>
          have longer : (buf ++ [digitSymbol false (val % 10)]).length ≤ decimalBufSize := by
            simpa using place
          rw [Option.bind_some, ih shorter longer, List.append_assoc]
          rfl
        next spills =>
          simp only [List.length_append, List.length_cons, Option.bind_none]
          rw [if_neg (by omega)]
      next zero =>
        obtain rfl : val = 0 := by omega
        simp [room]

/-- The buffer holds the digits of a number of at most 16. -/
theorem decimalBuf_eq {val : Nat} (short : val < 10 ^ decimalTurns) :
    decimalBuf val =
      if val < 10 ^ decimalBufSize then some (numeral false 10 val).reverse else none := by
  have reversed : (numeral false 10 val).reverse =
      (Numeral.digits 10 val).map (digitSymbol false) := by
    rw [numeral, Numeral.write, List.reverse_reverse]
  rw [decimalBuf, reversed, Numeral.digits]
  by_cases zero : val = 0
  · subst zero
    rfl
  · have nonzero : ¬(val : Int) = 0 := by omega
    rw [if_neg nonzero, if_neg zero, Int.toNat_natCast, pushDigits_eq short (Nat.zero_le _)]
    simp only [List.nil_append, List.length_map, Nat.digits_length_le_iff (by decide : 1 < 10)]

theorem decimalBuf_some {val : Nat} (short : val < 10 ^ decimalBufSize) :
    decimalBuf val = some (numeral false 10 val).reverse := by
  have turns : val < 10 ^ decimalTurns := Nat.lt_of_lt_of_le short (by decide)
  rw [decimalBuf_eq turns, if_pos short]

theorem toInt_magnitude {val : BitVec 32} (proper : val ≠ BitVec.intMin 32) :
    (if val.slt 0 then -val else val).toInt = val.toInt.natAbs := by
  have sign : val.slt 0 = true ↔ val.toInt < 0 := by simp [BitVec.slt]
  split
  next negative =>
    have below := sign.mp negative
    rw [BitVec.toInt_neg_of_ne_intMin proper]
    omega
  next =>
    have above : ¬val.toInt < 0 := fun below => by simp_all
    omega

theorem natAbs_toInt_lt (val : BitVec 32) : val.toInt.natAbs < 10 ^ 10 := by
  have lower := val.le_toInt
  have upper := val.toInt_lt
  norm_num at lower upper ⊢
  omega

theorem intBuf_eq {val : BitVec 32} (proper : val ≠ BitVec.intMin 32) :
    intBuf val = some (intText val.toInt).reverse := by
  have sign : val.slt 0 = true ↔ val.toInt < 0 := by simp [BitVec.slt]
  have short := natAbs_toInt_lt val
  have digits : (numeral false 10 val.toInt.natAbs).length ≤ 10 := by
    rw [numeral, Numeral.length_write, Numeral.digits]
    split
    next => decide
    next => exact (Nat.digits_length_le_iff (by decide) _).mpr short
  simp only [intBuf, toInt_magnitude proper]
  rw [decimalBuf_some (Nat.lt_of_lt_of_le short (by decide)), Option.bind_eq_bind,
    Option.bind_some]
  by_cases negative : val.toInt < 0
  · have place : (numeral false 10 val.toInt.natAbs).reverse.length < decimalBufSize := by
      rw [List.length_reverse]
      exact Nat.lt_of_le_of_lt digits (by decide)
    rw [if_pos (sign.mpr negative), pushByte, if_pos place, intText, if_pos negative]
    simp
  · rw [if_neg (fun less => negative (sign.mp less)), intText, if_neg negative]
    simp

theorem gpuDrawInt_eq (font : Font) (target : Raster Pixel) (x y : Int) {val : BitVec 32}
    (proper : val ≠ BitVec.intMin 32) (fg bg : Pixel) :
    gpuDrawInt font target x y val fg bg =
      some (gpuDrawString font target x y (intText val.toInt) fg bg) := by
  rw [gpuDrawInt, intBuf_eq proper, Option.map_some, List.reverse_reverse]

/-- The smallest `int` is its own negation, and only its sign is drawn. -/
example : intBuf (BitVec.intMin 32) = some [byte '-'] := by decide

/-- The conversion `%d` with no flags. -/
def plainInt : NumericSpec := ⟨false, 0, .int, .d⟩

theorem plainInt_field (slot : Word) :
    plainInt.field slot = intText (slot.setWidth 32).toInt := by
  rw [NumericSpec.field, plainInt, Numeral.field_blanks, Nat.zero_sub]
  rfl

theorem plainInt_fits (slot : Word) : plainInt.Fits slot := by
  rw [NumericSpec.Fits]
  split
  next => exact Nat.zero_le _
  next => exact Nat.zero_le _

/-- On the screen and on the serial line a number has the same text. -/
theorem gpuDrawInt_draws_printf (font : Font) (target : Raster Pixel) (x y : Int)
    {val : BitVec 32} (proper : val ≠ BitVec.intMin 32) (fg bg : Pixel) {text : Nat → BitVec 8}
    (format : Formats text 0 (cString "%d")) (args : Nat → Word)
    (slot : (args 0).setWidth 32 = val) (strings : Word → List (BitVec 8)) :
    ∃ turns final, kvprintf text args strings turns .start = some final ∧
      gpuDrawInt font target x y val fg bg =
        some (gpuDrawString font target x y final.out fg bg) := by
  have printed := (specOutput_field_iff plainInt strings (args 0)).mpr (plainInt_fits (args 0))
  obtain ⟨turns, final, run, out, _⟩ :=
    (printsNumber_iff_specOutput plainInt format args strings).mpr printed
  refine ⟨turns, final, run, ?_⟩
  rw [out, plainInt_field, slot, gpuDrawInt_eq font target x y proper fg bg]

theorem gpuDrawInt_draws_printf_negative :
    ∃ turns final, kvprintf (textOf (cString "%d")) (fun _ => -42) (fun _ => []) turns .start =
        some final ∧
      gpuDrawInt (fun _ _ => 0) (fbTarget fun _ => colorBlack) 8 4 (-42) colorWhite colorBlack =
        some (gpuDrawString (fun _ _ => 0) (fbTarget fun _ => colorBlack) 8 4 final.out colorWhite
          colorBlack) :=
  gpuDrawInt_draws_printf _ _ 8 4 (by decide) _ _ (formats_textOf [] (by decide)) (fun _ => -42)
    (by decide) fun _ => []

end DragoonKernel
