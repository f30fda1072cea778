import Mathlib.Data.Nat.Digits.Lemmas

/-!
Numerals over an alphabet of symbols, the most significant digit first, and the fields in which
they are right-justified.
-/

namespace Numeral

universe u

variable {Symbol : Type u}

/-- The least significant digit first. Zero has one digit. -/
def digits (base n : Nat) : List Nat := if n = 0 then [0] else Nat.digits base n

def write (symbol : Nat → Symbol) (base n : Nat) : List Symbol :=
  ((digits base n).map symbol).reverse

def read (value : Symbol → Nat) (base : Nat) (text : List Symbol) : Nat :=
  text.foldl (fun total symbol => total * base + value symbol) 0

/-- The sign and the digits in at least `width` columns. -/
def field (blank zero : Symbol) (zeros : Bool) (width : Nat) (sign body : List Symbol) :
    List Symbol :=
  let pad := width - (sign.length + body.length)
  if zeros then sign ++ List.replicate pad zero ++ body
  else List.replicate pad blank ++ sign ++ body

variable {symbol : Nat → Symbol} {value : Symbol → Nat} {base : Nat}

theorem length_digits_pos (base n : Nat) : 0 < (digits base n).length := by
  unfold digits
  split
  next => exact Nat.one_pos
  next nonzero => exact List.length_pos_iff.mpr (Nat.digits_ne_nil_iff_ne_zero.mpr nonzero)

theorem digits_lt (large : 1 < base) {n digit : Nat} (listed : digit ∈ digits base n) :
    digit < base := by
  unfold digits at listed
  split at listed
  next =>
    rw [List.mem_singleton] at listed
    omega
  next => exact Nat.digits_lt_base large listed

theorem ofDigits_digits (base n : Nat) : Nat.ofDigits base (digits base n) = n := by
  unfold digits
  split
  next zero => rw [zero, Nat.ofDigits_singleton]
  next => exact Nat.ofDigits_digits base n

theorem length_write (symbol : Nat → Symbol) (base n : Nat) :
    (write symbol base n).length = (digits base n).length := by
  rw [write, List.length_reverse, List.length_map]

theorem read_snoc (text : List Symbol) (last : Symbol) :
    read value base (text ++ [last]) = read value base text * base + value last := by
  rw [read, List.foldl_append]
  rfl

theorem read_reverse (inverse : ∀ digit < base, value (symbol digit) = digit) (places : List Nat)
    (small : ∀ digit ∈ places, digit < base) :
    read value base (places.map symbol).reverse = Nat.ofDigits base places := by
  induction places with
  | nil => rfl
  | cons digit rest ih =>
      rw [List.map_cons, List.reverse_cons, read_snoc, Nat.ofDigits_cons,
        ih fun other listed => small other (List.mem_cons_of_mem _ listed),
        inverse digit (small digit List.mem_cons_self)]
      ring

theorem read_write (large : 1 < base) (inverse : ∀ digit < base, value (symbol digit) = digit)
    (n : Nat) : read value base (write symbol base n) = n := by
  rw [write, read_reverse inverse _ fun digit listed => digits_lt large listed, ofDigits_digits]

theorem read_zeros {zero : Symbol} (worthless : value zero = 0) (count : Nat)
    (text : List Symbol) :
    read value base (List.replicate count zero ++ text) = read value base text := by
  have start : read value base (List.replicate count zero) = 0 := by
    induction count with
    | zero => rfl
    | succ count ih => rw [List.replicate_succ', read_snoc, ih, worthless, Nat.zero_mul]
  rw [read, List.foldl_append]
  exact congrArg (fun total => text.foldl _ total) start

theorem le_length_field (blank zero : Symbol) (zeros : Bool) (width : Nat)
    (sign body : List Symbol) : width ≤ (field blank zero zeros width sign body).length := by
  simp only [field]
  split <;> simp only [List.length_append, List.length_replicate] <;> omega

theorem field_unsigned (blank zero : Symbol) (zeros : Bool) (width : Nat) (body : List Symbol) :
    field blank zero zeros width [] body =
      List.replicate (width - body.length) (if zeros then zero else blank) ++ body := by
  simp only [field, List.length_nil, Nat.zero_add, List.nil_append, List.append_nil]
  split <;> rfl

theorem field_zeros (blank zero : Symbol) (width : Nat) (sign body : List Symbol) :
    field blank zero true width sign body =
      sign ++ List.replicate (width - (sign.length + body.length)) zero ++ body := rfl

theorem field_blanks (blank zero : Symbol) (width : Nat) (sign body : List Symbol) :
    field blank zero false width sign body =
      List.replicate (width - (sign.length + body.length)) blank ++ sign ++ body := rfl

end Numeral
