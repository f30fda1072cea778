import Mathlib.Data.BitVec
import Mathlib.Data.Finset.Card
import Mathlib.Logic.Function.Basic

/-!
Bit-packed maps: an array of machine words of any width, addressed by bit index.
Tests, single-bit updates and updates of a run of bits are described by the bits
they change and by the number of set bits.
-/

namespace Bitmap

variable {w : Nat}

def test (words : Nat → BitVec w) (index : Nat) : Bool :=
  (words (index / w) >>> (index % w)) &&& 1#w != 0#w

def set (words : Nat → BitVec w) (index : Nat) : Nat → BitVec w :=
  Function.update words (index / w) (words (index / w) ||| (1#w <<< (index % w)))

def clear (words : Nat → BitVec w) (index : Nat) : Nat → BitVec w :=
  Function.update words (index / w) (words (index / w) &&& ~~~(1#w <<< (index % w)))

def setRange (words : Nat → BitVec w) (start : Nat) : Nat → Nat → BitVec w
  | 0 => words
  | count + 1 => set (setRange words start count) (start + count)

theorem one_and_ne_zero (word : BitVec w) (positive : 0 < w) :
    (word &&& 1#w != 0#w) = word.getLsbD 0 := by
  have bits : word &&& 1#w = if word.getLsbD 0 then 1#w else 0#w := by
    ext position bound
    by_cases first : position = 0
    · subst first
      by_cases low : word.getLsbD 0 <;> simp_all [← BitVec.getLsbD_eq_getElem]
    · by_cases low : word.getLsbD 0 <;> simp_all
  have different : (1#w : BitVec w) ≠ 0#w := by
    intro same
    have := congrArg BitVec.toNat same
    simp only [BitVec.toNat_ofNat, Nat.zero_mod] at this
    have wide : 1 < 2 ^ w := Nat.one_lt_two_pow (by omega)
    rw [Nat.mod_eq_of_lt wide] at this
    omega
  by_cases low : word.getLsbD 0 <;> simp [bits, low, different]

theorem test_eq_getLsbD [NeZero w] (words : Nat → BitVec w) (index : Nat) :
    test words index = (words (index / w)).getLsbD (index % w) := by
  have positive : 0 < w := Nat.pos_of_ne_zero (NeZero.ne w)
  rw [test, one_and_ne_zero _ positive]
  simp

theorem getLsbD_one_shiftLeft [NeZero w] (shift position : Nat) (bound : position < w) :
    (1#w <<< shift).getLsbD position = decide (position = shift) := by
  have positive : 0 < w := Nat.pos_of_ne_zero (NeZero.ne w)
  simp only [BitVec.getLsbD_shiftLeft, BitVec.getLsbD_one, bound, positive, decide_true,
    Bool.true_and]
  by_cases same : position = shift
  · simp [same]
  · by_cases below : position < shift
    · simp [below, same]
    · simp [below, same]
      omega

theorem index_eq_iff [NeZero w] (first second : Nat) :
    first = second ↔ first / w = second / w ∧ first % w = second % w := by
  constructor
  · rintro rfl
    exact ⟨rfl, rfl⟩
  · rintro ⟨quotient, remainder⟩
    rw [← Nat.div_add_mod first w, ← Nat.div_add_mod second w, quotient, remainder]

@[simp] theorem test_set [NeZero w] (words : Nat → BitVec w) (index query : Nat) :
    test (set words index) query = (decide (query = index) || test words query) := by
  have bound : query % w < w := Nat.mod_lt _ (Nat.pos_of_ne_zero (NeZero.ne w))
  rw [test_eq_getLsbD, test_eq_getLsbD, set]
  by_cases sameWord : query / w = index / w
  · have position : query = index ↔ query % w = index % w := by
      rw [index_eq_iff (w := w)]
      simp [sameWord]
    rw [sameWord, Function.update_self, BitVec.getLsbD_or, getLsbD_one_shiftLeft _ _ bound,
      Bool.or_comm]
    simp [position]
  · have different : query ≠ index := fun same => sameWord (by rw [same])
    simp [Function.update_of_ne sameWord, different]

@[simp] theorem test_clear [NeZero w] (words : Nat → BitVec w) (index query : Nat) :
    test (clear words index) query = (!decide (query = index) && test words query) := by
  have bound : query % w < w := Nat.mod_lt _ (Nat.pos_of_ne_zero (NeZero.ne w))
  rw [test_eq_getLsbD, test_eq_getLsbD, clear]
  by_cases sameWord : query / w = index / w
  · have position : query = index ↔ query % w = index % w := by
      rw [index_eq_iff (w := w)]
      simp [sameWord]
    rw [sameWord, Function.update_self, BitVec.getLsbD_and, BitVec.getLsbD_not,
      getLsbD_one_shiftLeft _ _ bound, Bool.and_comm]
    simp [position, bound]
  · have different : query ≠ index := fun same => sameWord (by rw [same])
    simp [Function.update_of_ne sameWord, different]

@[simp] theorem test_setRange [NeZero w] (words : Nat → BitVec w) (start count query : Nat) :
    test (setRange words start count) query =
      (decide (start ≤ query ∧ query < start + count) || test words query) := by
  induction count with
  | zero => simp [setRange]
  | succ count ih =>
      rw [setRange, test_set, ih, ← Bool.or_assoc]
      congr 1
      rw [← Bool.decide_or]
      apply decide_eq_decide.mpr
      omega

theorem ext_test [NeZero w] {first second : Nat → BitVec w}
    (same : ∀ index, test first index = test second index) : first = second := by
  have positive : 0 < w := Nat.pos_of_ne_zero (NeZero.ne w)
  funext word
  apply BitVec.eq_of_getLsbD_eq
  intro position bound
  have quotient : (word * w + position) / w = word := by
    rw [Nat.add_comm, Nat.add_mul_div_right _ _ positive, Nat.div_eq_of_lt bound, Nat.zero_add]
  have remainder : (word * w + position) % w = position := by
    rw [Nat.add_comm, Nat.add_mul_mod_self_right, Nat.mod_eq_of_lt bound]
  have bits := same (word * w + position)
  rwa [test_eq_getLsbD, test_eq_getLsbD, quotient, remainder] at bits

theorem test_empty [NeZero w] (index : Nat) :
    test (fun _ => 0#w) index = false := by
  simp [test_eq_getLsbD]

/-- The number of set bits below `bound`. -/
def population (words : Nat → BitVec w) (bound : Nat) : Nat :=
  ((Finset.range bound).filter fun index => test words index = true).card

theorem population_le (words : Nat → BitVec w) (bound : Nat) : population words bound ≤ bound := by
  have filtered := Finset.card_filter_le (Finset.range bound) fun index => test words index = true
  rwa [Finset.card_range] at filtered

theorem population_eq_bound_iff (words : Nat → BitVec w) (bound : Nat) :
    population words bound = bound ↔ ∀ index < bound, test words index = true := by
  have all := Finset.card_filter_eq_iff (s := Finset.range bound)
    (p := fun index => test words index = true)
  rw [Finset.card_range] at all
  simpa [population] using all

theorem population_empty [NeZero w] (bound : Nat) :
    population (fun _ => 0#w) bound = 0 := by
  simp [population, test_empty]

theorem population_set [NeZero w] {words : Nat → BitVec w} {index bound : Nat}
    (inside : index < bound) (unset : test words index = false) :
    population (set words index) bound = population words bound + 1 := by
  have members : ((Finset.range bound).filter fun query => test (set words index) query = true) =
      insert index ((Finset.range bound).filter fun query => test words query = true) := by
    ext query
    simp only [Finset.mem_filter, Finset.mem_range, Finset.mem_insert, test_set, Bool.or_eq_true,
      decide_eq_true_eq]
    constructor
    · rintro ⟨range, here | other⟩
      · exact Or.inl here
      · exact Or.inr ⟨range, other⟩
    · rintro (rfl | ⟨range, other⟩)
      · exact ⟨inside, Or.inl rfl⟩
      · exact ⟨range, Or.inr other⟩
  rw [population, members, Finset.card_insert_of_notMem (by simp [unset]), population]

theorem population_clear [NeZero w] {words : Nat → BitVec w} {index bound : Nat}
    (inside : index < bound) (isSet : test words index = true) :
    population (clear words index) bound + 1 = population words bound := by
  have unset : test (clear words index) index = false := by simp
  have restored : set (clear words index) index = words := by
    apply ext_test
    intro query
    by_cases here : query = index
    · simp [here, isSet]
    · simp [here]
  rw [← population_set inside unset, restored]

theorem population_setRange [NeZero w] {words : Nat → BitVec w} {start count bound : Nat}
    (inside : start + count ≤ bound)
    (unset : ∀ index, start ≤ index → index < start + count → test words index = false) :
    population (setRange words start count) bound = population words bound + count := by
  induction count with
  | zero => rfl
  | succ count ih =>
      have last : test (setRange words start count) (start + count) = false := by
        rw [test_setRange, unset (start + count) (by omega) (by omega)]
        simp
      rw [setRange, population_set (by omega) last,
        ih (by omega) (fun index lower upper => unset index lower (by omega))]
      omega

end Bitmap
