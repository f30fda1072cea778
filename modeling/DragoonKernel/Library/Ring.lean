import Mathlib.Data.BitVec
import Mathlib.Logic.Function.Basic
import Mathlib.Tactic.SplitIfs

/-!
Rings of slots under free-running counters. A counter of `width` bits wraps around, and its
slot is its remainder by the capacity. The last section has rings under two indices that wrap
at the capacity, one slot of which stays empty.
-/

namespace Ring

universe u

variable {Slot : Type u} {width : Nat}

def slot (capacity : Nat) (counter : BitVec width) : Nat := counter.toNat % capacity

/-- The slots of the counters from `start` up to `stop` hold `items` in order. -/
def Holds (ring : Nat → Slot) (capacity : Nat) : BitVec width → BitVec width → List Slot → Prop
  | start, stop, [] => start = stop
  | start, stop, item :: rest =>
      ring (slot capacity start) = item ∧ Holds ring capacity (start + 1) stop rest

variable {ring : Nat → Slot} {capacity : Nat} {start stop : BitVec width} {items : List Slot}

theorem slot_add (divides : capacity ∣ 2 ^ width) (counter : BitVec width) (count : Nat) :
    slot capacity (counter + BitVec.ofNat width count) = (counter.toNat + count) % capacity := by
  rw [slot, BitVec.toNat_add, BitVec.toNat_ofNat, Nat.mod_mod_of_dvd _ divides, Nat.add_mod,
    Nat.mod_mod_of_dvd _ divides, ← Nat.add_mod]

/-- Counters less than a capacity apart have slots of their own. -/
theorem slot_add_ne (divides : capacity ∣ 2 ^ width) (counter : BitVec width) {count : Nat}
    (positive : 0 < count) (below : count < capacity) :
    slot capacity counter ≠ slot capacity (counter + BitVec.ofNat width count) := by
  rw [slot_add divides, slot]
  intro same
  have divided : capacity ∣ count :=
    (Nat.modEq_iff_dvd' (Nat.le_add_right _ _)).mp same |>.trans (by simp)
  exact absurd (Nat.le_of_dvd positive divided) (by omega)

theorem Holds.stop_eq (holds : Holds ring capacity start stop items) :
    stop = start + BitVec.ofNat width items.length := by
  induction items generalizing start with
  | nil =>
      have same : start = stop := holds
      simp [same]
  | cons item rest ih =>
      rw [ih holds.2, List.length_cons, BitVec.ofNat_add, BitVec.add_assoc, BitVec.add_comm 1]
      rfl

theorem Holds.length_eq (holds : Holds ring capacity start stop items)
    (short : items.length < 2 ^ width) : items.length = (stop - start).toNat := by
  rw [holds.stop_eq, add_sub_cancel_left, BitVec.toNat_ofNat, Nat.mod_eq_of_lt short]

theorem Holds.eq_nil_iff (holds : Holds ring capacity start stop items)
    (short : items.length < 2 ^ width) : items = [] ↔ start = stop := by
  constructor
  · rintro rfl
    exact holds
  · rintro rfl
    rw [← List.length_eq_zero_iff, holds.length_eq short, BitVec.sub_self]
    rfl

/-- Filling the slot of the counter `stop` keeps the items of a ring that is not full. -/
theorem Holds.update (divides : capacity ∣ 2 ^ width)
    (holds : Holds ring capacity start stop items) (room : items.length < capacity) (item : Slot) :
    Holds (Function.update ring (slot capacity stop) item) capacity start stop items := by
  induction items generalizing start with
  | nil => exact holds
  | cons first rest ih =>
      refine ⟨?_, ih holds.2 (by simp at room; omega)⟩
      rw [Function.update_of_ne, holds.1]
      rw [holds.stop_eq]
      exact slot_add_ne divides start (by simp) room

theorem Holds.append {item : Slot} (holds : Holds ring capacity start stop items)
    (filled : ring (slot capacity stop) = item) :
    Holds ring capacity start (stop + 1) (items ++ [item]) := by
  induction items generalizing start with
  | nil =>
      have same : start = stop := holds
      subst same
      exact ⟨filled, rfl⟩
  | cons first rest ih => exact ⟨holds.1, ih holds.2⟩

theorem Holds.push (divides : capacity ∣ 2 ^ width)
    (holds : Holds ring capacity start stop items) (room : items.length < capacity) (item : Slot) :
    Holds (Function.update ring (slot capacity stop) item) capacity start (stop + 1)
      (items ++ [item]) :=
  (holds.update divides room item).append (Function.update_self _ _ _)

theorem Holds.slot_ne (divides : capacity ∣ 2 ^ width)
    (holds : Holds ring capacity start stop items) (room : items.length < capacity) {place : Nat}
    (listed : place < items.length) :
    slot capacity (start + BitVec.ofNat width place) ≠ slot capacity stop := by
  have later : stop = start + BitVec.ofNat width place +
      BitVec.ofNat width (items.length - place) := by
    rw [BitVec.add_assoc, ← BitVec.ofNat_add, Nat.add_sub_of_le listed.le]
    exact holds.stop_eq
  rw [later]
  exact slot_add_ne divides _ (by omega) (by omega)

section Gap

/-- How many slots lie from `tail` up to `head`. -/
def distance (capacity tail head : Nat) : Nat := (head + capacity - tail) % capacity

def contents (slots : Nat → Slot) (capacity tail head : Nat) : List Slot :=
  (List.range (distance capacity tail head)).map fun i => slots ((tail + i) % capacity)

variable {tail head : Nat}

theorem mod_eq_ite {index : Nat} (below : index < 2 * capacity) :
    index % capacity = if index < capacity then index else index - capacity := by
  split
  next within => exact Nat.mod_eq_of_lt within
  next wrapped =>
    rw [Nat.mod_eq_sub_mod (Nat.not_lt.mp wrapped), Nat.mod_eq_of_lt (by omega)]

theorem distance_eq_ite (tailBelow : tail < capacity) (headBelow : head < capacity) :
    distance capacity tail head = if tail ≤ head then head - tail else head + capacity - tail := by
  rw [distance, mod_eq_ite (by omega)]
  split <;> split <;> omega

theorem length_contents (slots : Nat → Slot) (capacity tail head : Nat) :
    (contents slots capacity tail head).length = distance capacity tail head := by
  rw [contents, List.length_map, List.length_range]

theorem contents_eq_nil_iff (slots : Nat → Slot) (tailBelow : tail < capacity)
    (headBelow : head < capacity) :
    contents slots capacity tail head = [] ↔ tail = head := by
  rw [← List.length_eq_zero_iff, length_contents, distance_eq_ite tailBelow headBelow]
  split <;> omega

theorem full_iff (tailBelow : tail < capacity) (headBelow : head < capacity) :
    (head + 1) % capacity = tail ↔ distance capacity tail head = capacity - 1 := by
  rw [distance_eq_ite tailBelow headBelow, mod_eq_ite (by omega)]
  split <;> split <;> omega

theorem contents_push (slots : Nat → Slot) (tailBelow : tail < capacity)
    (headBelow : head < capacity) (room : (head + 1) % capacity ≠ tail) (item : Slot) :
    contents (Function.update slots head item) capacity tail ((head + 1) % capacity) =
      contents slots capacity tail head ++ [item] := by
  have nextBelow : (head + 1) % capacity < capacity := Nat.mod_lt _ (by omega)
  have count : distance capacity tail ((head + 1) % capacity) = distance capacity tail head + 1 := by
    rw [distance_eq_ite tailBelow nextBelow, distance_eq_ite tailBelow headBelow]
    rw [mod_eq_ite (by omega)] at room ⊢
    split_ifs at room ⊢ <;> omega
  have bound := distance_eq_ite tailBelow headBelow
  rw [contents, count, List.range_succ, List.map_append, List.map_singleton]
  congr 1
  · refine List.map_congr_left fun i listed => Function.update_of_ne ?_ _ _
    have below := List.mem_range.mp listed
    have short := Nat.lt_of_lt_of_eq below bound
    rw [mod_eq_ite (by split at short <;> omega)]
    split_ifs at short ⊢ <;> omega
  · have last : (tail + distance capacity tail head) % capacity = head := by
      rw [bound, mod_eq_ite (by split <;> omega)]
      split_ifs <;> omega
    rw [last, Function.update_self]

theorem contents_pop (slots : Nat → Slot) (tailBelow : tail < capacity)
    (headBelow : head < capacity) (some : tail ≠ head) :
    contents slots capacity tail head =
      slots tail :: contents slots capacity ((tail + 1) % capacity) head := by
  have nextBelow : (tail + 1) % capacity < capacity := Nat.mod_lt _ (by omega)
  have count : distance capacity tail head = distance capacity ((tail + 1) % capacity) head + 1 := by
    rw [distance_eq_ite nextBelow headBelow, distance_eq_ite tailBelow headBelow,
      mod_eq_ite (by omega)]
    split_ifs <;> omega
  rw [contents, count, List.range_succ_eq_map, List.map_cons, List.map_map, Nat.add_zero,
    Nat.mod_eq_of_lt tailBelow]
  congr 1
  refine List.map_congr_left fun i _ => ?_
  rw [Function.comp_apply, Nat.mod_add_mod]
  congr 2
  omega

end Gap

end Ring
