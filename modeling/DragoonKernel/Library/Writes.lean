import Mathlib.Logic.Function.Basic
import Mathlib.Data.List.Nodup

/-!
Writes of a memory in a row, and what is read back after them.
-/

universe u v

variable {Address : Type u} {Value : Type v} [DecidableEq Address]

/-- The writes in order, so that of two to one place the later one stays. -/
def writeAll (memory : Address → Value) : List (Address × Value) → Address → Value
  | [] => memory
  | write :: rest => writeAll (Function.update memory write.1 write.2) rest

variable {memory : Address → Value} {writes : List (Address × Value)} {place : Address}

theorem writeAll_other (away : ∀ write ∈ writes, write.1 ≠ place) :
    writeAll memory writes place = memory place := by
  induction writes generalizing memory with
  | nil => rfl
  | cons write rest ih =>
      rw [writeAll, ih fun later listed => away later (List.mem_cons_of_mem write listed)]
      exact Function.update_of_ne (away write List.mem_cons_self).symm _ _

theorem writeAll_written (distinct : (writes.map Prod.fst).Nodup) {value : Value}
    (listed : (place, value) ∈ writes) : writeAll memory writes place = value := by
  induction writes generalizing memory with
  | nil => cases listed
  | cons write rest ih =>
      obtain ⟨apart, later⟩ := List.nodup_cons.mp distinct
      rcases List.mem_cons.mp listed with rfl | further
      · rw [writeAll, writeAll_other, Function.update_self]
        intro other inRest same
        exact apart (List.mem_map.mpr ⟨other, inRest, same⟩)
      · exact ih later further
