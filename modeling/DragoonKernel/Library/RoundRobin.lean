import Mathlib.Logic.Basic

/-!
Round robin over numbered slots. Each turn goes forward from the current slot to the nearest
one that is ready, and a slot stays ready until its turn.
-/

namespace RoundRobin

/-- The steps from `start` forward to `slot`, a full circle when they are the same. -/
def distance (slots start slot : Nat) : Nat :=
  if start % slots < slot then slot - start % slots else slot + slots - start % slots

variable {slots slot next : Nat}

theorem distance_pos (start : Nat) (inside : slot < slots) : 0 < distance slots start slot := by
  have bound := Nat.mod_lt start (Nat.zero_lt_of_lt inside)
  unfold distance
  split <;> omega

theorem distance_le (start : Nat) (inside : slot < slots) : distance slots start slot ≤ slots := by
  unfold distance
  split <;> omega

theorem distance_self (inside : slot < slots) : distance slots slot slot = slots := by
  unfold distance
  rw [Nat.mod_eq_of_lt inside]
  split <;> omega

theorem distance_inj {start : Nat} (inside : slot < slots) (also : next < slots)
    (same : distance slots start next = distance slots start slot) : next = slot := by
  have bound := Nat.mod_lt start (Nat.zero_lt_of_lt inside)
  unfold distance at same
  split at same <;> split at same <;> omega

theorem distance_advance {start : Nat} (inside : slot < slots) (also : next < slots)
    (nearer : distance slots start next < distance slots start slot) :
    distance slots next slot + distance slots start next = distance slots start slot := by
  have bound := Nat.mod_lt start (Nat.zero_lt_of_lt inside)
  unfold distance at nearer ⊢
  rw [Nat.mod_eq_of_lt also]
  split at nearer <;> split at nearer <;> split <;> omega

/-- `position turn` is the slot that the turn starts from. -/
structure Turns (slots : Nat) (position : Nat → Nat) (ready : Nat → Nat → Prop) : Prop where
  nearest : ∀ turn slot, slot < slots → ready turn slot → position (turn + 1) < slots ∧
    distance slots (position turn) (position (turn + 1)) ≤ distance slots (position turn) slot
  stays : ∀ turn slot, slot < slots → ready turn slot → slot ≠ position (turn + 1) →
    ready (turn + 1) slot

variable {position : Nat → Nat} {ready : Nat → Nat → Prop}

theorem Turns.within (turns : Turns slots position ready) (inside : slot < slots) (bound : Nat) :
    ∀ turn, ready turn slot → distance slots (position turn) slot ≤ bound →
      ∃ later, turn ≤ later ∧ later < turn + bound ∧ ready later slot ∧
        position (later + 1) = slot := by
  induction bound with
  | zero =>
      intro turn _ near
      have positive := distance_pos (position turn) inside
      omega
  | succ bound ih =>
      intro turn waits near
      by_cases here : position (turn + 1) = slot
      · exact ⟨turn, Nat.le_refl _, by omega, waits, here⟩
      · obtain ⟨also, nearest⟩ := turns.nearest turn slot inside waits
        have different : distance slots (position turn) (position (turn + 1)) ≠
            distance slots (position turn) slot := fun same => here (distance_inj inside also same)
        have advance := distance_advance inside also (Nat.lt_of_le_of_ne nearest different)
        have moved := distance_pos (position turn) also
        obtain ⟨later, lower, upper, selected⟩ := ih (turn + 1)
          (turns.stays turn slot inside waits (Ne.symm here)) (by omega)
        exact ⟨later, by omega, by omega, selected⟩

theorem Turns.passes (turns : Turns slots position ready) {other : Nat} (inside : slot < slots)
    (otherInside : other < slots) (gap : Nat) :
    ∀ turn, ready turn other →
      distance slots (position turn) other < distance slots (position turn) slot →
      position (turn + gap + 1) = slot →
      ∃ between, turn ≤ between ∧ between < turn + gap ∧ ready between other ∧
        position (between + 1) = other := by
  induction gap with
  | zero =>
      intro turn waits ahead selected
      have nearest := (turns.nearest turn other otherInside waits).2
      rw [Nat.add_zero] at selected
      rw [selected] at nearest
      omega
  | succ gap ih =>
      intro turn waits ahead selected
      by_cases here : position (turn + 1) = other
      · exact ⟨turn, Nat.le_refl _, by omega, waits, here⟩
      · obtain ⟨also, nearest⟩ := turns.nearest turn other otherInside waits
        have different : distance slots (position turn) (position (turn + 1)) ≠
            distance slots (position turn) other :=
          fun same => here (distance_inj otherInside also same)
        have toOther := distance_advance otherInside also (Nat.lt_of_le_of_ne nearest different)
        have toSlot := distance_advance inside also
          (Nat.lt_of_le_of_lt nearest ahead)
        obtain ⟨between, lower, upper, picked⟩ := ih (turn + 1)
          (turns.stays turn other otherInside waits (Ne.symm here)) (by omega)
          (by rw [show turn + 1 + gap + 1 = turn + (gap + 1) + 1 by omega]; exact selected)
        exact ⟨between, by omega, by omega, picked⟩

/-- A ready slot has its turn within one circle. -/
theorem Turns.bounded (turns : Turns slots position ready) (inside : slot < slots) (turn : Nat)
    (waits : ready turn slot) :
    ∃ later, turn ≤ later ∧ later < turn + slots ∧ ready later slot ∧
      position (later + 1) = slot :=
  turns.within inside slots turn waits (distance_le _ inside)

/-- Between two turns of a slot comes one of every slot that is ready after the first. -/
theorem Turns.between (turns : Turns slots position ready) {other first second : Nat}
    (inside : slot < slots) (otherInside : other < slots) (different : other ≠ slot)
    (earlier : first < second) (opens : position (first + 1) = slot)
    (closes : position (second + 1) = slot) (waits : ready (first + 1) other) :
    ∃ between, first < between ∧ between < second ∧ ready between other ∧
      position (between + 1) = other := by
  have ahead : distance slots (position (first + 1)) other <
      distance slots (position (first + 1)) slot := by
    rw [opens, distance_self inside]
    refine Nat.lt_of_le_of_ne (distance_le _ otherInside) fun full => ?_
    exact different (distance_inj inside otherInside (full.trans (distance_self inside).symm))
  obtain ⟨gap, rfl⟩ : ∃ gap, second = first + 1 + gap := ⟨second - (first + 1), by omega⟩
  obtain ⟨between, lower, upper, picked⟩ := turns.passes inside otherInside gap (first + 1) waits
    ahead closes
  exact ⟨between, by omega, by omega, picked⟩

end RoundRobin
