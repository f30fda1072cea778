import Mathlib.Algebra.Order.Ring.Int
import Mathlib.Tactic.Linarith
import Mathlib.Tactic.Ring

/-!
A walk along a ray over a grid of cells. The nearer of the next two grid lines is crossed
first, and the line of its direction after it is a fixed distance further.
-/

/-- Distances from line to line, the directions, the largest distance that can be represented
and the cells that do not stop the ray. -/
structure GridWalk where
  lineX : Int
  lineY : Int
  stepX : Int
  stepY : Int
  limit : Int
  free : Int → Int → Prop

namespace GridWalk

/-- In so many steps no distance exceeds the limit, and the ray is stopped at a distance that
satisfies `far` or not at all. The arguments are the distances of the next lines and the cell. -/
def Clears (walk : GridWalk) (far : Int → Prop) : Nat → Int → Int → Int → Int → Prop
  | 0, _, _, _, _ => True
  | steps + 1, distX, distY, cellX, cellY =>
      if distX < distY then
        distX + walk.lineX ≤ walk.limit ∧
          (¬walk.free (cellX + walk.stepX) cellY → far distX) ∧
          (walk.free (cellX + walk.stepX) cellY →
            walk.Clears far steps (distX + walk.lineX) distY (cellX + walk.stepX) cellY)
      else
        distY + walk.lineY ≤ walk.limit ∧
          (¬walk.free cellX (cellY + walk.stepY) → far distY) ∧
          (walk.free cellX (cellY + walk.stepY) →
            walk.Clears far steps distX (distY + walk.lineY) cellX (cellY + walk.stepY))

variable {walk : GridWalk} {far : Int → Prop} {distX distY cellX cellY : Int}

theorem clears_of_lt {steps : Nat} (first : distX < distY) :
    walk.Clears far (steps + 1) distX distY cellX cellY ↔
      distX + walk.lineX ≤ walk.limit ∧
        (¬walk.free (cellX + walk.stepX) cellY → far distX) ∧
        (walk.free (cellX + walk.stepX) cellY →
          walk.Clears far steps (distX + walk.lineX) distY (cellX + walk.stepX) cellY) := by
  rw [Clears, if_pos first]

theorem clears_of_le {steps : Nat} (first : distY ≤ distX) :
    walk.Clears far (steps + 1) distX distY cellX cellY ↔
      distY + walk.lineY ≤ walk.limit ∧
        (¬walk.free cellX (cellY + walk.stepY) → far distY) ∧
        (walk.free cellX (cellY + walk.stepY) →
          walk.Clears far steps distX (distY + walk.lineY) cellX (cellY + walk.stepY)) := by
  rw [Clears, if_neg (not_lt.mpr first)]

/-- Crossing so many lines stays below the limit. -/
structure Fits (limit line : Int) (steps : Nat) (dist : Int) : Prop where
  positive : 0 ≤ line
  last : dist + steps * line ≤ limit

theorem Fits.cross {limit line dist : Int} {steps : Nat} (fits : Fits limit line (steps + 1) dist) :
    dist + line ≤ limit ∧ Fits limit line steps (dist + line) := by
  obtain ⟨positive, last⟩ := fits
  push_cast at last
  have rest := mul_nonneg (Int.natCast_nonneg steps) positive
  exact ⟨by linarith, positive, by linarith⟩

theorem Fits.stay {limit line dist : Int} {steps : Nat} (fits : Fits limit line (steps + 1) dist) :
    Fits limit line steps dist := by
  obtain ⟨positive, last⟩ := fits
  push_cast at last
  exact ⟨positive, by linarith⟩

/-- Once both lines are far away, every stop is. -/
theorem clears_of_far {near : Int} (away : ∀ dist, near ≤ dist → far dist) {steps : Nat}
    (fitsX : Fits walk.limit walk.lineX steps distX)
    (fitsY : Fits walk.limit walk.lineY steps distY) (farX : near ≤ distX) (farY : near ≤ distY) :
    walk.Clears far steps distX distY cellX cellY := by
  induction steps generalizing distX distY cellX cellY with
  | zero => trivial
  | succ steps ih =>
      rcases lt_or_ge distX distY with first | first
      · obtain ⟨below, rest⟩ := fitsX.cross
        have onward := fitsX.positive
        exact (clears_of_lt first).mpr
          ⟨below, fun _ => away distX farX, fun _ => ih rest fitsY.stay (by linarith) farY⟩
      · obtain ⟨below, rest⟩ := fitsY.cross
        have onward := fitsY.positive
        exact (clears_of_le first).mpr
          ⟨below, fun _ => away distY farY, fun _ => ih fitsX.stay rest farX (by linarith)⟩

/-- The cell behind the nearer line, and its distance. -/
def FirstStop (walk : GridWalk) (distX distY cellX cellY : Int) : Prop :=
  if distX < distY then ¬walk.free (cellX + walk.stepX) cellY
  else ¬walk.free cellX (cellY + walk.stepY)

/-- Where the lines of both directions lie apart, only the first two crossings can be near: the
nearer line of the two, and the other one. -/
theorem clears_iff_of_apart {near : Int} (away : ∀ dist, near ≤ dist → far dist) {steps : Nat}
    (fitsX : Fits walk.limit walk.lineX (steps + 2) distX)
    (fitsY : Fits walk.limit walk.lineY (steps + 2) distY) (apartX : near ≤ walk.lineX)
    (apartY : near ≤ walk.lineY) (startX : 0 ≤ distX) (startY : 0 ≤ distY) :
    walk.Clears far (steps + 2) distX distY cellX cellY ↔
      (walk.FirstStop distX distY cellX cellY → far (min distX distY)) ∧
        (¬walk.FirstStop distX distY cellX cellY →
          ¬walk.free (cellX + walk.stepX) (cellY + walk.stepY) → far (max distX distY)) := by
  rcases lt_or_ge distX distY with first | first
  · obtain ⟨below, rest⟩ := fitsX.cross
    rw [clears_of_lt first, FirstStop, if_pos first, min_eq_left first.le, max_eq_right first.le,
      not_not]
    simp only [below, true_and]
    refine and_congr_right fun _ => imp_congr_right fun _ => ?_
    rcases lt_or_ge (distX + walk.lineX) distY with second | second
    · -- the line across is so far away that nothing behind it is near
      have settled : walk.Clears far (steps + 1) (distX + walk.lineX) distY
          (cellX + walk.stepX) cellY :=
        clears_of_far away rest fitsY.stay (by linarith) (by linarith)
      exact ⟨fun _ _ => away distY (by linarith), fun _ => settled⟩
    · obtain ⟨belowAgain, last⟩ := fitsY.stay.cross
      rw [clears_of_le second]
      constructor
      · rintro ⟨-, stopped, -⟩ wall
        exact stopped wall
      · intro stopped
        exact ⟨belowAgain, stopped, fun _ =>
          clears_of_far away rest.stay last (by linarith) (by linarith)⟩
  · obtain ⟨below, rest⟩ := fitsY.cross
    rw [clears_of_le first, FirstStop, if_neg (not_lt.mpr first), min_eq_right first,
      max_eq_left first, not_not]
    simp only [below, true_and]
    refine and_congr_right fun _ => imp_congr_right fun _ => ?_
    rcases lt_or_ge distX (distY + walk.lineY) with second | second
    · obtain ⟨belowAgain, last⟩ := fitsX.stay.cross
      rw [clears_of_lt second]
      constructor
      · rintro ⟨-, stopped, -⟩ wall
        exact stopped wall
      · intro stopped
        exact ⟨belowAgain, stopped, fun _ =>
          clears_of_far away last rest.stay (by linarith) (by linarith)⟩
    · have settled : walk.Clears far (steps + 1) distX (distY + walk.lineY) cellX
          (cellY + walk.stepY) :=
        clears_of_far away fitsX.stay rest (by linarith) (by linarith)
      exact ⟨fun _ _ => away distX (by linarith), fun _ => settled⟩

/-- A run straight ahead: each crossing needs `ok`, and free cells lead on. -/
theorem straight_iff (run : Nat → Nat → Prop) {ok free far : Nat → Prop}
    (stop : ∀ place, run 0 place)
    (cross : ∀ steps place, run (steps + 1) place ↔
      ok place ∧ (¬free place → far place) ∧ (free place → run steps (place + 1)))
    (steps place : Nat) :
    run steps place ↔ ∀ count < steps, (∀ index < count, free (place + index)) →
      ok (place + count) ∧ (¬free (place + count) → far (place + count)) := by
  induction steps generalizing place with
  | zero => simp [stop]
  | succ steps ih =>
      have shift : ∀ index, place + 1 + index = place + (index + 1) := fun index => by omega
      rw [cross, ih, Nat.forall_lt_succ_left, ← and_assoc]
      simp only [Nat.forall_lt_succ_left, shift, add_zero, not_lt_zero, IsEmpty.forall_iff,
        implies_true, true_implies]
      refine and_congr_right fun _ => ⟨?_, ?_⟩
      · rintro later count bound ⟨here, along⟩
        exact later here count bound along
      · intro later here count bound along
        exact later count bound ⟨here, along⟩

/-- A ray that may not cross in x has each line in y before it, as far as it gets. -/
theorem clears_iff_of_blockedX (blocked : walk.limit < distX + walk.lineX) (steps : Nat) :
    walk.Clears far steps distX distY cellX cellY ↔ ∀ count < steps,
      (∀ index < count, walk.free cellX (cellY + ((index : Nat) + 1) * walk.stepY)) →
        (distY + (count : Nat) * walk.lineY ≤ distX ∧
          distY + ((count : Nat) + 1) * walk.lineY ≤ walk.limit) ∧
        (¬walk.free cellX (cellY + ((count : Nat) + 1) * walk.stepY) →
          far (distY + (count : Nat) * walk.lineY)) := by
  have cross : ∀ steps place : Nat,
      walk.Clears far (steps + 1) distX (distY + place * walk.lineY) cellX
        (cellY + place * walk.stepY) ↔
      (distY + place * walk.lineY ≤ distX ∧ distY + (place + 1) * walk.lineY ≤ walk.limit) ∧
        (¬walk.free cellX (cellY + (place + 1) * walk.stepY) → far (distY + place * walk.lineY)) ∧
        (walk.free cellX (cellY + (place + 1) * walk.stepY) →
          walk.Clears far steps distX (distY + (place + 1 : Nat) * walk.lineY) cellX
            (cellY + (place + 1 : Nat) * walk.stepY)) := by
    intro steps place
    have dist : distY + place * walk.lineY + walk.lineY = distY + (place + 1) * walk.lineY := by
      ring
    have cell : cellY + place * walk.stepY + walk.stepY = cellY + (place + 1) * walk.stepY := by
      ring
    push_cast
    rcases lt_or_ge distX (distY + place * walk.lineY) with first | first
    · simp only [clears_of_lt first, not_le.mpr blocked, not_le.mpr first, false_and]
    · simp only [clears_of_le first, first, true_and, dist, cell]
  simpa using straight_iff
    (fun steps place => walk.Clears far steps distX (distY + place * walk.lineY) cellX
      (cellY + place * walk.stepY)) (fun _ => trivial) cross steps 0

/-- A ray that may not cross in y has each line in x before it, as far as it gets. -/
theorem clears_iff_of_blockedY (blocked : walk.limit < distY + walk.lineY) (steps : Nat) :
    walk.Clears far steps distX distY cellX cellY ↔ ∀ count < steps,
      (∀ index < count, walk.free (cellX + ((index : Nat) + 1) * walk.stepX) cellY) →
        (distX + (count : Nat) * walk.lineX < distY ∧
          distX + ((count : Nat) + 1) * walk.lineX ≤ walk.limit) ∧
        (¬walk.free (cellX + ((count : Nat) + 1) * walk.stepX) cellY →
          far (distX + (count : Nat) * walk.lineX)) := by
  have cross : ∀ steps place : Nat,
      walk.Clears far (steps + 1) (distX + place * walk.lineX) distY
        (cellX + place * walk.stepX) cellY ↔
      (distX + place * walk.lineX < distY ∧ distX + (place + 1) * walk.lineX ≤ walk.limit) ∧
        (¬walk.free (cellX + (place + 1) * walk.stepX) cellY → far (distX + place * walk.lineX)) ∧
        (walk.free (cellX + (place + 1) * walk.stepX) cellY →
          walk.Clears far steps (distX + (place + 1 : Nat) * walk.lineX) distY
            (cellX + (place + 1 : Nat) * walk.stepX) cellY) := by
    intro steps place
    have dist : distX + place * walk.lineX + walk.lineX = distX + (place + 1) * walk.lineX := by
      ring
    have cell : cellX + place * walk.stepX + walk.stepX = cellX + (place + 1) * walk.stepX := by
      ring
    push_cast
    rcases lt_or_ge (distX + place * walk.lineX) distY with first | first
    · simp only [clears_of_lt first, first, true_and, dist, cell]
    · simp only [clears_of_le first, not_le.mpr blocked, not_lt.mpr first, false_and]
  simpa using straight_iff
    (fun steps place => walk.Clears far steps (distX + place * walk.lineX) distY
      (cellX + place * walk.stepX) cellY) (fun _ => trivial) cross steps 0

end GridWalk
