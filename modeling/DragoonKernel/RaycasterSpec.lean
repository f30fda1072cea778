import DragoonKernel.Library.GridWalk
import DragoonKernel.Library.Transition
import DragoonKernel.RaycasterCore
import Mathlib.Data.List.GetD
import Mathlib.Tactic.IntervalCases

/-!
When the columns of `cast_rays` stay in the window, and what its helpers compute. A ray goes
over the grid of `world_map` as a walk with the distances that the code keeps for it.
-/

namespace DragoonKernel

def Free (mapX mapY : Int) : Prop := InsideMap mapX mapY ∧ mapCell mapX mapY = 0

instance (mapX mapY : Int) : Decidable (Free mapX mapY) :=
  inferInstanceAs (Decidable (InsideMap mapX mapY ∧ mapCell mapX mapY = 0))

def Raycaster.Standing (rc : Raycaster) : Prop := Free (fpToInt rc.playerX) (fpToInt rc.playerY)

structure WallColumn.InWindow (column : WallColumn) (scrH : Int) : Prop where
  start : 0 ≤ column.drawStart
  ordered : column.drawStart ≤ column.drawEnd
  stop : column.drawEnd ≤ scrH
  writes : ∀ write ∈ column.writes scrH, 0 ≤ write.1 ∧ write.1 < scrH

/-- Every value fits an `int`, and every column is drawn inside the window. -/
def Raycaster.CastsInWindow (rc : Raycaster) (target : RenderTarget) : Prop :=
  ∀ col, 0 ≤ col → col < target.w →
    ∃ drawn, castColumn checked rc target.w target.h col = some drawn ∧
      ∀ column ∈ drawn, column.InWindow target.h

/-- From the player to the grid line ahead. -/
def toLine (position component : Int) : Int :=
  if component < 0 then position % fpOne else fpOne - position % fpOne

/-- The length of the ray from grid line to grid line, the largest `int` where it crosses none. -/
def perCell (component : Int) : Int :=
  if component = 0 then 2147483647 else 4294967296 / |component|

/-- The length of the ray up to the grid line ahead. -/
def lineDist (position component : Int) : Int :=
  toLine position component * perCell component / fpOne

def rayWalk (rayCos raySin : Int) : GridWalk where
  lineX := perCell rayCos
  lineY := perCell raySin
  stepX := rayStep rayCos
  stepY := rayStep raySin
  limit := 2147483647
  free := Free

/-- Seen from this distance, a wall is not so high that `line_height` overflows. -/
def Far (scrH cosDiff dist : Int) : Prop := 2 * scrH < max dist 256 * cosDiff / fpOne

/-- No wall is close behind the grid lines around the player, and a ray along an axis comes to
a wall before it would be turned aside. -/
structure Raycaster.RayClear (rc : Raycaster) (scrH rayAngle : Int) : Prop where
  line : (rayWalk (fpCos rayAngle) (fpSin rayAngle)).FirstStop
      (lineDist rc.playerX (fpCos rayAngle)) (lineDist rc.playerY (fpSin rayAngle))
      (fpToInt rc.playerX) (fpToInt rc.playerY) →
    Far scrH (fpCos (rayAngle - rc.playerAngle))
      (min (lineDist rc.playerX (fpCos rayAngle)) (lineDist rc.playerY (fpSin rayAngle)))
  corner : ¬(rayWalk (fpCos rayAngle) (fpSin rayAngle)).FirstStop
      (lineDist rc.playerX (fpCos rayAngle)) (lineDist rc.playerY (fpSin rayAngle))
      (fpToInt rc.playerX) (fpToInt rc.playerY) →
    ¬Free (fpToInt rc.playerX + rayStep (fpCos rayAngle))
      (fpToInt rc.playerY + rayStep (fpSin rayAngle)) →
    Far scrH (fpCos (rayAngle - rc.playerAngle))
      (max (lineDist rc.playerX (fpCos rayAngle)) (lineDist rc.playerY (fpSin rayAngle)))
  alongY : fpCos rayAngle = 0 → ∀ count : Nat,
    (∀ index < count, Free (fpToInt rc.playerX)
      (fpToInt rc.playerY + ((index : Nat) + 1) * rayStep (fpSin rayAngle))) →
    lineDist rc.playerY (fpSin rayAngle) + count * fpOne ≤ lineDist rc.playerX 0
  alongX : fpSin rayAngle = 0 → ∀ count : Nat,
    (∀ index < count, Free
      (fpToInt rc.playerX + ((index : Nat) + 1) * rayStep (fpCos rayAngle))
      (fpToInt rc.playerY)) →
    lineDist rc.playerX (fpCos rayAngle) + count * fpOne < lineDist rc.playerY 0

def Raycaster.ViewClear (rc : Raycaster) (target : RenderTarget) : Prop :=
  ∀ col, 0 ≤ col → col < target.w →
    rc.RayClear target.h (rc.playerAngle - fov / 2 + col * fov / target.w)

theorem checked_eq {value : Int} (low : -2147483648 ≤ value) (high : value ≤ 2147483647) :
    checked value = some value := if_pos ⟨low, high⟩

theorem checked_eq_none {value : Int} (high : 2147483647 < value) : checked value = none :=
  if_neg fun ⟨_, below⟩ => absurd high (not_lt.mpr below)

theorem checked_some {value result : Int} (fits : checked value = some result) :
    result = value := by
  rw [checked] at fits
  split at fits
  · exact (Option.some.inj fits).symm
  · cases fits

structure Component (value : Int) : Prop where
  low : -65536 ≤ value
  high : value ≤ 65536
  steep : value = 0 ∨ 1608 ≤ |value|

theorem component_of_mem {value : Int} (listed : value ∈ sinTable) : Component value := by
  have all : ∀ value ∈ sinTable,
      -65536 ≤ value ∧ value ≤ 65536 ∧ (value = 0 ∨ 1608 ≤ |value|) := by
    decide +kernel
  obtain ⟨low, high, steep⟩ := all value listed
  exact ⟨low, high, steep⟩

theorem component_getD (index : Nat) : Component (sinTable.getD index 0) := by
  rcases lt_or_ge index sinTable.length with below | above
  · rw [List.getD_eq_getElem _ _ below]
    exact component_of_mem (List.getElem_mem below)
  · rw [List.getD_eq_default _ _ above]
    exact ⟨by decide, by decide, .inl rfl⟩

theorem component_sin (angle : Int) : Component (fpSin angle) := component_getD _

theorem component_cos (angle : Int) : Component (fpCos angle) := component_getD _

@[simp] theorem fpSin_emod (angle : Int) : fpSin (angle % 256) = fpSin angle := by
  rw [fpSin, Int.emod_emod_of_dvd _ (dvd_refl _), ← fpSin]

@[simp] theorem fpCos_emod (angle : Int) : fpCos (angle % 256) = fpCos angle := by
  rw [fpCos, Int.emod_add_emod, ← fpCos]

theorem sinTable_quarter : ∀ index < 256,
    (sinTable.getD ((index + 64) % 256) 0 = 0 → |sinTable.getD index 0| = 65536) ∧
      (sinTable.getD index 0 = 0 → |sinTable.getD ((index + 64) % 256) 0| = 65536) := by
  decide +kernel

theorem fpCos_eq_getD (angle : Int) :
    fpCos angle = sinTable.getD (((angle % 256).toNat + 64) % 256) 0 := by
  rw [fpCos]
  congr 1
  omega

theorem abs_sin_of_cos {angle : Int} (zero : fpCos angle = 0) : |fpSin angle| = 65536 := by
  rw [fpCos_eq_getD] at zero
  exact (sinTable_quarter (angle % 256).toNat (by omega)).1 zero

theorem abs_cos_of_sin {angle : Int} (zero : fpSin angle = 0) : |fpCos angle| = 65536 := by
  rw [fpCos_eq_getD]
  exact (sinTable_quarter (angle % 256).toNat (by omega)).2 zero

theorem fpCos_in_view {offset : Int} (low : -21 ≤ offset) (high : offset ≤ 20) :
    57022 ≤ fpCos offset := by
  interval_cases offset <;> decide

theorem perCell_bounds {component : Int} (table : Component component) :
    65536 ≤ perCell component ∧ perCell component ≤ 2147483647 := by
  obtain ⟨low, high, steep⟩ := table
  rw [perCell]
  split
  · omega
  next nonzero =>
    have long := steep.resolve_left nonzero
    have short : |component| ≤ 65536 := abs_le.mpr ⟨low, high⟩
    exact ⟨(Int.le_ediv_iff_mul_le (by omega)).mpr (by omega),
      Int.ediv_le_of_le_mul (by omega) (by omega)⟩

theorem perCell_le {component : Int} (table : Component component) (nonzero : component ≠ 0) :
    perCell component ≤ 2671000 := by
  have long := table.steep.resolve_left nonzero
  rw [perCell, if_neg nonzero]
  exact Int.ediv_le_of_le_mul (by omega) (by omega)

theorem fpDiv_fpOne (component : Int) :
    fpDiv fpOne component =
      if component < 0 then -(4294967296 / |component|) else 4294967296 / |component| := by
  have square : fpOne * fpOne = 4294967296 := by decide
  rw [fpDiv, square]
  split
  next negative =>
    rw [abs_of_neg negative, ← Int.tdiv_eq_ediv_of_nonneg (by decide), Int.tdiv_neg, neg_neg]
  next positive =>
    rw [abs_of_nonneg (not_lt.mp positive), Int.tdiv_eq_ediv_of_nonneg (by decide)]

theorem deltaDist_eq {component : Int} (table : Component component) :
    deltaDist checked component = some (perCell component) := by
  obtain ⟨low, high⟩ := perCell_bounds table
  rw [deltaDist]
  split
  next nonzero =>
    rw [perCell, if_neg nonzero] at low high ⊢
    have positive : fpAbs (fpDiv fpOne component) = 4294967296 / |component| := by
      rw [fpDiv_fpOne, fpAbs]
      split <;> split <;> omega
    have fits : checked (fpDiv fpOne component) = some (fpDiv fpOne component) := by
      rw [fpDiv_fpOne]
      split <;> exact checked_eq (by omega) (by omega)
    simp only [fits, bind, Option.bind, positive]
    exact checked_eq (by omega) high
  next zero => rw [perCell, if_pos (not_not.mp zero)]

theorem toLine_bounds (position component : Int) :
    0 ≤ toLine position component ∧ toLine position component ≤ 65536 := by
  simp only [toLine, fpOne]
  split <;> omega

/-- Where the ray crosses no grid line, the player is taken to be away from the one ahead. -/
theorem toLine_pos {position component : Int} (ahead : 0 ≤ component) :
    1 ≤ toLine position component := by
  simp only [toLine, fpOne, if_neg (not_lt.mpr ahead)]
  omega

theorem lineDist_bounds (position : Int) {component : Int} (table : Component component) :
    0 ≤ lineDist position component ∧ lineDist position component ≤ perCell component := by
  obtain ⟨nonneg, short⟩ := toLine_bounds position component
  obtain ⟨low, high⟩ := perCell_bounds table
  refine ⟨Int.ediv_nonneg (mul_nonneg nonneg (by omega)) (by decide), ?_⟩
  refine Int.ediv_le_of_le_mul (by decide) ?_
  rw [mul_comm]
  exact mul_le_mul_of_nonneg_left short (by omega)

theorem checked_intToFp {value : Int} (low : 0 ≤ value) (high : value ≤ 480) :
    checked (intToFp value) = some (intToFp value) :=
  checked_eq (by simp only [intToFp, fpOne]; omega) (by simp only [intToFp, fpOne]; omega)

theorem sideDist_eq {position component : Int} (table : Component component)
    (low : 0 ≤ position) (high : position < 1048576) :
    sideDist checked position (fpToInt position) component (perCell component) =
      some (lineDist position component) := by
  obtain ⟨nonneg, short⟩ := lineDist_bounds position table
  obtain ⟨-, fits⟩ := perCell_bounds table
  obtain ⟨bottom, top⟩ := toLine_bounds position component
  have restFits : checked (toLine position component) = some (toLine position component) :=
    checked_eq (by omega) (by omega)
  have final : checked (lineDist position component) = some (lineDist position component) :=
    checked_eq (by omega) (by omega)
  simp only [sideDist, bind, Option.bind]
  split
  next negative =>
    have rest : position - intToFp (fpToInt position) = toLine position component := by
      rw [toLine, if_pos negative, intToFp, fpToInt, fpOne]
      omega
    rw [checked_intToFp (by simp only [fpToInt, fpOne]; omega)
      (by simp only [fpToInt, fpOne]; omega)]
    simp only [rest, restFits]
    exact final
  next positive =>
    have rest : intToFp (fpToInt position + 1) - position = toLine position component := by
      rw [toLine, if_neg positive, intToFp, fpToInt, fpOne]
      omega
    rw [checked_intToFp (by simp only [fpToInt, fpOne]; omega)
      (by simp only [fpToInt, fpOne]; omega)]
    simp only [rest, restFits]
    exact final

theorem mem_rows {start stop row : Int} : row ∈ rows start stop ↔ start ≤ row ∧ row < stop := by
  simp only [rows, List.mem_map, List.mem_range]
  constructor
  · rintro ⟨index, below, rfl⟩
    omega
  · rintro ⟨above, below⟩
    exact ⟨(row - start).toNat, by omega, by omega⟩

theorem inWindow_of_bounds {column : WallColumn} {scrH : Int} (start : 0 ≤ column.drawStart)
    (ordered : column.drawStart ≤ column.drawEnd) (stop : column.drawEnd ≤ scrH) :
    column.InWindow scrH := by
  refine ⟨start, ordered, stop, fun write listed => ?_⟩
  simp only [WallColumn.writes, List.mem_append, List.mem_map, List.mem_filter, mem_rows] at listed
  obtain (⟨row, bounds, rfl⟩ | ⟨row, ⟨bounds, -⟩, rfl⟩) | ⟨row, bounds, rfl⟩ := listed
  · exact ⟨bounds.1, by omega⟩
  · exact ⟨by omega, by omega⟩
  · exact ⟨by omega, bounds.2⟩

/-- Where the ray has crossed its last grid line. -/
def Dda.crossed (dda : Dda) (ray : Ray) : Int :=
  if dda.side = 0 then dda.sideDistX - ray.deltaDistX else dda.sideDistY - ray.deltaDistY

theorem clampDist_eq_max (dist : Int) : clampDist dist = max dist 256 := by
  rw [clampDist]
  split <;> omega

theorem fpDiv_height_nonneg {scrH dist : Int} (high : 0 ≤ scrH) (positive : 0 < dist) :
    0 ≤ fpDiv (intToFp scrH) dist := by
  have nonneg : 0 ≤ intToFp scrH * fpOne := by simp only [intToFp, fpOne]; omega
  rw [fpDiv, Int.tdiv_eq_ediv_of_nonneg nonneg]
  exact Int.ediv_nonneg nonneg positive.le

/-- The height of a wall that is far enough away fits, that of a closer one does not. -/
theorem fpDiv_height_fits_iff {scrH dist : Int} (high : 0 ≤ scrH) (positive : 0 < dist) :
    checked (fpDiv (intToFp scrH) dist) = none ↔ dist ≤ 2 * scrH := by
  have nonneg : 0 ≤ intToFp scrH * fpOne := by simp only [intToFp, fpOne]; omega
  have quotient := fpDiv_height_nonneg high positive
  rw [fpDiv, Int.tdiv_eq_ediv_of_nonneg nonneg] at quotient ⊢
  constructor
  · intro overflows
    by_contra far
    have below : intToFp scrH * fpOne / dist < 2147483648 :=
      Int.ediv_lt_of_lt_mul positive (by simp only [intToFp, fpOne]; omega)
    rw [checked_eq (by omega) (by omega)] at overflows
    cases overflows
  · intro close
    have above : 2147483648 ≤ intToFp scrH * fpOne / dist :=
      (Int.le_ediv_iff_mul_le positive).mpr (by simp only [intToFp, fpOne]; omega)
    exact checked_eq_none (by omega)

theorem perpDist_eq {ray : Ray} {dda : Dda} (nonneg : 0 ≤ dda.crossed ray)
    (fits : dda.crossed ray ≤ 2147483647) :
    dda.perpDist checked ray = some (dda.crossed ray) := by
  rw [← checked_eq (by omega) fits, Dda.perpDist, Dda.crossed]
  split <;> rfl

theorem fpMul_cos_bounds {dist cosDiff : Int} (nonneg : 0 ≤ dist) (fits : dist ≤ 2147483647)
    (low : 0 ≤ cosDiff) (high : cosDiff ≤ 65536) :
    0 ≤ fpMul dist cosDiff ∧ fpMul dist cosDiff ≤ 2147483647 := by
  refine ⟨Int.ediv_nonneg (mul_nonneg nonneg low) (by decide), ?_⟩
  refine Int.ediv_le_of_le_mul (by decide) ?_
  calc dist * cosDiff ≤ dist * 65536 := mul_le_mul_of_nonneg_left high nonneg
    _ ≤ 2147483647 * fpOne := by simp only [fpOne]; omega

theorem drawColumn_iff {playerAngle rayAngle scrH : Int} {ray : Ray} {dda : Dda}
    (short : 400 ≤ scrH) (tall : scrH ≤ 480) (inView : 57022 ≤ fpCos (rayAngle - playerAngle))
    (nonneg : 0 ≤ dda.crossed ray) (fits : dda.crossed ray ≤ 2147483647) :
    (∃ column, drawColumn checked playerAngle rayAngle scrH ray dda = some column ∧
      column.InWindow scrH) ↔
      Far scrH (fpCos (rayAngle - playerAngle)) (dda.crossed ray) := by
  have most := (component_cos (rayAngle - playerAngle)).high
  have nonzero : fpCos (rayAngle - playerAngle) ≠ 0 := by omega
  have distBounds := @fpMul_cos_bounds (max (dda.crossed ray) 256)
    (fpCos (rayAngle - playerAngle)) (by omega) (by omega) (by omega) most
  have height := checked_intToFp (show 0 ≤ scrH by omega) tall
  simp only [drawColumn, perpDist_eq nonneg fits, Option.bind_eq_bind, Option.bind_some,
    fpCos_emod, clampDist_eq_max, if_neg nonzero, height, Far]
  rw [← fpMul]
  obtain ⟨dist, scaled⟩ : ∃ dist, fpMul (max (dda.crossed ray) 256)
      (fpCos (rayAngle - playerAngle)) = dist := ⟨_, rfl⟩
  rw [scaled] at distBounds ⊢
  rw [checked_eq (by omega) distBounds.2, Option.bind_some]
  rcases lt_or_ge (2 * scrH) dist with far | close
  · rw [max_eq_left (by omega)]
    obtain ⟨quotient, found⟩ := Option.ne_none_iff_exists'.mp
      (mt (fpDiv_height_fits_iff (by omega) (by omega)).mp (not_le.mpr far))
    have same := checked_some found
    have quotientNonneg := @fpDiv_height_nonneg scrH dist (by omega) (by omega)
    simp only [found, Option.bind_some]
    obtain ⟨lineHeight, named⟩ : ∃ lineHeight,
        (if fpToInt quotient > scrH then scrH else fpToInt quotient) = lineHeight := ⟨_, rfl⟩
    have bounds : 0 ≤ lineHeight ∧ lineHeight ≤ scrH := by
      rw [← named, fpToInt, fpOne]
      split <;> omega
    have half : (scrH - lineHeight).tdiv 2 = (scrH - lineHeight) / 2 :=
      Int.tdiv_eq_ediv_of_nonneg (by omega)
    simp only [named, checked_eq (show -2147483648 ≤ scrH - lineHeight by omega) (by omega),
      Option.bind_some, half, checked_eq
        (show -2147483648 ≤ (scrH - lineHeight) / 2 + lineHeight by omega) (by omega)]
    refine iff_of_true ⟨_, rfl, inWindow_of_bounds ?_ ?_ ?_⟩ far
    · show 0 ≤ (scrH - lineHeight) / 2
      omega
    · show (scrH - lineHeight) / 2 ≤ (scrH - lineHeight) / 2 + lineHeight
      omega
    · show (scrH - lineHeight) / 2 + lineHeight ≤ scrH
      omega
  · have overflows : checked (fpDiv (intToFp scrH) (max dist 256)) = none :=
      (fpDiv_height_fits_iff (by omega) (by omega)).mpr (by omega)
    simp only [overflows, Option.bind_none]
    simp [close]

def castRay (rayCos raySin : Int) : Ray :=
  ⟨perCell rayCos, perCell raySin, rayStep rayCos, rayStep raySin⟩

def Dda.crossX (ray : Ray) (dda : Dda) : Dda :=
  { dda with sideDistX := dda.sideDistX + ray.deltaDistX, mapX := dda.mapX + ray.stepX, side := 0 }

def Dda.crossY (ray : Ray) (dda : Dda) : Dda :=
  { dda with sideDistY := dda.sideDistY + ray.deltaDistY, mapY := dda.mapY + ray.stepY, side := 1 }

structure Dda.Going (dda : Dda) : Prop where
  missed : dda.hit = false
  inside : InsideMap dda.mapX dda.mapY
  nonnegX : 0 ≤ dda.sideDistX
  fitsX : dda.sideDistX ≤ 2147483647
  nonnegY : 0 ≤ dda.sideDistY
  fitsY : dda.sideDistY ≤ 2147483647

theorem rayStep_bounds (component : Int) : -1 ≤ rayStep component ∧ rayStep component ≤ 1 := by
  rw [rayStep]
  split <;> omega

section Walk

variable {rayCos raySin : Int} {dda : Dda}

theorem Dda.Going.advance_of_lt (going : dda.Going) (table : Component rayCos)
    (first : dda.sideDistX < dda.sideDistY) :
    dda.advance checked (castRay rayCos raySin) =
      if dda.sideDistX + perCell rayCos ≤ 2147483647 then
        some (dda.crossX (castRay rayCos raySin)) else none := by
  obtain ⟨-, ⟨left, right, -, -⟩, nonneg, -, -, -⟩ := going
  obtain ⟨long, -⟩ := perCell_bounds table
  obtain ⟨back, forth⟩ := rayStep_bounds rayCos
  simp only [mapW] at right
  have cell : checked (dda.mapX + rayStep rayCos) = some (dda.mapX + rayStep rayCos) :=
    checked_eq (by omega) (by omega)
  simp only [Dda.advance, if_pos first, castRay, Option.bind_eq_bind, cell, Option.bind_some]
  split
  next fits => rw [checked_eq (by omega) fits, Option.bind_some, Dda.crossX]
  next overflows => rw [checked_eq_none (by omega), Option.bind_none]

theorem Dda.Going.advance_of_le (going : dda.Going) (table : Component raySin)
    (first : dda.sideDistY ≤ dda.sideDistX) :
    dda.advance checked (castRay rayCos raySin) =
      if dda.sideDistY + perCell raySin ≤ 2147483647 then
        some (dda.crossY (castRay rayCos raySin)) else none := by
  obtain ⟨-, ⟨-, -, top, bottom⟩, -, -, nonneg, -⟩ := going
  obtain ⟨long, -⟩ := perCell_bounds table
  obtain ⟨back, forth⟩ := rayStep_bounds raySin
  simp only [mapH] at bottom
  have cell : checked (dda.mapY + rayStep raySin) = some (dda.mapY + rayStep raySin) :=
    checked_eq (by omega) (by omega)
  simp only [Dda.advance, if_neg (not_lt.mpr first), castRay, Option.bind_eq_bind, cell,
    Option.bind_some]
  split
  next fits => rw [checked_eq (by omega) fits, Option.bind_some, Dda.crossY]
  next overflows => rw [checked_eq_none (by omega), Option.bind_none]

theorem look_of_free (free : Free dda.mapX dda.mapY) : dda.look = dda := by
  rw [Dda.look, if_pos free.1, if_neg (not_not.mpr free.2)]

theorem look_hit_of_not_free (wall : ¬Free dda.mapX dda.mapY) : dda.look.hit = true := by
  rw [Dda.look]
  split
  next inside => rw [if_pos fun empty => wall ⟨inside, empty⟩]
  next => rfl

theorem look_crossed (ray : Ray) : dda.look.crossed ray = dda.crossed ray := by
  simp only [Dda.look]
  split
  · split <;> rfl
  · rfl

theorem crossX_crossed (ray : Ray) : (dda.crossX ray).crossed ray = dda.sideDistX := by
  simp [Dda.crossed, Dda.crossX]

theorem crossY_crossed (ray : Ray) : (dda.crossY ray).crossed ray = dda.sideDistY := by
  simp [Dda.crossed, Dda.crossY]

/-- The loop ends without overflow, and what it has hit satisfies `good`. -/
def LoopEnds (ray : Ray) (good : Dda → Prop) (steps : Nat) (dda : Dda) : Prop :=
  ∃ final, ddaLoop checked ray steps dda = some final ∧ (final.hit = true → good final)

theorem loopEnds_succ_iff {ray : Ray} {good : Dda → Prop} {steps : Nat} {moved : Dda}
    (moves : dda.advance checked ray = some moved) (missed : moved.hit = false) :
    LoopEnds ray good (steps + 1) dda ↔
      (¬Free moved.mapX moved.mapY → good moved.look) ∧
        (Free moved.mapX moved.mapY → LoopEnds ray good steps moved) := by
  simp only [LoopEnds, ddaLoop, moves, Option.bind_eq_bind, Option.bind_some]
  by_cases free : Free moved.mapX moved.mapY
  · simp [look_of_free free, missed, free]
  · simp [look_hit_of_not_free free, free]

theorem not_loopEnds_succ {ray : Ray} {good : Dda → Prop} {steps : Nat}
    (overflows : dda.advance checked ray = none) : ¬LoopEnds ray good (steps + 1) dda := by
  simp [LoopEnds, ddaLoop, overflows]

/-- The loop of `cast_rays` is the walk over the grid. -/
theorem loopEnds_iff_clears (tableX : Component rayCos) (tableY : Component raySin)
    {good : Dda → Prop} {far : Int → Prop}
    (drawn : ∀ dda, 0 ≤ dda.crossed (castRay rayCos raySin) →
      dda.crossed (castRay rayCos raySin) ≤ 2147483647 →
        (good dda ↔ far (dda.crossed (castRay rayCos raySin))))
    {steps : Nat} (going : dda.Going) :
    LoopEnds (castRay rayCos raySin) good steps dda ↔
      (rayWalk rayCos raySin).Clears far steps dda.sideDistX dda.sideDistY dda.mapX dda.mapY := by
  induction steps generalizing dda with
  | zero => simp [LoopEnds, ddaLoop, GridWalk.Clears, going.missed]
  | succ steps ih =>
      obtain ⟨longX, -⟩ := perCell_bounds tableX
      obtain ⟨longY, -⟩ := perCell_bounds tableY
      rcases lt_or_ge dda.sideDistX dda.sideDistY with first | first
      · have moves := @Dda.Going.advance_of_lt _ raySin _ going tableX first
        rw [GridWalk.clears_of_lt first]
        by_cases fits : dda.sideDistX + perCell rayCos ≤ 2147483647
        · rw [if_pos fits] at moves
          have stop := drawn (dda.crossX (castRay rayCos raySin)).look
          rw [look_crossed, crossX_crossed] at stop
          rw [loopEnds_succ_iff moves going.missed, stop going.nonnegX going.fitsX]
          refine (and_congr_right fun _ => forall_congr' fun free => ?_).trans
            (and_iff_right fits).symm
          exact ih ⟨going.missed, free.1, by
            show 0 ≤ dda.sideDistX + perCell rayCos
            have nonneg := going.nonnegX
            omega, fits, going.nonnegY, going.fitsY⟩
        · rw [if_neg fits] at moves
          exact iff_of_false (not_loopEnds_succ moves) fun clears => fits clears.1
      · have moves := @Dda.Going.advance_of_le rayCos _ _ going tableY first
        rw [GridWalk.clears_of_le first]
        by_cases fits : dda.sideDistY + perCell raySin ≤ 2147483647
        · rw [if_pos fits] at moves
          have stop := drawn (dda.crossY (castRay rayCos raySin)).look
          rw [look_crossed, crossY_crossed] at stop
          rw [loopEnds_succ_iff moves going.missed, stop going.nonnegY going.fitsY]
          refine (and_congr_right fun _ => forall_congr' fun free => ?_).trans
            (and_iff_right fits).symm
          exact ih ⟨going.missed, free.1, going.nonnegX, going.fitsX, by
            show 0 ≤ dda.sideDistY + perCell raySin
            have nonneg := going.nonnegY
            omega, fits⟩
        · rw [if_neg fits] at moves
          exact iff_of_false (not_loopEnds_succ moves) fun clears => fits clears.1

end Walk

end DragoonKernel
