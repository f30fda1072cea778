import DragoonKernel.GpuCore

/-! Each drawing primitive paints its shape, clipped to the target. -/

namespace DragoonKernel

universe u

variable {Pixel : Type u} {target : Raster Pixel}

structure InRect (x y w h px py : Int) : Prop where
  left : x ≤ px
  right : px < x + w
  top : y ≤ py
  bottom : py < y + h

theorem inRect_iff {x y w h px py : Int} :
    InRect x y w h px py ↔ x ≤ px ∧ px < x + w ∧ y ≤ py ∧ py < y + h :=
  ⟨fun ⟨left, right, top, bottom⟩ => ⟨left, right, top, bottom⟩,
    fun ⟨left, right, top, bottom⟩ => ⟨left, right, top, bottom⟩⟩

open Classical in
/-- A block of `w` by `h` pixels at `(x, y)`, each by its row and column. -/
noncomputable def blockShade (x y w h : Int) (color : Int → Int → Pixel) : Shade Pixel :=
  fun px py => if InRect x y w h px py then some (color (py - y) (px - x)) else none

open Classical in
/-- As `blockShade`, with transparent cells. -/
noncomputable def cellShade (x y w h : Int) (cell : Int → Int → Option Pixel) : Shade Pixel :=
  fun px py => if InRect x y w h px py then cell (py - y) (px - x) else none

theorem blockShade_const (x y w h : Int) (color : Pixel) :
    blockShade x y w h (fun _ _ => color) = .solid (InRect x y w h) color := rfl

theorem put_paint {x y : Int} (inside : target.Inside x y) {other : Raster Pixel}
    (w : other.w = target.w) (h : other.h = target.h) (color : Pixel) :
    other.put (y * other.w + x) color =
      other.paint (.solid (fun px py => px = x ∧ py = y) color) :=
  Raster.put_eq_paint ⟨inside.left, w ▸ inside.right, inside.top, h ▸ inside.bottom⟩ color

theorem gpuClear_paint (target : Raster Pixel) (color : Pixel) :
    gpuClear target color = target.paint fun _ _ => some color := by
  rw [gpuClear, Raster.forRange_paint (fun x y => y * target.w + x) fun _ _ => some color]
  · refine Raster.paint_congr fun x y inside => ?_
    rw [if_pos inside.index]
  · intro i lower upper other w h
    have inside := target.inside_of_index lower upper
    have here : i / target.w * target.w + i % target.w = i := Int.ediv_mul_add_emod i target.w
    have writes := put_paint inside w h color
    rw [w, here] at writes
    rw [writes]
    refine Raster.paint_congr fun x y within => ?_
    simp only [Shade.solid]
    by_cases same : y * target.w + x = i
    · subst same
      rw [← w, within.emod, within.ediv, if_pos ⟨rfl, rfl⟩, if_pos rfl]
    · rw [if_neg same, if_neg]
      rintro ⟨rfl, rfl⟩
      exact same here

theorem forRange_row {x0 x1 y : Int} (top : 0 ≤ y) (bottom : y < target.h) (left : 0 ≤ x0)
    (right : x1 ≤ target.w) (color : Pixel) :
    forRange x0 x1 (fun i target => target.put (y * target.w + i) color) target =
      target.paint (.solid (fun px py => py = y ∧ x0 ≤ px ∧ px < x1) color) := by
  rw [Raster.forRange_paint (fun px _ => px) (.solid (fun _ py => py = y) color)]
  · refine Raster.paint_congr fun px py _ => ?_
    simp only [Shade.solid, ← ite_and]
    congr 1
    rw [and_comm]
  · intro i lower upper other w h
    rw [put_paint ⟨by omega, by omega, top, bottom⟩ w h]
    refine Raster.paint_congr fun px py _ => ?_
    simp only [Shade.solid, ← ite_and]
    congr

theorem gpuFillRect_paint (target : Raster Pixel) (x y w h : Int) (color : Pixel) :
    gpuFillRect target x y w h color = target.paint (.solid (InRect x y w h) color) := by
  simp only [gpuFillRect]
  rw [Raster.forRange_paint (fun _ py => py)
    (.solid (fun px _ => x ≤ px ∧ px < x + w) color)]
  · refine Raster.paint_congr fun px py inside => ?_
    obtain ⟨left, right, top, bottom⟩ := inside
    simp only [Shade.solid, ← ite_and, inRect_iff]
    congr 1
    refine propext ⟨fun within => ?_, fun within => ?_⟩
    · split at within <;> split at within <;> omega
    · split <;> split <;> omega
  · intro j lower upper other ow oh
    have row : 0 ≤ j ∧ j < other.h := by
      split at lower <;> split at upper <;> omega
    have columns : 0 ≤ (if x < 0 then 0 else x) ∧
        (if x + w > target.w then target.w else x + w) ≤ other.w := by
      constructor <;> split <;> omega
    rw [forRange_row row.1 row.2 columns.1 columns.2]
    refine Raster.paint_congr fun px py inside => ?_
    obtain ⟨left, right, top, bottom⟩ := inside
    simp only [Shade.solid, ← ite_and]
    congr 1
    refine propext ⟨fun within => ?_, fun within => ?_⟩
    · split at within <;> split at within <;> omega
    · split <;> split <;> omega

theorem gpuHline_paint (target : Raster Pixel) (x y w : Int) (color : Pixel) :
    gpuHline target x y w color = target.paint (.solid (InRect x y w 1) color) := by
  unfold gpuHline
  split
  next outside =>
    refine (Raster.paint_outside ?_ color).symm
    rintro px py ⟨left, right, top, bottom⟩ ⟨_, _, above, below⟩
    omega
  next row =>
    simp only [not_or, Int.not_lt, ge_iff_le, Int.not_le] at row
    dsimp only
    rw [forRange_row row.1 row.2 (by split <;> omega) (by split <;> omega)]
    refine Raster.paint_congr fun px py inside => ?_
    obtain ⟨left, right, top, bottom⟩ := inside
    simp only [Shade.solid, inRect_iff]
    congr 1
    refine propext ⟨fun within => ?_, fun within => ?_⟩
    · split at within <;> split at within <;> omega
    · split <;> split <;> omega

theorem gpuVline_paint (target : Raster Pixel) (x y h : Int) (color : Pixel) :
    gpuVline target x y h color = target.paint (.solid (InRect x y 1 h) color) := by
  unfold gpuVline
  split
  next outside =>
    refine (Raster.paint_outside ?_ color).symm
    rintro px py ⟨left, right, top, bottom⟩ ⟨before, after, _, _⟩
    omega
  next column =>
    simp only [not_or, Int.not_lt, ge_iff_le, Int.not_le] at column
    dsimp only
    rw [Raster.forRange_paint (fun _ py => py) (.solid (fun px _ => px = x) color)]
    · refine Raster.paint_congr fun px py inside => ?_
      obtain ⟨left, right, top, bottom⟩ := inside
      simp only [Shade.solid, ← ite_and, inRect_iff]
      congr 1
      refine propext ⟨fun within => ?_, fun within => ?_⟩
      · split at within <;> split at within <;> omega
      · split <;> split <;> omega
    · intro j lower upper other ow oh
      have row : 0 ≤ j ∧ j < target.h := by
        split at lower <;> split at upper <;> omega
      rw [put_paint ⟨column.1, column.2, row.1, row.2⟩ ow oh]
      refine Raster.paint_congr fun px py _ => ?_
      simp only [Shade.solid, ← ite_and]
      congr 1
      exact propext and_comm

theorem gpuPixel_paint (target : Raster Pixel) (x y : Int) (color : Pixel) :
    gpuPixel target x y color = target.paint (.solid (fun px py => px = x ∧ py = y) color) := by
  unfold gpuPixel
  split
  next inside =>
    obtain ⟨left, right, top, bottom⟩ := inside
    exact Raster.put_eq_paint ⟨left, right, top, bottom⟩ color
  next outside =>
    refine (Raster.paint_outside ?_ color).symm
    rintro px py ⟨left, right, top, bottom⟩ ⟨rfl, rfl⟩
    exact outside ⟨left, right, top, bottom⟩

theorem forRange_rows (x y w h : Int) (cell : Int → Int → Option Pixel)
    {row : Int → Raster Pixel → Raster Pixel}
    (each : ∀ j (other : Raster Pixel), other.w = target.w → other.h = target.h →
      row j other = other.paint fun px py =>
        if py = y + j ∧ 0 ≤ px - x ∧ px - x < w then cell j (px - x) else none) :
    forRange 0 h row target = target.paint (cellShade x y w h cell) := by
  rw [Raster.forRange_paint (fun _ py => py - y)
    fun px py => if 0 ≤ px - x ∧ px - x < w then cell (py - y) (px - x) else none]
  · refine Raster.paint_congr fun px py _ => ?_
    simp only [cellShade, ← ite_and, inRect_iff]
    congr 1
    exact propext ⟨fun within => by omega, fun within => by omega⟩
  · intro j _ _ other ow oh
    rw [each j other ow oh]
    refine Raster.paint_congr fun px py _ => ?_
    by_cases here : py - y = j
    · subst here
      have level : py = y + (py - y) := by omega
      simp only [← level, true_and, if_true]
    · rw [if_neg here, if_neg (by omega)]

theorem forRange_columns (x y w j : Int) (cell : Int → Int → Option Pixel)
    {column : Int → Raster Pixel → Raster Pixel}
    (each : ∀ i (other : Raster Pixel), other.w = target.w → other.h = target.h →
      column i other = other.paint fun px py =>
        if px = x + i ∧ py = y + j then cell j i else none) :
    forRange 0 w column target = target.paint fun px py =>
      if py = y + j ∧ 0 ≤ px - x ∧ px - x < w then cell j (px - x) else none := by
  rw [Raster.forRange_paint (fun px _ => px - x)
    fun px py => if py = y + j then cell j (px - x) else none]
  · refine Raster.paint_congr fun px py _ => ?_
    simp only [← ite_and]
    congr 1
    exact propext and_comm
  · intro i _ _ other ow oh
    rw [each i other ow oh]
    refine Raster.paint_congr fun px py _ => ?_
    by_cases here : px - x = i
    · subst here
      have place : px = x + (px - x) := by omega
      simp only [← place, true_and, if_true]
    · rw [if_neg here, if_neg (by omega)]

/-- Rows that lie off the target are left out. -/
theorem forRange_clipped (x y w h : Int) (cell : Int → Int → Option Pixel)
    {column : Int → Int → Raster Pixel → Raster Pixel}
    (each : ∀ j i (other : Raster Pixel), 0 ≤ y + j → y + j < other.h →
      column j i other = other.paint fun px py =>
        if px = x + i ∧ py = y + j then cell j i else none) (target : Raster Pixel) :
    forRange 0 h (fun j target =>
      if y + j < 0 ∨ y + j ≥ target.h then target else forRange 0 w (column j) target) target =
      target.paint (cellShade x y w h cell) := by
  refine forRange_rows x y w h cell fun j other _ _ => ?_
  split
  next outside =>
    refine other.paint_none.symm.trans (Raster.paint_congr fun px py inside => ?_)
    obtain ⟨left, right, top, bottom⟩ := inside
    rw [if_neg (by omega)]
  next row =>
    simp only [not_or, Int.not_lt, ge_iff_le, Int.not_le] at row
    exact forRange_columns x y w j cell fun i another _ h => each j i another row.1 (h ▸ row.2)

theorem put_cell {x y : Int} (inside : target.Inside x y) (color : Pixel) :
    target.put (y * target.w + x) color =
      target.paint fun px py => if px = x ∧ py = y then some color else none := by
  rw [Raster.put_eq_paint inside]
  refine Raster.paint_congr fun px py _ => ?_
  simp only [Shade.solid]
  congr

theorem paint_none_cell (x y : Int) :
    target.paint (fun px py => if px = x ∧ py = y then none else none) = target := by
  simp only [ite_self, Raster.paint_none]

theorem paint_cell_outside {x y : Int} (outside : x < 0 ∨ x ≥ target.w) (cell : Option Pixel) :
    target.paint (fun px py => if px = x ∧ py = y then cell else none) = target := by
  refine Eq.trans (Raster.paint_congr fun px py inside => ?_) target.paint_none
  obtain ⟨left, right, top, bottom⟩ := inside
  rw [if_neg (by omega)]

theorem forRange_block (x y w h : Int) (color : Int → Int → Pixel) (target : Raster Pixel) :
    forRange 0 h (fun j target =>
      if y + j < 0 ∨ y + j ≥ target.h then target
      else forRange 0 w (fun i target =>
        if x + i ≥ 0 ∧ x + i < target.w then target.put ((y + j) * target.w + (x + i)) (color j i)
        else target) target) target = target.paint (blockShade x y w h color) := by
  refine forRange_clipped x y w h (fun j i => some (color j i)) (fun j i other top bottom => ?_)
    target
  split
  next column => exact put_cell ⟨column.1, column.2, top, bottom⟩ (color j i)
  next outside => exact (paint_cell_outside (by omega) _).symm

theorem gpuDrawChar_paint (font : Font) (target : Raster Pixel) (x y : Int) (c : BitVec 8)
    (fg bg : Pixel) :
    gpuDrawChar font target x y c fg bg = target.paint (blockShade x y fontWidth fontHeight
      fun row col => if glyphBit (font c row.toNat) col.toNat then fg else bg) :=
  forRange_block x y fontWidth fontHeight _ target

theorem gpuBlit_paint (target : Raster Pixel) (dx dy : Int) (src : Int → Pixel)
    (sw sh srcStride : Int) :
    gpuBlit target dx dy src sw sh srcStride =
      target.paint (blockShade dx dy sw sh fun j i => src (j * srcStride + i)) :=
  forRange_block dx dy sw sh _ target

theorem gpuDrawRect_paint (target : Raster Pixel) (x y w h : Int) (color : Pixel) :
    gpuDrawRect target x y w h color = target.paint (.solid (fun px py =>
      InRect (x + w - 1) y 1 h px py ∨ InRect x y 1 h px py ∨ InRect x (y + h - 1) w 1 px py ∨
        InRect x y w 1 px py) color) := by
  simp only [gpuDrawRect, gpuHline_paint, gpuVline_paint, Raster.paint_paint, Shade.solid_over]

theorem gpuDrawString_paint (font : Font) (target : Raster Pixel) (x y : Int)
    (title : List (BitVec 8)) (color : Pixel) :
    gpuDrawString font target x y title color color =
      target.paint (.solid (InRect x y (fontWidth * title.length) fontHeight) color) := by
  induction title generalizing target x with
  | nil =>
      refine target.paint_none.symm.trans (Raster.paint_congr fun px py _ => ?_)
      rw [Shade.solid, if_neg]
      rintro ⟨left, right, _, _⟩
      simp at right
      omega
  | cons c rest ih =>
      simp only [gpuDrawString, ih, gpuDrawChar_paint, ite_self, blockShade_const,
        Raster.paint_paint, Shade.solid_over]
      refine Raster.paint_congr fun px py _ => ?_
      simp only [Shade.solid, inRect_iff, List.length_cons, fontWidth, fontHeight]
      congr 1
      refine propext ⟨fun within => ?_, fun within => ?_⟩ <;> push_cast at within ⊢ <;> omega

section Leaves

variable {region : Int → Int → Prop}

theorem solid_leaves (target : Raster Pixel) {x y w h : Int} (color : Pixel)
    (apart : ∀ px py, region px py → ¬InRect x y w h px py) :
    Raster.Leaves region target (target.paint (.solid (InRect x y w h) color)) :=
  target.paint_leaves fun px py within => if_neg (apart px py within)

theorem gpuFillRect_leaves (target : Raster Pixel) {x y w h : Int} (color : Pixel)
    (apart : ∀ px py, region px py → ¬InRect x y w h px py) :
    Raster.Leaves region target (gpuFillRect target x y w h color) := by
  rw [gpuFillRect_paint]
  exact solid_leaves target color apart

theorem gpuHline_leaves (target : Raster Pixel) {x y w : Int} (color : Pixel)
    (apart : ∀ px py, region px py → ¬InRect x y w 1 px py) :
    Raster.Leaves region target (gpuHline target x y w color) := by
  rw [gpuHline_paint]
  exact solid_leaves target color apart

theorem gpuDrawString_leaves (font : Font) (target : Raster Pixel) (x : Int) {y : Int}
    (title : List (BitVec 8)) (fg bg : Pixel)
    (apart : ∀ px py, region px py → py < y ∨ y + fontHeight ≤ py) :
    Raster.Leaves region target (gpuDrawString font target x y title fg bg) := by
  induction title generalizing target x with
  | nil => exact ⟨rfl, rfl, fun _ _ _ _ => rfl⟩
  | cons c rest ih =>
      have char : Raster.Leaves region target (gpuDrawChar font target x y c fg bg) := by
        rw [gpuDrawChar_paint]
        refine target.paint_leaves fun px py within => if_neg ?_
        rintro ⟨_, _, top, bottom⟩
        have outside := apart px py within
        omega
      exact char.trans (ih _ _)

end Leaves

end DragoonKernel
