import Mathlib.Logic.Function.Basic
import Mathlib.Tactic.Ring
import Mathlib.Tactic.Linarith

/-!
Drawing into a buffer of pixels that lie row after row. A shade says what a drawing leaves at
each point of the plane, and painting it is the drawing clipped to the buffer.
-/

universe u v

structure Raster (Pixel : Type u) where
  buf : Int → Pixel
  w : Int
  h : Int
  wide : 0 < w
  tall : 0 < h

/-- The loop `for (i = start; i < stop; i++)`. -/
def forRange {State : Type v} (start stop : Int) (body : Int → State → State) (state : State) :
    State :=
  (List.range (stop - start).toNat).foldl (fun state (i : Nat) => body (start + i) state)
    state

/-- A pixel at each point that is drawn. -/
abbrev Shade (Pixel : Type u) := Int → Int → Option Pixel

variable {Pixel : Type u}

def Shade.over (upper lower : Shade Pixel) : Shade Pixel := fun x y => (upper x y).or (lower x y)

open Classical in
/-- One pixel all over a region. -/
noncomputable def Shade.solid (region : Int → Int → Prop) (pixel : Pixel) : Shade Pixel :=
  fun x y => if region x y then some pixel else none

def Shade.map {Seen : Type u} (view : Pixel → Seen) (shade : Shade Pixel) : Shade Seen :=
  fun x y => (shade x y).map view

theorem Shade.map_solid {Seen : Type u} (view : Pixel → Seen) (region : Int → Int → Prop)
    (pixel : Pixel) : (Shade.solid region pixel).map view = Shade.solid region (view pixel) := by
  funext x y
  simp only [Shade.map, Shade.solid]
  split <;> rfl

theorem Shade.solid_over (upper lower : Int → Int → Prop) (pixel : Pixel) :
    (Shade.solid upper pixel).over (Shade.solid lower pixel) =
      Shade.solid (fun x y => upper x y ∨ lower x y) pixel := by
  funext x y
  simp only [Shade.over, Shade.solid]
  by_cases above : upper x y
  · have drawn : upper x y ∨ lower x y := .inl above
    rw [if_pos above, if_pos drawn]
    rfl
  · rw [if_neg above, Option.none_or]
    congr 1
    exact propext ⟨.inr, fun drawn => drawn.resolve_left above⟩

namespace Raster

def pixel (raster : Raster Pixel) (x y : Int) : Pixel := raster.buf (y * raster.w + x)

structure Inside (raster : Raster Pixel) (x y : Int) : Prop where
  left : 0 ≤ x
  right : x < raster.w
  top : 0 ≤ y
  bottom : y < raster.h

/-- `after` has the size of `before`, and its pixels in the region. -/
structure Leaves (region : Int → Int → Prop) (before after : Raster Pixel) : Prop where
  w : after.w = before.w
  h : after.h = before.h
  pixels : ∀ x y, before.Inside x y → region x y → after.pixel x y = before.pixel x y

def put (raster : Raster Pixel) (index : Int) (pixel : Pixel) : Raster Pixel :=
  { raster with buf := Function.update raster.buf index pixel }

def map {Seen : Type u} (view : Pixel → Seen) (raster : Raster Pixel) : Raster Seen where
  buf := fun index => view (raster.buf index)
  w := raster.w
  h := raster.h
  wide := raster.wide
  tall := raster.tall

def paint (raster : Raster Pixel) (shade : Shade Pixel) : Raster Pixel :=
  { raster with buf := fun index =>
      if 0 ≤ index ∧ index < raster.w * raster.h then
        (shade (index % raster.w) (index / raster.w)).getD (raster.buf index)
      else raster.buf index }

@[simp] theorem paint_w (raster : Raster Pixel) (shade : Shade Pixel) :
    (raster.paint shade).w = raster.w := rfl

@[simp] theorem paint_h (raster : Raster Pixel) (shade : Shade Pixel) :
    (raster.paint shade).h = raster.h := rfl

variable (raster : Raster Pixel)

theorem ext_buf {first second : Raster Pixel} (w : first.w = second.w) (h : first.h = second.h)
    (buf : ∀ index, first.buf index = second.buf index) : first = second := by
  obtain ⟨firstBuf, _, _, _, _⟩ := first
  obtain ⟨secondBuf, _, _, _, _⟩ := second
  obtain rfl : firstBuf = secondBuf := funext buf
  obtain rfl := w
  obtain rfl := h
  rfl

theorem inside_of_index {index : Int} (lower : 0 ≤ index) (upper : index < raster.w * raster.h) :
    raster.Inside (index % raster.w) (index / raster.w) where
  left := Int.emod_nonneg _ raster.wide.ne'
  right := Int.emod_lt_of_pos _ raster.wide
  top := Int.ediv_nonneg lower raster.wide.le
  bottom := Int.ediv_lt_of_lt_mul raster.wide (by rwa [Int.mul_comm])

variable {raster}

theorem Inside.index {x y : Int} (inside : raster.Inside x y) :
    0 ≤ y * raster.w + x ∧ y * raster.w + x < raster.w * raster.h := by
  obtain ⟨left, right, top, bottom⟩ := inside
  constructor
  · nlinarith [mul_nonneg top raster.wide.le]
  · nlinarith [raster.wide]

theorem Inside.emod {x y : Int} (inside : raster.Inside x y) :
    (y * raster.w + x) % raster.w = x := by
  rw [Int.add_comm, Int.add_mul_emod_self_right, Int.emod_eq_of_lt inside.left inside.right]

theorem Inside.ediv {x y : Int} (inside : raster.Inside x y) :
    (y * raster.w + x) / raster.w = y := by
  rw [Int.add_comm, Int.add_mul_ediv_right _ _ raster.wide.ne',
    Int.ediv_eq_zero_of_lt inside.left inside.right, Int.zero_add]

theorem paint_pixel (shade : Shade Pixel) {x y : Int} (inside : raster.Inside x y) :
    (raster.paint shade).pixel x y = (shade x y).getD (raster.pixel x y) := by
  simp only [pixel, paint, if_pos inside.index, inside.emod, inside.ediv]

theorem paint_congr {first second : Shade Pixel}
    (same : ∀ x y, raster.Inside x y → first x y = second x y) :
    raster.paint first = raster.paint second := by
  refine ext_buf rfl rfl fun index => ?_
  simp only [paint]
  split
  next range => rw [same _ _ (raster.inside_of_index range.1 range.2)]
  next => rfl

theorem paint_none : raster.paint (fun _ _ => none) = raster := by
  refine ext_buf rfl rfl fun index => ?_
  simp [paint]

theorem paint_outside {region : Int → Int → Prop}
    (outside : ∀ x y, raster.Inside x y → ¬region x y) (pixel : Pixel) :
    raster.paint (.solid region pixel) = raster := by
  refine (paint_congr fun x y inside => ?_).trans raster.paint_none
  exact if_neg (outside x y inside)

theorem Leaves.trans {region : Int → Int → Prop} {first second third : Raster Pixel}
    (before : Leaves region first second) (after : Leaves region second third) :
    Leaves region first third := by
  refine ⟨after.w.trans before.w, after.h.trans before.h, fun x y inside within => ?_⟩
  have still : second.Inside x y :=
    ⟨inside.left, before.w ▸ inside.right, inside.top, before.h ▸ inside.bottom⟩
  exact (after.pixels x y still within).trans (before.pixels x y inside within)

theorem paint_leaves {region : Int → Int → Prop} (raster : Raster Pixel) {shade : Shade Pixel}
    (blank : ∀ x y, region x y → shade x y = none) : Leaves region raster (raster.paint shade) := by
  refine ⟨rfl, rfl, fun x y inside within => ?_⟩
  rw [paint_pixel shade inside, blank x y within]
  rfl

theorem paint_paint (lower upper : Shade Pixel) :
    (raster.paint lower).paint upper = raster.paint (upper.over lower) := by
  refine ext_buf rfl rfl fun index => ?_
  simp only [paint, Shade.over]
  split
  next => cases upper (index % raster.w) (index / raster.w) <;> rfl
  next => rfl

open Classical in
theorem put_eq_paint {x y : Int} (inside : raster.Inside x y) (pixel : Pixel) :
    raster.put (y * raster.w + x) pixel =
      raster.paint (.solid (fun px py => px = x ∧ py = y) pixel) := by
  refine ext_buf rfl rfl fun index => ?_
  simp only [put, paint, Shade.solid]
  by_cases here : index = y * raster.w + x
  · subst here
    rw [Function.update_self, if_pos inside.index, inside.emod, inside.ediv, if_pos ⟨rfl, rfl⟩]
    rfl
  · have apart : ¬(index % raster.w = x ∧ index / raster.w = y) := by
      rintro ⟨rfl, rfl⟩
      exact here (Int.ediv_mul_add_emod index raster.w).symm
    rw [Function.update_of_ne here, if_neg apart]
    split <;> rfl

end Raster

theorem forRange_empty {State : Type v} {start stop : Int} (none : stop ≤ start)
    (body : Int → State → State) (state : State) : forRange start stop body state = state := by
  rw [forRange, Int.toNat_eq_zero.mpr (by omega)]
  rfl

theorem forRange_succ {State : Type v} {start stop : Int} (some : start ≤ stop)
    (body : Int → State → State) (state : State) :
    forRange start (stop + 1) body state = body stop (forRange start stop body state) := by
  have count : (stop + 1 - start).toNat = (stop - start).toNat + 1 := by omega
  have last : start + ((stop - start).toNat : Int) = stop := by omega
  rw [forRange, count, List.range_succ, List.foldl_append, List.foldl_cons, List.foldl_nil, last]
  rfl

namespace Raster

variable {raster : Raster Pixel}

/-- A loop each turn of which paints the points with one value of `key`. -/
theorem forRange_paint (key : Int → Int → Int) (shade : Shade Pixel) {start stop : Int}
    {body : Int → Raster Pixel → Raster Pixel}
    (each : ∀ i, start ≤ i → i < stop → ∀ target : Raster Pixel, target.w = raster.w →
      target.h = raster.h →
      body i target = target.paint fun x y => if key x y = i then shade x y else none) :
    forRange start stop body raster = raster.paint fun x y =>
      if start ≤ key x y ∧ key x y < stop then shade x y else none := by
  rcases Int.le_total stop start with empty | some
  · rw [forRange_empty empty]
    refine raster.paint_none.symm.trans (paint_congr fun x y _ => ?_)
    rw [if_neg (by omega)]
  · induction stop, some using Int.leInduction with
    | base =>
        rw [forRange_empty le_rfl]
        refine raster.paint_none.symm.trans (paint_congr fun x y _ => ?_)
        rw [if_neg (by omega)]
    | succ stop some ih =>
        rw [forRange_succ some, ih fun i lower upper => each i lower (by omega),
          each stop some (by omega) (raster.paint _) rfl rfl, paint_paint]
        refine paint_congr fun x y _ => ?_
        simp only [Shade.over]
        by_cases here : key x y = stop
        · rw [if_pos here, if_neg (by omega), if_pos (by omega), Option.or_none]
        · rw [if_neg here, Option.none_or]
          congr 1
          exact propext ⟨fun within => by omega, fun within => by omega⟩

theorem map_put {Seen : Type u} (view : Pixel → Seen) (raster : Raster Pixel) (index : Int)
    (pixel : Pixel) : (raster.put index pixel).map view = (raster.map view).put index (view pixel) := by
  refine ext_buf rfl rfl fun other => ?_
  simp only [map, put, Function.update_apply]
  split <;> rfl

/-- A loop each turn of which does the same to what is seen as `seenBody` does. -/
theorem forRange_map {Seen : Type u} {view : Pixel → Seen} {body : Int → Raster Pixel → Raster Pixel}
    {seenBody : Int → Raster Seen → Raster Seen}
    (same : ∀ i raster, (body i raster).map view = seenBody i (raster.map view))
    (start stop : Int) (raster : Raster Pixel) :
    (forRange start stop body raster).map view = forRange start stop seenBody (raster.map view) := by
  simp only [forRange]
  exact (List.foldl_hom (map view) fun state (i : Nat) => (same (start + i) state).symm).symm

end Raster
