import DragoonKernel.WmDrawCore

/-!
The frame and its painters are one drawing. No drawing looks at a pixel, so what is seen of
the result is the drawing of what is seen.
-/

namespace DragoonKernel

universe u

section Gpu

variable {Pixel Seen : Type u} (view : Pixel → Seen) (font : Font) (target : Raster Pixel)

theorem gpuClear_map (color : Pixel) :
    (gpuClear target color).map view = gpuClear (target.map view) (view color) :=
  Raster.forRange_map (fun _ raster => raster.map_put view _ _) _ _ _

theorem gpuFillRect_map (x y w h : Int) (color : Pixel) :
    (gpuFillRect target x y w h color).map view =
      gpuFillRect (target.map view) x y w h (view color) := by
  unfold gpuFillRect
  refine Raster.forRange_map (fun row raster => ?_) _ _ _
  exact Raster.forRange_map (fun _ raster => raster.map_put view _ _) _ _ _

theorem gpuHline_map (x y w : Int) (color : Pixel) :
    (gpuHline target x y w color).map view = gpuHline (target.map view) x y w (view color) := by
  unfold gpuHline
  split
  next outside => exact (if_pos outside).symm
  next row =>
    refine Eq.trans ?_ (if_neg row).symm
    exact Raster.forRange_map (fun _ raster => raster.map_put view _ _) _ _ _

theorem gpuVline_map (x y h : Int) (color : Pixel) :
    (gpuVline target x y h color).map view = gpuVline (target.map view) x y h (view color) := by
  unfold gpuVline
  split
  next outside => exact (if_pos outside).symm
  next column =>
    refine Eq.trans ?_ (if_neg column).symm
    exact Raster.forRange_map (fun _ raster => raster.map_put view _ _) _ _ _

theorem gpuDrawRect_map (x y w h : Int) (color : Pixel) :
    (gpuDrawRect target x y w h color).map view =
      gpuDrawRect (target.map view) x y w h (view color) := by
  simp only [gpuDrawRect, gpuHline_map, gpuVline_map]

/-- A block of pixels that skips the rows and the columns outside the target. -/
theorem block_map (x y w h : Int) (color : Int → Int → Pixel) :
    (forRange 0 h (fun row target =>
      if y + row < 0 ∨ y + row ≥ target.h then target
      else forRange 0 w (fun col target =>
        if x + col ≥ 0 ∧ x + col < target.w then
          target.put ((y + row) * target.w + (x + col)) (color row col)
        else target) target) target).map view =
    forRange 0 h (fun row target =>
      if y + row < 0 ∨ y + row ≥ target.h then target
      else forRange 0 w (fun col target =>
        if x + col ≥ 0 ∧ x + col < target.w then
          target.put ((y + row) * target.w + (x + col)) (view (color row col))
        else target) target) (target.map view) := by
  refine Raster.forRange_map (fun row raster => ?_) _ _ _
  split
  next outside => exact (if_pos outside).symm
  next inside =>
    refine Eq.trans ?_ (if_neg inside).symm
    refine Raster.forRange_map (fun col raster => ?_) _ _ _
    split
    next drawn => exact (raster.map_put view _ _).trans (if_pos drawn).symm
    next skipped => exact (if_neg skipped).symm

theorem gpuDrawChar_map (x y : Int) (c : BitVec 8) (fg bg : Pixel) :
    (gpuDrawChar font target x y c fg bg).map view =
      gpuDrawChar font (target.map view) x y c (view fg) (view bg) := by
  refine (block_map view target x y fontWidth fontHeight
    fun row col => if glyphBit (font c row.toNat) col.toNat then fg else bg).trans ?_
  simp only [gpuDrawChar, apply_ite view]

theorem gpuDrawString_map (x y : Int) (text : List (BitVec 8)) (fg bg : Pixel) :
    (gpuDrawString font target x y text fg bg).map view =
      gpuDrawString font (target.map view) x y text (view fg) (view bg) := by
  induction text generalizing target x with
  | nil => rfl
  | cons c rest ih => rw [gpuDrawString, ih, gpuDrawChar_map, gpuDrawString]

theorem gpuBlit_map (dx dy : Int) (src : Int → Pixel) (sw sh srcStride : Int) :
    (gpuBlit target dx dy src sw sh srcStride).map view =
      gpuBlit (target.map view) dx dy (fun index => view (src index)) sw sh srcStride :=
  block_map view target dx dy sw sh fun row col => src (row * srcStride + col)

end Gpu

section Composite

variable {Pixel Seen : Type} (view : Pixel → Seen) (font : Font)
  (ink : Painter → BitVec 32 → Pixel) (pixels : Nat → Int → BitVec 32)

theorem drawWindow_map (target : Raster Pixel) (id : Nat) (win : WmWindow) :
    (drawWindow font ink pixels target id win).map view =
      drawWindow font (fun painter color => view (ink painter color)) pixels (target.map view)
        id win := by
  unfold drawWindow
  cases win.content with
  | none =>
      simp only [gpuDrawChar_map, gpuFillRect_map, gpuDrawString_map, gpuDrawRect_map]
  | some content =>
      simp only [gpuBlit_map, gpuDrawChar_map, gpuFillRect_map, gpuDrawString_map, gpuDrawRect_map]

theorem drawTaskbarButtons_map (wm : Wm) (ty : Int) (ids : List Nat) (bx : Int)
    (target : Raster Pixel) :
    (drawTaskbarButtons font ink wm ty ids bx target).map view =
      drawTaskbarButtons font (fun painter color => view (ink painter color)) wm ty ids bx
        (target.map view) := by
  induction ids generalizing bx target with
  | nil => rfl
  | cons id rest ih =>
      simp only [drawTaskbarButtons]
      split
      · rw [ih, gpuDrawString_map, gpuFillRect_map]
      · exact ih bx target

theorem drawTaskbar_map (wm : Wm) (target : Raster Pixel) :
    (drawTaskbar font ink wm target).map view =
      drawTaskbar font (fun painter color => view (ink painter color)) wm (target.map view) := by
  simp only [drawTaskbar, gpuDrawString_map, drawTaskbarButtons_map, gpuFillRect_map, gpuHline_map]

/-- What is seen of the composite is composed of what is seen of the colours. -/
theorem wmComposite_map (wm : Wm) (target : Raster Pixel) :
    (wmComposite font ink pixels wm target).map view =
      wmComposite font (fun painter color => view (ink painter color)) pixels wm
        (target.map view) := by
  have windows := fun start => @List.foldl_hom _ _ _ (Raster.map view)
    (fun target id => if (wm.windows id).visible then
      drawWindow font ink pixels target id (wm.windows id) else target)
    (fun target id => if (wm.windows id).visible then
      drawWindow font (fun painter color => view (ink painter color)) pixels target id
        (wm.windows id) else target) wm.stack start fun target id => by
    split
    · exact (drawWindow_map view font ink pixels target id (wm.windows id)).symm
    · rfl
  simp only [wmComposite, drawTaskbar_map, ← windows, gpuDrawString_map, gpuClear_map]

/-- The frame and the last painters come out of one drawing, which keeps both at each pixel. -/
theorem wmComposite_painted (wm : Wm) (target : Raster (Painter × BitVec 32)) :
    (wmComposite font Prod.mk pixels wm target).map Prod.snd =
        wmComposite font (fun _ color => color) pixels wm (target.map Prod.snd) ∧
      (wmComposite font Prod.mk pixels wm target).map Prod.fst =
        wmComposite font (fun painter _ => painter) pixels wm (target.map Prod.fst) :=
  ⟨wmComposite_map Prod.snd font Prod.mk pixels wm target,
    wmComposite_map Prod.fst font Prod.mk pixels wm target⟩

end Composite

end DragoonKernel
