import DragoonKernel.GpuSpec

/-!
Each drawing primitive clips in its own way, and each leaves what `gpu_pixel` leaves when it
is called for every pixel of the shape.
-/

namespace DragoonKernel

inductive GpuCall where
  | fillRect (x y w h : Int) (color : BitVec 32)
  | hline (x y w : Int) (color : BitVec 32)
  | vline (x y h : Int) (color : BitVec 32)
  | drawRect (x y w h : Int) (color : BitVec 32)
  | drawChar (x y : Int) (c : BitVec 8) (fg bg : BitVec 32)
  | blit (dx dy : Int) (src : Int → BitVec 32) (sw sh srcStride : Int)
  | drawCursor (x y : Int)

/-- What `gpu_draw_cursor` puts for each value of the bitmap. -/
def cursorColor (j i : Int) : Option (BitVec 32) :=
  let v := (cursorData.getD j.toNat []).getD i.toNat 0
  if v = 1 then some colorWhite else if v = 2 then some colorBlack else none

def glyphColor (font : Font) (c : BitVec 8) (fg bg : BitVec 32) (row col : Int) : BitVec 32 :=
  if glyphBit (font c row.toNat) col.toNat then fg else bg

section Calls

variable {Pixel : Type} (font : Font) (tint : BitVec 32 → Pixel)

def GpuCall.run (target : Raster Pixel) : GpuCall → Raster Pixel
  | .fillRect x y w h color => gpuFillRect target x y w h (tint color)
  | .hline x y w color => gpuHline target x y w (tint color)
  | .vline x y h color => gpuVline target x y h (tint color)
  | .drawRect x y w h color => gpuDrawRect target x y w h (tint color)
  | .drawChar x y c fg bg => gpuDrawChar font target x y c (tint fg) (tint bg)
  | .blit dx dy src sw sh srcStride =>
      gpuBlit target dx dy (fun index => tint (src index)) sw sh srcStride
  | .drawCursor x y => gpuDrawCursor tint target x y

/-- One `gpu_pixel` for each pixel of a block that is not transparent, row after row. -/
def pixelBlock (target : Raster Pixel) (x y w h : Int) (color : Int → Int → Option (BitVec 32)) :
    Raster Pixel :=
  forRange 0 h (fun j target => forRange 0 w (fun i target =>
    match color j i with
    | some color => gpuPixel target (x + i) (y + j) (tint color)
    | none => target) target) target

/-- The unclipped shape of each primitive, one `gpu_pixel` after the other. -/
def GpuCall.perPixel (target : Raster Pixel) : GpuCall → Raster Pixel
  | .fillRect x y w h color => pixelBlock tint target x y w h fun _ _ => some color
  | .hline x y w color => pixelBlock tint target x y w 1 fun _ _ => some color
  | .vline x y h color => pixelBlock tint target x y 1 h fun _ _ => some color
  | .drawRect x y w h color =>
      let target := pixelBlock tint target x y w 1 fun _ _ => some color
      let target := pixelBlock tint target x (y + h - 1) w 1 fun _ _ => some color
      let target := pixelBlock tint target x y 1 h fun _ _ => some color
      pixelBlock tint target (x + w - 1) y 1 h fun _ _ => some color
  | .drawChar x y c fg bg => pixelBlock tint target x y fontWidth fontHeight fun row col =>
      some (glyphColor font c fg bg row col)
  | .blit dx dy src sw sh srcStride => pixelBlock tint target dx dy sw sh fun j i =>
      some (src (j * srcStride + i))
  | .drawCursor x y => pixelBlock tint target x y 12 16 cursorColor

/-- A primitive never looks at what the target holds, so the indices that it writes are
those that hold a colour after it has drawn on a target with no colour anywhere. -/
def GpuCall.Writes (target : Raster Pixel) (call : GpuCall) (index : Int) : Prop :=
  (call.run font some (target.map fun _ => none)).buf index ≠ none

end Calls

section Shades

variable {Pixel : Type} {target : Raster Pixel}

noncomputable def GpuCall.shade (font : Font) : GpuCall → Shade (BitVec 32)
  | .fillRect x y w h color => .solid (InRect x y w h) color
  | .hline x y w color => .solid (InRect x y w 1) color
  | .vline x y h color => .solid (InRect x y 1 h) color
  | .drawRect x y w h color => .solid (fun px py =>
      InRect (x + w - 1) y 1 h px py ∨ InRect x y 1 h px py ∨ InRect x (y + h - 1) w 1 px py ∨
        InRect x y w 1 px py) color
  | .drawChar x y c fg bg => blockShade x y fontWidth fontHeight (glyphColor font c fg bg)
  | .blit dx dy src sw sh srcStride =>
      blockShade dx dy sw sh fun j i => src (j * srcStride + i)
  | .drawCursor x y => cellShade x y 12 16 cursorColor

theorem cellShade_map (tint : BitVec 32 → Pixel) (x y w h : Int)
    (cell : Int → Int → Option (BitVec 32)) :
    Shade.map tint (cellShade x y w h cell) =
      cellShade x y w h fun j i => (cell j i).map tint := by
  funext px py
  simp only [Shade.map, cellShade]
  split <;> rfl

theorem blockShade_map (tint : BitVec 32 → Pixel) (x y w h : Int)
    (color : Int → Int → BitVec 32) :
    Shade.map tint (blockShade x y w h color) =
      blockShade x y w h fun j i => tint (color j i) :=
  cellShade_map tint x y w h fun j i => some (color j i)

theorem gpuDrawCursor_paint (tint : BitVec 32 → Pixel) (target : Raster Pixel) (x y : Int) :
    gpuDrawCursor tint target x y =
      target.paint (cellShade x y 12 16 fun j i => (cursorColor j i).map tint) := by
  refine forRange_clipped x y 12 16 _ (fun j i other top bottom => ?_) target
  dsimp only
  split
  next outside => exact (paint_cell_outside outside _).symm
  next column =>
    have inside : other.Inside (x + i) (y + j) := ⟨by omega, by omega, top, bottom⟩
    simp only [cursorColor]
    split
    next => exact put_cell inside (tint colorWhite)
    next =>
      split
      next => exact put_cell inside (tint colorBlack)
      next => exact (paint_none_cell (x + i) (y + j)).symm

theorem run_paint (font : Font) (tint : BitVec 32 → Pixel) (target : Raster Pixel)
    (call : GpuCall) : call.run font tint target = target.paint ((call.shade font).map tint) := by
  cases call with
  | fillRect x y w h color => rw [GpuCall.run, gpuFillRect_paint, GpuCall.shade, Shade.map_solid]
  | hline x y w color => rw [GpuCall.run, gpuHline_paint, GpuCall.shade, Shade.map_solid]
  | vline x y h color => rw [GpuCall.run, gpuVline_paint, GpuCall.shade, Shade.map_solid]
  | drawRect x y w h color => rw [GpuCall.run, gpuDrawRect_paint, GpuCall.shade, Shade.map_solid]
  | drawChar x y c fg bg =>
      rw [GpuCall.run, gpuDrawChar_paint, GpuCall.shade, blockShade_map]
      simp only [glyphColor, apply_ite tint]
  | blit dx dy src sw sh srcStride =>
      rw [GpuCall.run, gpuBlit_paint, GpuCall.shade, blockShade_map]
  | drawCursor x y => rw [GpuCall.run, gpuDrawCursor_paint, GpuCall.shade, cellShade_map]

theorem pixelBlock_paint (tint : BitVec 32 → Pixel) (target : Raster Pixel) (x y w h : Int)
    (color : Int → Int → Option (BitVec 32)) :
    pixelBlock tint target x y w h color =
      target.paint (Shade.map tint (cellShade x y w h color)) := by
  rw [cellShade_map]
  refine forRange_rows x y w h _ fun j other _ _ => ?_
  refine forRange_columns x y w j (fun j i => (color j i).map tint) fun i another _ _ => ?_
  cases drawn : color j i with
  | some chosen =>
      refine (gpuPixel_paint another (x + i) (y + j) (tint chosen)).trans ?_
      refine Raster.paint_congr fun px py _ => ?_
      simp only [Shade.solid, Option.map_some]
      congr
  | none => exact (paint_none_cell (x + i) (y + j)).symm

theorem perPixel_paint (font : Font) (tint : BitVec 32 → Pixel) (target : Raster Pixel)
    (call : GpuCall) :
    call.perPixel font tint target = target.paint ((call.shade font).map tint) := by
  cases call with
  | drawRect x y w h color =>
      have solid (target : Raster Pixel) (x y w h : Int) :
          pixelBlock tint target x y w h (fun _ _ => some color) =
            target.paint (.solid (InRect x y w h) (tint color)) := by
        rw [← Shade.map_solid]
        exact pixelBlock_paint tint target x y w h _
      simp only [GpuCall.perPixel, GpuCall.shade, solid, Raster.paint_paint, Shade.solid_over,
        Shade.map_solid]
  | fillRect x y w h color => exact pixelBlock_paint tint target x y w h fun _ _ => some color
  | hline x y w color => exact pixelBlock_paint tint target x y w 1 fun _ _ => some color
  | vline x y h color => exact pixelBlock_paint tint target x y 1 h fun _ _ => some color
  | drawChar x y c fg bg =>
      exact pixelBlock_paint tint target x y fontWidth fontHeight fun row col =>
        some (glyphColor font c fg bg row col)
  | blit dx dy src sw sh srcStride =>
      exact pixelBlock_paint tint target dx dy sw sh fun j i => some (src (j * srcStride + i))
  | drawCursor x y => exact pixelBlock_paint tint target x y 12 16 cursorColor

theorem writes_iff (font : Font) (target : Raster Pixel) (call : GpuCall) (index : Int) :
    call.Writes font target index ↔ (0 ≤ index ∧ index < target.w * target.h) ∧
      call.shade font (index % target.w) (index / target.w) ≠ none := by
  rw [GpuCall.Writes, run_paint]
  simp only [Raster.paint, Raster.map, Shade.map]
  by_cases range : 0 ≤ index ∧ index < target.w * target.h
  · cases call.shade font (index % target.w) (index / target.w) <;> simp [range]
  · simp [range]

/-- Every primitive clips as `gpu_pixel` does, and writes in the buffer of its target only. -/
theorem gpu_clips_per_pixel (font : Font) (tint : BitVec 32 → Pixel) (target : Raster Pixel)
    (call : GpuCall) :
    call.run font tint target = call.perPixel font tint target ∧
      (∀ index, call.Writes font target index → 0 ≤ index ∧ index < target.w * target.h) ∧
      ∀ index, ¬call.Writes font target index →
        (call.run font tint target).buf index = target.buf index := by
  refine ⟨?_, fun index writes => ?_, fun index spared => ?_⟩
  · rw [run_paint, perPixel_paint]
  · exact ((writes_iff font target call index).mp writes).1
  · rw [run_paint]
    simp only [Raster.paint, Shade.map]
    split
    next range =>
      have blank : call.shade font (index % target.w) (index / target.w) = none :=
        of_not_not fun drawn => spared ((writes_iff font target call index).mpr ⟨range, drawn⟩)
      rw [blank]
      rfl
    next => rfl

end Shades

end DragoonKernel
