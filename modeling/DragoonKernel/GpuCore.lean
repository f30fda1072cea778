import DragoonKernel.Library.Raster

/-!
Executable model of the drawing primitives of `kernel/gpu.c`. They copy pixels and never
look into them, so the target may hold anything. `font` is the table of `kernel/font.c`, and a
primitive with colours of its own tints them.
-/

namespace DragoonKernel

universe u

variable {Pixel : Type u}

def fontWidth : Int := 8
def fontHeight : Int := 16
def fbWidth : Int := 640
def fbHeight : Int := 480

def colorBlack : BitVec 32 := 0x00000000
def colorWhite : BitVec 32 := 0x00FFFFFF
def colorGray : BitVec 32 := 0x00808080
def colorLtgray : BitVec 32 := 0x00C0C0C0

/-- The glyph rows of each character. -/
abbrev Font := BitVec 8 → Nat → BitVec 8

/-- The target that `gpu_reset_target` selects. -/
def fbTarget (buf : Int → Pixel) : Raster Pixel where
  buf := buf
  w := fbWidth
  h := fbHeight
  wide := by decide
  tall := by decide

def gpuClear (target : Raster Pixel) (color : Pixel) : Raster Pixel :=
  forRange 0 (target.w * target.h) (fun i target => target.put i color) target

def gpuPixel (target : Raster Pixel) (x y : Int) (color : Pixel) : Raster Pixel :=
  if x ≥ 0 ∧ x < target.w ∧ y ≥ 0 ∧ y < target.h then target.put (y * target.w + x) color
  else target

def gpuFillRect (target : Raster Pixel) (x y w h : Int) (color : Pixel) : Raster Pixel :=
  let x0 := if x < 0 then 0 else x
  let y0 := if y < 0 then 0 else y
  let x1 := if x + w > target.w then target.w else x + w
  let y1 := if y + h > target.h then target.h else y + h
  forRange y0 y1 (fun j => forRange x0 x1 fun i target => target.put (j * target.w + i) color) target

def gpuHline (target : Raster Pixel) (x y w : Int) (color : Pixel) : Raster Pixel :=
  if y < 0 ∨ y ≥ target.h then target
  else
    let x0 := if x < 0 then 0 else x
    let x1 := if x + w > target.w then target.w else x + w
    forRange x0 x1 (fun i target => target.put (y * target.w + i) color) target

def gpuVline (target : Raster Pixel) (x y h : Int) (color : Pixel) : Raster Pixel :=
  if x < 0 ∨ x ≥ target.w then target
  else
    let y0 := if y < 0 then 0 else y
    let y1 := if y + h > target.h then target.h else y + h
    forRange y0 y1 (fun j target => target.put (j * target.w + x) color) target

def gpuDrawRect (target : Raster Pixel) (x y w h : Int) (color : Pixel) : Raster Pixel :=
  let target := gpuHline target x y w color
  let target := gpuHline target x (y + h - 1) w color
  let target := gpuVline target x y h color
  gpuVline target (x + w - 1) y h color

/-- `bits & (0x80 >> col)`. -/
def glyphBit (bits : BitVec 8) (col : Nat) : Bool := bits &&& 0x80 >>> col ≠ 0

def gpuDrawChar (font : Font) (target : Raster Pixel) (x y : Int) (c : BitVec 8) (fg bg : Pixel) :
    Raster Pixel :=
  forRange 0 fontHeight (fun row target =>
    let py := y + row
    if py < 0 ∨ py ≥ target.h then target
    else
      let bits := font c row.toNat
      forRange 0 fontWidth (fun col target =>
        let px := x + col
        if px ≥ 0 ∧ px < target.w then
          target.put (py * target.w + px) (if glyphBit bits col.toNat then fg else bg)
        else target) target) target

def gpuDrawString (font : Font) (target : Raster Pixel) (x y : Int) :
    List (BitVec 8) → Pixel → Pixel → Raster Pixel
  | [], _, _ => target
  | c :: rest, fg, bg =>
      gpuDrawString font (gpuDrawChar font target x y c fg bg) (x + fontWidth) y rest fg bg

def gpuBlit (target : Raster Pixel) (dx dy : Int) (src : Int → Pixel) (sw sh srcStride : Int) :
    Raster Pixel :=
  forRange 0 sh (fun j target =>
    let py := dy + j
    if py < 0 ∨ py ≥ target.h then target
    else forRange 0 sw (fun i target =>
      let px := dx + i
      if px ≥ 0 ∧ px < target.w then target.put (py * target.w + px) (src (j * srcStride + i))
      else target) target) target

/-- 1 for white, 2 for the black outline, 0 for transparent. -/
def cursorData : List (List (BitVec 8)) :=
  [[2, 0, 0, 0, 0, 0, 0, 0, 0, 0, 0, 0],
   [2, 2, 0, 0, 0, 0, 0, 0, 0, 0, 0, 0],
   [2, 1, 2, 0, 0, 0, 0, 0, 0, 0, 0, 0],
   [2, 1, 1, 2, 0, 0, 0, 0, 0, 0, 0, 0],
   [2, 1, 1, 1, 2, 0, 0, 0, 0, 0, 0, 0],
   [2, 1, 1, 1, 1, 2, 0, 0, 0, 0, 0, 0],
   [2, 1, 1, 1, 1, 1, 2, 0, 0, 0, 0, 0],
   [2, 1, 1, 1, 1, 1, 1, 2, 0, 0, 0, 0],
   [2, 1, 1, 1, 1, 1, 1, 1, 2, 0, 0, 0],
   [2, 1, 1, 1, 1, 1, 1, 1, 1, 2, 0, 0],
   [2, 1, 1, 1, 1, 1, 2, 2, 2, 2, 0, 0],
   [2, 1, 1, 2, 1, 1, 2, 0, 0, 0, 0, 0],
   [2, 1, 2, 0, 2, 1, 1, 2, 0, 0, 0, 0],
   [2, 2, 0, 0, 2, 1, 1, 2, 0, 0, 0, 0],
   [0, 0, 0, 0, 0, 2, 1, 1, 2, 0, 0, 0],
   [0, 0, 0, 0, 0, 2, 2, 2, 0, 0, 0, 0]]

def gpuDrawCursor (tint : BitVec 32 → Pixel) (target : Raster Pixel) (x y : Int) : Raster Pixel :=
  forRange 0 16 (fun j target =>
    let py := y + j
    if py < 0 ∨ py ≥ target.h then target
    else forRange 0 12 (fun i target =>
      let px := x + i
      if px < 0 ∨ px ≥ target.w then target
      else
        let v := (cursorData.getD j.toNat []).getD i.toNat 0
        if v = 1 then target.put (py * target.w + px) (tint colorWhite)
        else if v = 2 then target.put (py * target.w + px) (tint colorBlack)
        else target) target) target

end DragoonKernel
