import DragoonKernel.GpuCore
import DragoonKernel.PrintfCore

/-!
Executable model of `gpu_draw_int` of `kernel/gpu.c`. Its digit loop over a `char [16]` is also
in the terminal of `kernel/gui.c`.
-/

namespace DragoonKernel

universe u

variable {Pixel : Type u}

/-- `buf[i++] = c` where `buf` has `size` places and the first `i` are filled. -/
def pushByte (size : Nat) (c : BitVec 8) (buf : List (BitVec 8)) : Option (List (BitVec 8)) :=
  if buf.length < size then some (buf ++ [c]) else none

/-- `sizeof(buf)`. -/
def decimalBufSize : Nat := 16

/-- `while (val > 0)`. A `u64` takes at most 20 turns. -/
def pushDigits : Nat → Nat → List (BitVec 8) → Option (List (BitVec 8))
  | 0, _, buf => some buf
  | turns + 1, val, buf =>
      if val > 0 then
        (pushByte decimalBufSize (byte '0' + BitVec.ofNat 8 (val % 10)) buf).bind
          (pushDigits turns (val / 10))
      else some buf

def decimalTurns : Nat := 20

/-- The digits of `val` from the last to the first. A negative `val` has none. -/
def decimalBuf (val : Int) : Option (List (BitVec 8)) :=
  if val = 0 then pushByte decimalBufSize (byte '0') []
  else pushDigits decimalTurns val.toNat []

/-- What `gpu_draw_int` has in its buffer before it draws the places from the last to the
first. -/
def intBuf (val : BitVec 32) : Option (List (BitVec 8)) := do
  let neg := val.slt 0
  let val := if neg then -val else val
  let buf ← decimalBuf val.toInt
  if neg then pushByte decimalBufSize (byte '-') buf else some buf

def gpuDrawInt (font : Font) (target : Raster Pixel) (x y : Int) (val : BitVec 32)
    (fg bg : Pixel) : Option (Raster Pixel) :=
  (intBuf val).map fun buf => gpuDrawString font target x y buf.reverse fg bg

end DragoonKernel
