import DragoonKernel.WmCore
import DragoonKernel.PrintfCore

/-!
Executable model of `wm_composite`. Each colour goes through the ink of the code that draws
with it: the ink that keeps the colour gives the frame, and the ink that keeps the painter
gives, for each pixel, who drew it last.
-/

namespace DragoonKernel

universe u

inductive Painter where
  | desktop
  | window (id : Nat)
  | taskbar
deriving DecidableEq

def titleBgFocused : BitVec 32 := 0x00336699
def titleBgUnfocused : BitVec 32 := 0x00606060
def closeBg : BitVec 32 := 0x00CC3333
def borderColor : BitVec 32 := 0x00808080
def desktopBg : BitVec 32 := 0x00000080
def taskbarBg : BitVec 32 := 0x00333333
def taskbarActiveBg : BitVec 32 := 0x00336699

structure FillRect where
  x : Int
  y : Int
  w : Int
  h : Int

/-- The fill for the close button in `draw_window`. -/
def WmWindow.closeButton (win : WmWindow) : FillRect where
  x := win.x + win.w - closeBtnW - 2
  y := win.y + 2
  w := closeBtnW
  h := titlebarH - 4

section Draw

variable {Pixel : Type u} (font : Font) (ink : Painter → BitVec 32 → Pixel)
  (pixels : Nat → Int → BitVec 32)

/-- `pixels` are the contents of the pixel buffers by address. -/
def drawWindow (target : Raster Pixel) (id : Nat) (win : WmWindow) : Raster Pixel :=
  let tint := ink (.window id)
  let target := gpuDrawRect target win.x win.y win.w win.h (tint borderColor)
  let titleBg := if win.focused then titleBgFocused else titleBgUnfocused
  let target := gpuFillRect target (win.x + 1) (win.y + 1) (win.w - 2) titlebarH (tint titleBg)
  let target := gpuDrawString font target (win.x + 4) (win.y + 3) win.title (tint colorWhite)
    (tint titleBg)
  let close := win.closeButton
  let target := gpuFillRect target close.x close.y close.w close.h (tint closeBg)
  let target := gpuDrawChar font target (close.x + 4) (close.y + 1) 88 (tint colorWhite)
    (tint closeBg)
  match win.content with
  | some content =>
      gpuBlit target (win.x + 1) (win.y + titlebarH + 1) (fun index => tint (pixels content index))
        win.contentW win.contentH win.contentW
  | none => target

def drawTaskbarButtons (wm : Wm) (ty : Int) : List Nat → Int → Raster Pixel → Raster Pixel
  | [], _, target => target
  | id :: rest, bx, target =>
      let win := wm.windows id
      if win.visible then
        let bw := taskbarButtonW win
        let bg := if win.focused then taskbarActiveBg else taskbarBg
        let target := gpuFillRect target bx (ty + 2) bw (taskbarH - 4) (ink .taskbar bg)
        let target := gpuDrawString font target (bx + 4) (ty + 5) win.title
          (ink .taskbar colorLtgray) (ink .taskbar bg)
        drawTaskbarButtons wm ty rest (bx + (bw + 4)) target
      else drawTaskbarButtons wm ty rest bx target

def drawTaskbar (wm : Wm) (target : Raster Pixel) : Raster Pixel :=
  let tint := ink .taskbar
  let ty := fbHeight - taskbarH
  let target := gpuFillRect target 0 ty fbWidth taskbarH (tint taskbarBg)
  let target := gpuHline target 0 ty fbWidth (tint borderColor)
  let target := gpuFillRect target 0 (ty + 1) startBtnW (taskbarH - 1) (tint 0x00336699)
  let target := gpuDrawString font target 6 (ty + 5) (cString "Start") (tint colorWhite)
    (tint 0x00336699)
  let target := drawTaskbarButtons font ink wm ty wm.stack (startBtnW + 4) target
  gpuDrawString font target (fbWidth - 8 * fontWidth - 4) (ty + 5) (cString "DRAGOON")
    (tint colorGray) (tint taskbarBg)

def wmComposite (wm : Wm) (target : Raster Pixel) : Raster Pixel :=
  let target := gpuClear target (ink .desktop desktopBg)
  let wx := (fbWidth - 10 * fontWidth) / 2
  let wy := (fbHeight - taskbarH) / 2 - 8
  let target := gpuDrawString font target wx wy (cString "DRAGOON OS") (ink .desktop 0x00102040)
    (ink .desktop desktopBg)
  let target := wm.stack.foldl (fun target id =>
    if (wm.windows id).visible then drawWindow font ink pixels target id (wm.windows id)
    else target) target
  drawTaskbar font ink wm target

end Draw

end DragoonKernel
