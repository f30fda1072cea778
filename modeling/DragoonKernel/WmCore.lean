import DragoonKernel.GpuCore
import Mathlib.Data.List.Range

/-!
Executable model of the window manager in `kernel/wm.c`, its drawing apart. Coordinates are
integers without overflow.
-/

namespace DragoonKernel

def wmMaxWindows : Nat := 8
def titlebarH : Int := 20
def taskbarH : Int := 24
def closeBtnW : Int := 16
def startBtnW : Int := 60
def mouseBtnLeft : BitVec 32 := 1

/-- `title` is the string up to its end mark, and `content` the address of the pixel buffer. -/
structure WmWindow where
  x : Int
  y : Int
  w : Int
  h : Int
  title : List (BitVec 8)
  content : Option Nat
  contentW : Int
  contentH : Int
  visible : Bool
  focused : Bool
  dragging : Bool
  dragOx : Int
  dragOy : Int

structure Wm where
  windows : Nat → WmWindow
  zOrder : Nat → Nat
  zCount : Nat
  prevButtons : BitVec 32

def Wm.modify (wm : Wm) (id : Nat) (change : WmWindow → WmWindow) : Wm :=
  { wm with windows := Function.update wm.windows id (change (wm.windows id)) }

def wmInit (wm : Wm) : Wm where
  windows := fun i =>
    if i < wmMaxWindows then { wm.windows i with visible := false, content := none }
    else wm.windows i
  zOrder := wm.zOrder
  zCount := 0
  prevButtons := 0

/-- The windows in `z_order`, back to front. -/
def Wm.stack (wm : Wm) : List Nat := (List.range wm.zCount).map wm.zOrder

/-- `id < 0 || id >= WM_MAX_WINDOWS || !windows[id].visible` fails. -/
def Wm.visibleId (wm : Wm) (id : Int) : Option Nat :=
  if id < 0 ∨ (wmMaxWindows : Int) ≤ id ∨ (wm.windows id.toNat).visible = false then none
  else some id.toNat

/-- The loop `for (i = first; i < last; i++) z_order[i] = z_order[i + 1]`. -/
def shiftDown (zOrder : Nat → Nat) (first : Nat) : Nat → Nat → Nat
  | 0 => zOrder
  | count + 1 =>
      let shifted := shiftDown zOrder first count
      Function.update shifted (first + count) (shifted (first + count + 1))

def Wm.unfocusAll (wm : Wm) : Wm :=
  { wm with windows := fun i =>
      if i < wmMaxWindows then { wm.windows i with focused := false } else wm.windows i }

/-- The part of `wm_focus_window` that moves the window to the top. -/
def Wm.raise (wm : Wm) (id : Nat) : Wm :=
  match (List.range wm.zCount).find? fun i => wm.zOrder i = id with
  | some pos =>
      if pos < wm.zCount - 1 then
        let shifted := shiftDown wm.zOrder pos (wm.zCount - 1 - pos)
        { wm with zOrder := Function.update shifted (wm.zCount - 1) id }
      else wm
  | none => wm

def Wm.wmFocusWindow (wm : Wm) (id : Int) : Wm :=
  match wm.visibleId id with
  | none => wm
  | some id => (wm.unfocusAll.modify id fun win => { win with focused := true }).raise id

/-- `content` is the result of `pages_alloc`. -/
def Wm.wmCreateWindow (wm : Wm) (title : List (BitVec 8)) (x y w h : Int) (content : Option Nat) :
    Wm × Int :=
  match (List.range wmMaxWindows).find? fun i => !(wm.windows i).visible with
  | none => (wm, -1)
  | some id =>
      let wm := wm.modify id fun win => { win with
        title := title.take 31
        x := x
        y := y
        contentW := w
        contentH := h
        w := w + 2
        h := h + titlebarH + 2
        content := content }
      match content with
      | none => (wm, -1)
      | some _ =>
          let wm := wm.modify id fun win => { win with
            visible := true
            focused := false
            dragging := false }
          let wm := { wm with
            zOrder := Function.update wm.zOrder wm.zCount id
            zCount := wm.zCount + 1 }
          (wm.wmFocusWindow id, id)

/-- One turn of the loop that removes a window from `z_order`, with the flag `found`. -/
def removeStep (zCount id : Nat) (state : Bool × (Nat → Nat)) (i : Nat) : Bool × (Nat → Nat) :=
  let found := state.1 || decide (state.2 i = id)
  (found, if found ∧ i + 1 < zCount then Function.update state.2 i (state.2 (i + 1)) else state.2)

def Wm.wmDestroyWindow (wm : Wm) (id : Int) : Wm :=
  match wm.visibleId id with
  | none => wm
  | some id =>
      let wm := wm.modify id fun win => { win with
        content := none
        visible := false
        focused := false }
      let (found, zOrder) := (List.range wm.zCount).foldl (removeStep wm.zCount id)
        (false, wm.zOrder)
      let wm := { wm with zOrder := zOrder, zCount := if found then wm.zCount - 1 else wm.zCount }
      if 0 < wm.zCount then wm.wmFocusWindow (wm.zOrder (wm.zCount - 1)) else wm

/-- A drag moves the window, and the clamp keeps its title bar in reach. -/
def WmWindow.drag (win : WmWindow) (mx my : Int) : WmWindow :=
  let y := if my - win.dragOy < 0 then 0 else my - win.dragOy
  let lowest := fbHeight - taskbarH - titlebarH
  { win with x := mx - win.dragOx, y := if y > lowest then lowest else y }

def taskbarButtonW (win : WmWindow) : Int := (win.title.length + 2) * fontWidth + 8

/-- The loop over the taskbar buttons, of which the first one starts at `bx`. -/
def Wm.taskbarHit (wm : Wm) (mx : Int) : List Nat → Int → Option Nat
  | [], _ => none
  | id :: rest, bx =>
      let win := wm.windows id
      if win.visible then
        if mx ≥ bx ∧ mx < bx + taskbarButtonW win then some id
        else wm.taskbarHit mx rest (bx + (taskbarButtonW win + 4))
      else wm.taskbarHit mx rest bx

def WmWindow.hit (win : WmWindow) (mx my : Int) : Bool :=
  win.visible && !(decide (mx < win.x) || decide (mx ≥ win.x + win.w) || decide (my < win.y) ||
    decide (my ≥ win.y + win.h))

def WmWindow.closeX (win : WmWindow) : Int := win.x + win.w - closeBtnW - 2
def WmWindow.closeY (win : WmWindow) : Int := win.y + 2

/-- The click on the window `id`, once it has been focused. -/
def Wm.clickWindow (wm : Wm) (id : Nat) (mx my : Int) : Wm × Int :=
  let win := wm.windows id
  if mx ≥ win.closeX ∧ mx < win.closeX + closeBtnW ∧ my ≥ win.closeY ∧
      my < win.closeY + titlebarH - 4 then (wm, -(id + 100))
  else if my < win.y + titlebarH + 1 then
    (wm.modify id fun win => { win with
      dragging := true, dragOx := mx - win.x, dragOy := my - win.y }, -1)
  else (wm, id)

def Wm.wmHandleMouse (wm : Wm) (mx my : Int) (buttons : BitVec 32) : Wm × Int :=
  let wasDown := wm.prevButtons &&& mouseBtnLeft ≠ 0
  let isDown := buttons &&& mouseBtnLeft ≠ 0
  let wm := { wm with prevButtons := buttons }
  match (List.range wmMaxWindows).find? fun i => (wm.windows i).dragging with
  | some i =>
      if ¬isDown ∧ wasDown then (wm.modify i fun win => { win with dragging := false }, -1)
      else (wm.modify i fun win => win.drag mx my, -1)
  | none =>
      if ¬(isDown ∧ ¬wasDown) then (wm, -1)
      else if my ≥ fbHeight - taskbarH then
        if mx < startBtnW then (wm, -2)
        else match wm.taskbarHit mx wm.stack (startBtnW + 4) with
          | some id => (wm.wmFocusWindow id, -1)
          | none => (wm, -1)
      else match wm.stack.reverse.find? fun id => (wm.windows id).hit mx my with
        | some id => (wm.wmFocusWindow id).clickWindow id mx my
        | none => (wm, -1)

inductive WmAction where
  | createWindow (title : List (BitVec 8)) (x y w h : Int) (content : Option Nat)
  | destroyWindow (id : Int)
  | focusWindow (id : Int)
  | handleMouse (mx my : Int) (buttons : BitVec 32)

def Wm.step (wm : Wm) : WmAction → Option Wm
  | .createWindow title x y w h content => some (wm.wmCreateWindow title x y w h content).1
  | .destroyWindow id => some (wm.wmDestroyWindow id)
  | .focusWindow id => some (wm.wmFocusWindow id)
  | .handleMouse mx my buttons => some (wm.wmHandleMouse mx my buttons).1

end DragoonKernel
