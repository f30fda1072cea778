import DragoonKernel.WmDrawCore
import DragoonKernel.VirtioKbdCore

/-!
Executable model of the loop of `gui_main`: one turn takes a mouse sample and the keys that
are waiting. The applications do not touch the window tables, so their keys, ticks and drawing
are left out.
-/

namespace DragoonKernel

inductive AppType where
  | none
  | terminal
  | snake
  | tetris
  | raycaster
  | breakout
deriving DecidableEq

structure Gui where
  wm : Wm
  startMenuOpen : Bool
  prevLeft : BitVec 32
  winAppType : Nat → AppType
  termWinId : Int

/-- What one turn of the loop reads. `content` is what `pages_alloc` returns if it is called,
and `keys` are the results of `input_poll` up to the first `KEY_NONE`. -/
structure GuiFrame where
  mx : Int
  my : Int
  mb : BitVec 32
  content : Option Nat
  keys : List Int

def menuItemH : Int := 24
def menuW : Int := 140

def menuAppTypes : List AppType := [.terminal, .snake, .tetris, .raycaster, .breakout]

def menuH : Int := menuAppTypes.length * menuItemH + 4
def menuY : Int := fbHeight - taskbarH - menuH

/-- The state at the top of the loop for the first time. -/
def guiInit (wm : Wm) : Gui where
  wm := wmInit wm
  startMenuOpen := false
  prevLeft := 0
  winAppType := fun _ => .none
  termWinId := -1

/-- The loop over the items of `start_menu_click`, the first of which starts at `iy`. -/
def menuItemAt (my : Int) : List AppType → Int → Option AppType
  | [], _ => none
  | app :: rest, iy =>
      if my ≥ iy ∧ my < iy + menuItemH then some app else menuItemAt my rest (iy + menuItemH)

/-- No application is the result -1. -/
def Gui.startMenuClick (gui : Gui) (mx my : Int) : Gui × Option AppType :=
  if gui.startMenuOpen = false then (gui, none)
  else if mx < 0 ∨ mx ≥ menuW ∨ my < menuY ∨ my ≥ menuY + menuH then
    ({ gui with startMenuOpen := false }, none)
  else ({ gui with startMenuOpen := false }, menuItemAt my menuAppTypes (menuY + 2))

def Gui.findExistingAppWindow (gui : Gui) (app : AppType) : Option Nat :=
  (List.range wmMaxWindows).find? fun i =>
    decide (gui.winAppType i = app) && (gui.wm.windows i).visible

structure AppWindow where
  title : String
  w : Int
  h : Int
  x : Int
  y : Int

def appWindow : AppType → AppWindow
  | .none => ⟨"App", 500, 370, 80, 30⟩
  | .terminal => ⟨"Terminal", 500, 370, 120, 40⟩
  | .snake => ⟨"Snake", 612, 472, 10, 4⟩
  | .tetris => ⟨"Tetris", 420, 440, 100, 10⟩
  | .raycaster => ⟨"Raycaster", 500, 400, 60, 20⟩
  | .breakout => ⟨"Breakout", 620, 440, 10, 10⟩

def Gui.openApp (gui : Gui) (app : AppType) (content : Option Nat) : Gui :=
  match gui.findExistingAppWindow app with
  | some existing => { gui with wm := gui.wm.wmFocusWindow existing }
  | none =>
      let win := appWindow app
      let (wm, winId) := gui.wm.wmCreateWindow (cString win.title) win.x win.y win.w win.h content
      if winId < 0 then { gui with wm := wm }
      else { gui with wm := wm, winAppType := Function.update gui.winAppType winId.toNat app }

/-- What the close signal and ESC both do. -/
def Gui.closeWindow (gui : Gui) (id : Nat) : Gui :=
  { gui with
    winAppType := Function.update gui.winAppType id .none
    termWinId := if gui.winAppType id = .terminal then -1 else gui.termWinId
    wm := gui.wm.wmDestroyWindow id }

def Wm.wmGetFocused (wm : Wm) : Int :=
  match (List.range wmMaxWindows).find? fun i => (wm.windows i).visible && (wm.windows i).focused with
  | some i => i
  | none => -1

/-- The part of the loop before `done_click`. -/
def Gui.mouse (gui : Gui) (frame : GuiFrame) : Gui :=
  let leftClick := frame.mb &&& mouseBtnLeft ≠ 0 ∧ gui.prevLeft = 0
  let gui := { gui with prevLeft := frame.mb &&& mouseBtnLeft }
  if leftClick then
    if gui.startMenuOpen then
      match gui.startMenuClick frame.mx frame.my with
      | (gui, some app) => gui.openApp app frame.content
      | (gui, none) => gui
    else if frame.my ≥ fbHeight - taskbarH ∧ frame.mx < startBtnW then
      { gui with startMenuOpen := !gui.startMenuOpen }
    else if gui.startMenuOpen then { gui with startMenuOpen := false }
    else
      let (wm, result) := gui.wm.wmHandleMouse frame.mx frame.my frame.mb
      let gui := { gui with wm := wm }
      if result ≤ -100 then gui.closeWindow (-(result + 100)).toNat else gui
  else { gui with wm := (gui.wm.wmHandleMouse frame.mx frame.my frame.mb).1 }

def Gui.key (gui : Gui) (key : Int) : Gui :=
  let focused := gui.wm.wmGetFocused
  if focused ≥ 0 ∧ gui.winAppType focused.toNat ≠ .none then
    if key = keyEsc then gui.closeWindow focused.toNat else gui
  else gui

def Gui.step (gui : Gui) (frame : GuiFrame) : Option Gui :=
  some (frame.keys.foldl Gui.key (gui.mouse frame))

end DragoonKernel
