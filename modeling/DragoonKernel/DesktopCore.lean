import DragoonKernel.BreakoutCore
import DragoonKernel.GuiCore
import DragoonKernel.Library.Components
import DragoonKernel.PageAccounting
import DragoonKernel.RaycasterCore
import DragoonKernel.SnakeCore
import DragoonKernel.TermShellCore
import DragoonKernel.TetrisCore

/-!
Executable model of the loop of `gui_main` with its applications: what `app_init`, `app_key` and
`app_tick` do, and when the loop calls them. Its drawing is left out.
-/

namespace DragoonKernel

/-- The variables of each application. -/
def AppState : AppType → Type
  | .none => Unit
  | .terminal => Shell
  | .snake => Snake
  | .tetris => Tetris
  | .raycaster => Raycaster
  | .breakout => Breakout

abbrev Apps := (app : AppType) → AppState app

/-- What the commands of the terminal read while a key is handled, with the pages counted. -/
structure KernelView where
  env : ShellEnv
  counted : env.mm.Counted

/-- The calls of the loop. `init` comes with the size of the target and two readings of the
timer. -/
inductive AppCall where
  | init (w h : Int) (seed now : BitVec 64)
  | key (view : KernelView) (key : Int)
  | tick (now : BitVec 64)

def appCall : (app : AppType) → AppState app → AppCall → Option (AppState app)
  | .none, state, _ => some state
  | .terminal, shell, .init .. => Shell.appInit shell
  | .terminal, shell, .key view key => Shell.termHandleKey view.env shell key
  | .terminal, shell, .tick _ => some shell
  | .snake, snake, .init _ _ seed now => Snake.init snake seed now
  | .snake, snake, .key _ key => Snake.step snake (.key key)
  | .snake, snake, .tick now => Snake.step snake (.tick now)
  | .tetris, game, .init _ _ seed now => Tetris.init game seed now
  | .tetris, game, .key _ key => Tetris.step game (.key key)
  | .tetris, game, .tick now => Tetris.step game (.tick now)
  | .raycaster, _, .init .. => some raycasterInit
  | .raycaster, rc, .key _ key => Raycaster.step rc key
  | .raycaster, rc, .tick _ => some rc
  | .breakout, _, .init w h _ now => some (breakoutInit w h now)
  | .breakout, game, .key _ key => Breakout.step game (.key key)
  | .breakout, game, .tick now => Breakout.step game (.tick now)

structure Desktop where
  gui : Gui
  apps : Apps

/-- `GuiFrame` with what the applications read in the turn: each key with a view of the kernel,
and the time of the tick of each window. -/
structure DesktopFrame where
  mx : Int
  my : Int
  mb : BitVec 32
  content : Option Nat
  keys : List (KernelView × Int)
  seed : BitVec 64
  now : BitVec 64
  ticks : Nat → BitVec 64

def DesktopFrame.gui (frame : DesktopFrame) : GuiFrame where
  mx := frame.mx
  my := frame.my
  mb := frame.mb
  content := frame.content
  keys := frame.keys.map Prod.snd

def Desktop.call (desktop : Desktop) (app : AppType) (call : AppCall) : Option Desktop := do
  let apps ← Components.stepAt appCall desktop.apps (app, call)
  return { desktop with apps := apps }

def Desktop.appInit (desktop : Desktop) (winId : Nat) (app : AppType) (frame : DesktopFrame) :
    Option Desktop :=
  let win := desktop.gui.wm.windows winId
  match (desktop.gui.wm.visibleId winId).bind fun id => (desktop.gui.wm.windows id).content with
  | none => some desktop
  | some _ => desktop.call app (.init win.contentW win.contentH frame.seed frame.now)

def Desktop.openApp (desktop : Desktop) (app : AppType) (frame : DesktopFrame) : Option Desktop :=
  let { gui, apps } := desktop
  match gui.findExistingAppWindow app with
  | some existing => some ⟨{ gui with wm := gui.wm.wmFocusWindow existing }, apps⟩
  | none =>
      let win := appWindow app
      let (wm, winId) :=
        gui.wm.wmCreateWindow (cString win.title) win.x win.y win.w win.h frame.content
      if winId < 0 then some ⟨{ gui with wm := wm }, apps⟩
      else
        let types := Function.update gui.winAppType winId.toNat app
        Desktop.appInit ⟨{ gui with wm := wm, winAppType := types }, apps⟩ winId.toNat app frame

def Desktop.mouse (desktop : Desktop) (frame : DesktopFrame) : Option Desktop :=
  let { gui, apps } := desktop
  let leftClick := frame.gui.mb &&& mouseBtnLeft ≠ 0 ∧ gui.prevLeft = 0
  let gui := { gui with prevLeft := frame.gui.mb &&& mouseBtnLeft }
  if leftClick then
    if gui.startMenuOpen then
      match gui.startMenuClick frame.gui.mx frame.gui.my with
      | (gui, some app) => Desktop.openApp ⟨gui, apps⟩ app frame
      | (gui, none) => some ⟨gui, apps⟩
    else if frame.gui.my ≥ fbHeight - taskbarH ∧ frame.gui.mx < startBtnW then
      some ⟨{ gui with startMenuOpen := !gui.startMenuOpen }, apps⟩
    else if gui.startMenuOpen then some ⟨{ gui with startMenuOpen := false }, apps⟩
    else
      let (wm, result) := gui.wm.wmHandleMouse frame.gui.mx frame.gui.my frame.gui.mb
      let gui := { gui with wm := wm }
      some ⟨if result ≤ -100 then gui.closeWindow (-(result + 100)).toNat else gui, apps⟩
  else some ⟨{ gui with wm := (gui.wm.wmHandleMouse frame.gui.mx frame.gui.my frame.gui.mb).1 }, apps⟩

def Desktop.key (desktop : Desktop) (input : KernelView × Int) : Option Desktop :=
  let focused := desktop.gui.wm.wmGetFocused
  if focused ≥ 0 ∧ desktop.gui.winAppType focused.toNat ≠ .none then
    if input.2 = keyEsc then
      some { desktop with gui := desktop.gui.closeWindow focused.toNat }
    else desktop.call (desktop.gui.winAppType focused.toNat) (.key input.1 input.2)
  else some desktop

/-- The tick of one window. -/
def Desktop.tick (ticks : Nat → BitVec 64) (i : Nat) (desktop : Desktop) : Option Desktop :=
  if desktop.gui.winAppType i ≠ .none ∧ (desktop.gui.wm.windows i).visible = true then
    desktop.call (desktop.gui.winAppType i) (.tick (ticks i))
  else some desktop

def Desktop.step (desktop : Desktop) (frame : DesktopFrame) : Option Desktop := do
  let desktop ← desktop.mouse frame
  let desktop ← Transition.exec Desktop.key desktop frame.keys
  loopUp (Desktop.tick frame.ticks) wmMaxWindows desktop

/-- Before the loop. The games have not been initialised, so their variables are arbitrary. -/
def Desktop.boot (wm : Wm) (snake : Snake) (tetris : Tetris) (raycaster : Raycaster)
    (breakout : Breakout) : Desktop where
  gui := guiInit wm
  apps
    | .none => ()
    | .terminal => Shell.boot
    | .snake => snake
    | .tetris => tetris
    | .raycaster => raycaster
    | .breakout => breakout

end DragoonKernel
