import DragoonKernel.GuiCore
import DragoonKernel.VirtioInputCore

/-!
Executable model of the tablet half of `kernel/virtio_input.c` and of `mouse_get_state`, and of
the loop of `gui_main` that reads it. `virtio_mouse_poll` is `drain_events`, whose steps are those
of the event queue.
-/

namespace DragoonKernel

def evRel : BitVec 16 := 2
def evAbs : BitVec 16 := 3

def relX : BitVec 16 := 0
def relY : BitVec 16 := 1
def absX : BitVec 16 := 0
def absY : BitVec 16 := 1

def tabletAbsMax : Int := 32767

def btnLeft : BitVec 16 := 0x110
def btnRight : BitVec 16 := 0x111

def mouseBtnRight : BitVec 32 := 2

structure Mouse where
  x : Int
  y : Int
  btns : BitVec 32
deriving DecidableEq

def mouseStart : Mouse := ⟨fbWidth / 2, fbHeight / 2, 0⟩

/-- The place on an axis of `size` pixels of an absolute event. -/
def absolutePlace (size : Int) (value : BitVec 32) : Int :=
  let val := value.toInt
  let val := if val < 0 then 0 else val
  let val := if val > tabletAbsMax then tabletAbsMax else val
  (val * (size - 1)).tdiv tabletAbsMax

/-- The place after a relative event. The sum is one of 32 bits. -/
def relativePlace (size place : Int) (value : BitVec 32) : Int :=
  let place := (place + value.toInt).bmod (2 ^ 32)
  let place := if place < 0 then 0 else place
  if place ≥ size then size - 1 else place

def Mouse.absolute (mouse : Mouse) (ev : VirtioInputEvent) : Mouse :=
  if ev.code = absX then { mouse with x := absolutePlace fbWidth ev.value }
  else if ev.code = absY then { mouse with y := absolutePlace fbHeight ev.value }
  else mouse

def Mouse.relative (mouse : Mouse) (ev : VirtioInputEvent) : Mouse :=
  if ev.code = relX then { mouse with x := relativePlace fbWidth mouse.x ev.value }
  else if ev.code = relY then { mouse with y := relativePlace fbHeight mouse.y ev.value }
  else mouse

def Mouse.button (mouse : Mouse) (ev : VirtioInputEvent) : Mouse :=
  let bit : BitVec 32 := if ev.code = btnLeft then mouseBtnLeft else 0
  let bit := if ev.code = btnRight then mouseBtnRight else bit
  if bit ≠ 0 then
    if ev.value ≠ 0 then { mouse with btns := mouse.btns ||| bit }
    else { mouse with btns := mouse.btns &&& ~~~bit }
  else mouse

def processTabletEvent (mouse : Mouse) (ev : VirtioInputEvent) : Mouse :=
  if ev.type = evSyn then mouse
  else
    let mouse := if ev.type = evAbs then mouse.absolute ev else mouse
    let mouse := if ev.type = evRel then mouse.relative ev else mouse
    if ev.type = evKey then mouse.button ev else mouse

/-- `active` is `dev && dev->active`. What the calls of `mouse_get_state` have returned is recorded
in `samples`. -/
structure MouseSystem where
  input : InputSystem
  available : Bool
  active : Bool
  mouse : Mouse
  samples : List Mouse

def MouseSystem.boot (input : InputSystem) (available active : Bool) : MouseSystem :=
  ⟨input, available, active, mouseStart, []⟩

def MouseSystem.sample (system : MouseSystem) : MouseSystem :=
  { system with samples := system.samples ++ [system.mouse] }

/-- What the driver does while the event queue takes a step to `input`. -/
def MouseSystem.follow (bufs : Word) (system : MouseSystem) (action : InputAction)
    (input : InputSystem) : MouseSystem :=
  match action, system.input.phase with
  | .driver, .popped elem =>
      if eventSize ≤ elem.len then
        { system with
          mouse := processTabletEvent system.mouse
            (system.input.memory (bufAddr bufs elem.id.toNat)) }
      else system
  | .driver, .checking => if input.phase = .outside then system.sample else system
  | .driver, .popping => if input.phase = .outside then system.sample else system
  | _, _ => system

/-- The action `drainEvents` is the call of `mouse_get_state`. -/
def MouseSystem.step (bufs : Word) (system : MouseSystem) (action : InputAction) :
    Option MouseSystem :=
  match system.available, system.active, action with
  | false, _, .drainEvents => some { system with samples := system.samples ++ [⟨0, 0, 0⟩] }
  | false, _, _ => none
  | true, false, .drainEvents => some system.sample
  | true, false, _ => none
  | true, true, action => (system.input.step bufs action).map fun input =>
      { system.follow bufs action input with input := input }

/-- The tablet with the loop that reads it, which has made `turns` turns. -/
structure PointedDesktop where
  tablet : MouseSystem
  gui : Gui
  turns : Nat

inductive PointedAction where
  | tablet (action : InputAction)
  /-- The rest of a turn, with what it reads beside the mouse. -/
  | turn (content : Option Nat) (keys : List Int)

/-- A turn starts with its own call of `mouse_get_state`. -/
def PointedDesktop.step (bufs : Word) (desktop : PointedDesktop) :
    PointedAction → Option PointedDesktop
  | .tablet .drainEvents =>
      if desktop.tablet.samples.length = desktop.turns then
        (desktop.tablet.step bufs .drainEvents).map fun tablet => { desktop with tablet := tablet }
      else none
  | .tablet action =>
      (desktop.tablet.step bufs action).map fun tablet => { desktop with tablet := tablet }
  | .turn content keys =>
      (desktop.tablet.samples[desktop.turns]?).bind fun mouse =>
        (desktop.gui.step ⟨mouse.x, mouse.y, mouse.btns, content, keys⟩).map fun gui =>
          { desktop with gui := gui, turns := desktop.turns + 1 }

def PointedDesktop.boot (tablet : MouseSystem) (wm : Wm) : PointedDesktop := ⟨tablet, guiInit wm, 0⟩

end DragoonKernel
