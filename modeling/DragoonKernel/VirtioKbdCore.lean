import DragoonKernel.VirtioInputCore

/-!
Executable model of the keyboard half of `kernel/virtio_input.c`. `virtio_kbd_poll` is
`drain_events`, whose steps are those of the event queue, and then `key_ring_pop`.
-/

namespace DragoonKernel

def keyNone : Int := 0
def keyUp : Int := 128
def keyDown : Int := 129
def keyLeft : Int := 130
def keyRight : Int := 131
def keyEnter : Int := 10
def keyEsc : Int := 27
def keySpace : Int := 32
def keyBackspace : Int := 127

def evSyn : BitVec 16 := 0
def evKey : BitVec 16 := 1

def keyRingSize : Nat := 32

structure KeyRing where
  ring : Nat → Int
  head : Nat
  tail : Nat

def keyRingPush (keys : KeyRing) (key : Int) : KeyRing :=
  let next := (keys.head + 1) % keyRingSize
  if next = keys.tail then keys
  else { keys with ring := Function.update keys.ring keys.head key, head := next }

def keyRingPop (keys : KeyRing) : KeyRing × Int :=
  if keys.head = keys.tail then (keys, keyNone)
  else ({ keys with tail := (keys.tail + 1) % keyRingSize }, keys.ring keys.tail)

def ascii (c : Char) : Int := c.toNat

/-- The entries of a table of `u8` by their index. The others are 0. -/
abbrev KeyTable := List (Nat × Int)

def KeyTable.get (table : KeyTable) (code : BitVec 16) : Int := (table.lookup code.toNat).getD 0

def keycodeTable : KeyTable :=
  [(1, keyEsc), (2, ascii '1'), (3, ascii '2'), (4, ascii '3'), (5, ascii '4'), (6, ascii '5'),
   (7, ascii '6'), (8, ascii '7'), (9, ascii '8'), (10, ascii '9'), (11, ascii '0'),
   (12, ascii '-'), (13, ascii '='), (14, keyBackspace), (15, 9), (16, ascii 'q'), (17, ascii 'w'),
   (18, ascii 'e'), (19, ascii 'r'), (20, ascii 't'), (21, ascii 'y'), (22, ascii 'u'),
   (23, ascii 'i'), (24, ascii 'o'), (25, ascii 'p'), (26, ascii '['), (27, ascii ']'),
   (28, keyEnter), (30, ascii 'a'), (31, ascii 's'), (32, ascii 'd'), (33, ascii 'f'),
   (34, ascii 'g'), (35, ascii 'h'), (36, ascii 'j'), (37, ascii 'k'), (38, ascii 'l'),
   (39, ascii ';'), (40, 39), (41, 96), (43, 92), (44, ascii 'z'), (45, ascii 'x'), (46, ascii 'c'),
   (47, ascii 'v'), (48, ascii 'b'), (49, ascii 'n'), (50, ascii 'm'), (51, ascii ','),
   (52, ascii '.'), (53, ascii '/'), (57, keySpace), (103, keyUp), (105, keyLeft), (106, keyRight),
   (108, keyDown)]

def shiftTable : KeyTable :=
  [(2, ascii '!'), (3, ascii '@'), (4, ascii '#'), (5, ascii '$'), (6, ascii '%'), (7, ascii '^'),
   (8, ascii '&'), (9, ascii '*'), (10, ascii '('), (11, ascii ')'), (12, ascii '_'),
   (13, ascii '+'), (16, ascii 'Q'), (17, ascii 'W'), (18, ascii 'E'), (19, ascii 'R'),
   (20, ascii 'T'), (21, ascii 'Y'), (22, ascii 'U'), (23, ascii 'I'), (24, ascii 'O'),
   (25, ascii 'P'), (26, 123), (27, 125), (30, ascii 'A'), (31, ascii 'S'), (32, ascii 'D'),
   (33, ascii 'F'), (34, ascii 'G'), (35, ascii 'H'), (36, ascii 'J'), (37, ascii 'K'),
   (38, ascii 'L'), (39, ascii ':'), (40, 34), (41, ascii '~'), (43, ascii '|'), (44, ascii 'Z'),
   (45, ascii 'X'), (46, ascii 'C'), (47, ascii 'V'), (48, ascii 'B'), (49, ascii 'N'),
   (50, ascii 'M'), (51, ascii '<'), (52, ascii '>'), (53, ascii '?')]

structure Kbd where
  keys : KeyRing
  shiftHeld : Bool

def processKbdEvent (kbd : Kbd) (ev : VirtioInputEvent) : Kbd :=
  if ev.type = evSyn then kbd
  else if ev.type = evKey then
    if ev.code = 42 ∨ ev.code = 54 then { kbd with shiftHeld := ev.value ≠ 0 }
    else if ev.value = 0 then kbd
    else if ev.code < 128 then
      let key :=
        if kbd.shiftHeld ∧ shiftTable.get ev.code ≠ 0 then shiftTable.get ev.code
        else keycodeTable.get ev.code
      if key ≠ 0 then { kbd with keys := keyRingPush kbd.keys key } else kbd
    else kbd
  else kbd

/-- The keys stored, from the oldest on. -/
def KeyRing.stored (keys : KeyRing) : List Int :=
  Ring.contents keys.ring keyRingSize keys.tail keys.head

/-- An event that the handler was called for, and how many keys the ring held then. -/
structure Arrival where
  event : VirtioInputEvent
  held : Nat

/-- `active` is `dev && dev->active`. The calls of the handler are recorded in `arrivals`, and
what the polls returned in `returned`. -/
structure KbdSystem where
  input : InputSystem
  active : Bool
  kbd : Kbd
  arrivals : List Arrival
  returned : List Int

def KbdSystem.boot (input : InputSystem) (active : Bool) : KbdSystem :=
  ⟨input, active, ⟨⟨fun _ => 0, 0, 0⟩, false⟩, [], []⟩

def KbdSystem.handle (system : KbdSystem) (event : VirtioInputEvent) : KbdSystem :=
  { system with
    kbd := processKbdEvent system.kbd event
    arrivals := system.arrivals ++ [⟨event, system.kbd.keys.stored.length⟩] }

/-- The end of `virtio_kbd_poll`. -/
def KbdSystem.pop (system : KbdSystem) : KbdSystem :=
  { system with
    kbd := { system.kbd with keys := (keyRingPop system.kbd.keys).1 }
    returned := system.returned ++ [(keyRingPop system.kbd.keys).2] }

/-- What the keyboard does while its event queue takes a step to `input`. -/
def KbdSystem.follow (bufs : Word) (system : KbdSystem) (action : InputAction)
    (input : InputSystem) : KbdSystem :=
  match action, system.input.phase with
  | .driver, .popped elem =>
      if eventSize ≤ elem.len then
        system.handle (system.input.memory (bufAddr bufs elem.id.toNat))
      else system
  | .driver, .checking => if input.phase = .outside then system.pop else system
  | .driver, .popping => if input.phase = .outside then system.pop else system
  | _, _ => system

/-- The action `drainEvents` is the call of `virtio_kbd_poll`. -/
def KbdSystem.step (bufs : Word) (system : KbdSystem) (action : InputAction) : Option KbdSystem :=
  match system.active, action with
  | true, action => (system.input.step bufs action).map fun input =>
      { system.follow bufs action input with input := input }
  | false, .drainEvents => some system.pop
  | false, _ => none

end DragoonKernel
