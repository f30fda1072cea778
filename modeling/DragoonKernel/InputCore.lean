import DragoonKernel.PrintfCore
import DragoonKernel.VirtioKbdCore

/-!
Executable model of `uart_poll` in `kernel/input.c`. A poll is given what `uart_try_read` finds
in the receive FIFO.
-/

namespace DragoonKernel

/-- `esc_state`. -/
inductive EscState where
  | normal
  | gotEsc
  | gotEscBracket
deriving DecidableEq

def escByte : BitVec 8 := 27

def backspaceByte : BitVec 8 := 8

def deleteByte : BitVec 8 := 127

/-- A byte outside of all sequences. -/
def plainKey (c : BitVec 8) : Int :=
  if c = 13 ∨ c = 10 then keyEnter
  else if c = deleteByte ∨ c = backspaceByte then keyBackspace
  else c.toNat

def arrowKey (c : BitVec 8) : Option Int :=
  if c = byte 'A' then some keyUp
  else if c = byte 'B' then some keyDown
  else if c = byte 'C' then some keyRight
  else if c = byte 'D' then some keyLeft
  else none

def uartPoll (escState : EscState) (read : Option (BitVec 8)) : EscState × Int :=
  match read with
  | none => (escState, keyNone)
  | some c =>
      match escState with
      | .normal => if c = escByte then (.gotEsc, keyNone) else (.normal, plainKey c)
      | .gotEsc => if c = byte '[' then (.gotEscBracket, keyNone) else (.normal, keyEsc)
      | .gotEscBracket => (.normal, (arrowKey c).getD keyNone)

/-- The decoder with the bytes that it has read and the keys that it has returned, in order. -/
structure Uart where
  escState : EscState
  bytes : List (BitVec 8)
  keys : List Int

def Uart.start : Uart := ⟨.normal, [], []⟩

/-- What a poll adds to the keys. -/
def returnedKey (key : Int) : List Int := if key = keyNone then [] else [key]

def Uart.step (uart : Uart) (read : Option (BitVec 8)) : Option Uart :=
  let (escState, key) := uartPoll uart.escState read
  some {
    escState := escState
    bytes := uart.bytes ++ read.toList
    keys := uart.keys ++ returnedKey key }

end DragoonKernel
