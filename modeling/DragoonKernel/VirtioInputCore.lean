import DragoonKernel.VirtqCore

/-!
Executable model of the event queue of `kernel/virtio_input.c`, cut into the steps between
which the device can act.
-/

namespace DragoonKernel

def eventBufCount : Nat := 16

structure VirtioInputEvent where
  type : BitVec 16
  code : BitVec 16
  value : BitVec 32
deriving DecidableEq

/-- `sizeof(struct virtio_input_event)`. -/
def eventSize : BitVec 32 := 8

def virtqDescFWrite : BitVec 16 := 2

/-- `&bufs[index]`. -/
def bufAddr (bufs : Word) (index : Nat) : Word := bufs + BitVec.ofNat 64 (8 * index)

/-- Where the driver stands: before `refill_event_queue`, at a turn of its loop, outside, or in
`drain_events` at the test of the loop, before the pop, before the handler or before the push. -/
inductive InputPhase where
  | fresh
  | refilling (i : Nat)
  | outside
  | checking
  | popping
  | popped (elem : VirtqUsedElem)
  | resubmitting (elem : VirtqUsedElem)
deriving DecidableEq

/-- What the device had written into the buffer of an element when it published it. -/
structure Delivery where
  len : BitVec 32
  contents : Option VirtioInputEvent

/-- `memory` holds the event at each buffer address. `handled` records the calls of the
handler, `wrote` what the device has written for each head since it received it, and
`delivered` has one record for each element that it has published. -/
structure InputSystem where
  virtq : VirtqSystem
  memory : Word → VirtioInputEvent
  phase : InputPhase
  handled : List VirtioInputEvent
  wrote : BitVec 16 → Option VirtioInputEvent
  delivered : List Delivery

inductive InputAction where
  | refillEventQueue
  | drainEvents
  | driver
  | fetch
  | write (head : BitVec 16) (event : VirtioInputEvent)
  | publish (head : BitVec 16) (len : BitVec 32)

def InputSystem.boot (vq : Virtq) (memory : Word → VirtioInputEvent) : InputSystem :=
  ⟨.boot vq, memory, .fresh, [], fun _ => none, []⟩

/-- `virtq_push_buf` of one event buffer. -/
def InputSystem.push (system : InputSystem) (bufs : Word) (index : Nat) (phase : InputPhase) :
    InputSystem :=
  { system with
    virtq := system.virtq.pushBuf (bufAddr bufs index) eventSize virtqDescFWrite
    phase := phase }

/-- The next step of the running `refill_event_queue` or `drain_events`. -/
def InputSystem.driver (system : InputSystem) (bufs : Word) : Option InputSystem :=
  match system.phase with
  | .fresh | .outside => none
  | .refilling i =>
      if i < eventBufCount then some (system.push bufs i (.refilling (i + 1)))
      else some { system with phase := .outside }
  | .checking =>
      if virtqHasUsed system.virtq.vq then some { system with phase := .popping }
      else some { system with phase := .outside }
  | .popping =>
      match (virtqPopUsed system.virtq.vq).2 with
      | none => some { system with phase := .outside }
      | some elem => some { system with
          virtq := system.virtq.popUsed
          phase := if elem.id.toInt < 0 then .outside else .popped elem }
  | .popped elem => some { system with
      handled := if eventSize ≤ elem.len then
        system.handled ++ [system.memory (bufAddr bufs elem.id.toNat)] else system.handled
      phase := .resubmitting elem }
  | .resubmitting elem => some (system.push bufs elem.id.toNat .checking)

/-- A device that returns at least `eventSize` bytes has written the event. -/
def InputSystem.step (bufs : Word) (system : InputSystem) : InputAction → Option InputSystem
  | .refillEventQueue =>
      if system.phase = .fresh then some { system with phase := .refilling 0 } else none
  | .drainEvents =>
      if system.phase = .outside then some { system with phase := .checking } else none
  | .driver => system.driver bufs
  | .fetch => system.virtq.fetch.map fun virtq => { system with
      virtq := virtq
      wrote := Function.update system.wrote (system.virtq.vq.avail.ring
        (Ring.slot system.virtq.vq.num.toNat system.virtq.device.seen)) none }
  | .write head event =>
      if system.virtq.device.owned.contains head then
        some { system with
          memory := Function.update system.memory (system.virtq.vq.desc head.toNat).addr event
          wrote := Function.update system.wrote head (some event) }
      else none
  | .publish head len =>
      if eventSize ≤ len ∧ system.wrote head = none then none
      else (system.virtq.publish head len).map fun virtq => { system with
        virtq := virtq
        delivered := system.delivered ++ [⟨len, system.wrote head⟩] }

end DragoonKernel
