import DragoonKernel.WaitQueueCore

/-!
Executable model of `kernel/futex.c`. A call is split into its sections under
`futex_lock`, its wait-queue operations and its unlocked reads, and tasks are where
they are between two of these.
-/

namespace DragoonKernel

def futexMax : Nat := 16

/-- The wait queue of a slot is the one with the slot's number. -/
structure FutexSlot where
  addr : Nat
  active : Bool
  deriving DecidableEq

/-- Where a task is in its call, `ticks` being absent in `futex_wait`. -/
inductive FutexControl where
  | outside
  | enqueueing (addr slot : Nat) (ticks : Option Word)
  | waiting (addr slot : Nat) (timed : Bool)
  | leaving (slot : Nat) (status : Int)
  | waking (addr slot : Nat) (count woken : Int)
  | wakingOne (addr slot : Nat) (count woken : Int)
  | finishing (addr slot : Nat) (woken : Int)
  deriving DecidableEq

structure FutexSystem where
  slots : Nat → FutexSlot
  memory : Nat → BitVec 32
  wq : WqSystem
  controls : Nat → FutexControl
  returned : Nat → Int

def FutexSystem.withQueues (system : FutexSystem) (queues : WaitQueues) : FutexSystem :=
  { system with wq := { system.wq with queues := queues } }

def FutexSystem.setControl (system : FutexSystem) (task : Nat) (control : FutexControl) :
    FutexSystem :=
  { system with controls := Function.update system.controls task control }

def FutexSystem.leave (system : FutexSystem) (task : Nat) (status : Int) : FutexSystem :=
  { system.setControl task .outside with
    returned := Function.update system.returned task status }

def futexInit (system : FutexSystem) : FutexSystem :=
  { system with
    slots := fun slot => if slot < futexMax then ⟨0, false⟩ else system.slots slot
    wq := { system.wq with
      queues := (List.range futexMax).foldl wqInit system.wq.queues } }

def FutexSystem.findSlot (system : FutexSystem) (addr : Nat) (create : Bool) :
    FutexSystem × Option Nat :=
  match (List.range futexMax).find? fun slot =>
    (system.slots slot).active && (system.slots slot).addr = addr with
  | some slot => (system, some slot)
  | none =>
      match (List.range futexMax).find? fun slot => !(system.slots slot).active with
      | some slot =>
          if create then
            ({ system.withQueues (wqInit system.wq.queues slot) with
                slots := Function.update system.slots slot ⟨addr, true⟩ }, some slot)
          else (system, none)
      | none => (system, none)

def FutexSystem.maybeFreeSlot (system : FutexSystem) (slot : Nat) : FutexSystem :=
  if system.wq.queues.heads slot < 0 then
    { system with
      slots := Function.update system.slots slot { system.slots slot with active := false } }
  else system

/-- The first section of `futex_wait` and `futex_wait_timeout`, whose two reads of `*addr`
return `first` and `second`. -/
def FutexSystem.waitEnter (system : FutexSystem) (addr : Nat) (expected first second : BitVec 32) :
    FutexSystem × Option Nat :=
  if first ≠ expected then (system, none)
  else match system.findSlot addr true with
    | (system, none) => (system, none)
    | (system, some slot) =>
        if second ≠ expected then (system.maybeFreeSlot slot, none) else (system, some slot)

inductive FutexCall where
  | wait (addr : Nat) (expected : BitVec 32) (ticks : Option Word)
  | wake (addr : Nat) (count : Int)

/-- `between` is what another CPU stores to the word between the two reads of a wait. -/
inductive FutexAction where
  | schedule (cpu : Nat)
  | store (addr : Nat) (value : BitVec 32)
  | tick (now : Word)
  | call (cpu : Nat) (call : FutexCall) (between : Option (BitVec 32))
  | proceed (cpu : Nat) (now : Word)

def FutexSystem.store (system : FutexSystem) (addr : Nat) (value : BitVec 32) : FutexSystem :=
  { system with memory := Function.update system.memory addr value }

def FutexSystem.storeBetween (system : FutexSystem) (addr : Nat) :
    Option (BitVec 32) → FutexSystem
  | some value => system.store addr value
  | none => system

def FutexSystem.running (system : FutexSystem) (cpu : Nat) : Option Nat :=
  match taskGet system.wq.smp.states (system.wq.smp.current cpu) with
  | some task => if system.wq.smp.states task = .running then some task else none
  | none => none

def FutexSystem.call (system : FutexSystem) (task : Nat) (between : Option (BitVec 32)) :
    FutexCall → FutexSystem
  | .wait addr expected ticks =>
      let stored := system.storeBetween addr between
      match stored.waitEnter addr expected (system.memory addr) (stored.memory addr) with
      | (system, some slot) => system.setControl task (.enqueueing addr slot ticks)
      | (system, none) => system.leave task (-1)
  | .wake addr count =>
      match system.findSlot addr false with
      | (system, some slot) => system.setControl task (.waking addr slot count 0)
      | (system, none) => system.leave task 0

/-- `wq_wait`, or `wq_wait_timeout` at the tick `now`. -/
def FutexSystem.joinQueue (system : FutexSystem) (cpu slot : Nat) (now : Word) :
    Option Word → Option WqSystem
  | none => system.wq.wqWait cpu slot
  | some ticks => system.wq.wqWaitTimeout cpu slot now ticks

/-- An exhausted pool ends the wait at once. -/
def FutexSystem.enqueue (system : FutexSystem) (cpu task : Nat) (now : Word) (addr slot : Nat)
    (ticks : Option Word) : Option FutexSystem :=
  let control := match poolAlloc system.wq.queues with
    | (_, none) => .leaving slot (if ticks.isSome then -1 else 0)
    | (_, some _) => .waiting addr slot ticks.isSome
  (system.joinQueue cpu slot now ticks).map fun wq =>
    { system with wq := wq }.setControl task control

def FutexSystem.proceed (system : FutexSystem) (cpu task : Nat) (now : Word) :
    Option FutexSystem :=
  match system.controls task with
  | .outside => none
  | .enqueueing addr slot ticks => system.enqueue cpu task now addr slot ticks
  | .waiting _ slot timed =>
      some (system.setControl task
        (.leaving slot (if timed then (system.wq.smp.tasks task).wakeupReason else 0)))
  | .leaving slot status => some ((system.maybeFreeSlot slot).leave task status)
  | .waking addr slot count woken =>
      if woken < count ∧ 0 ≤ system.wq.queues.heads slot then
        some (system.setControl task (.wakingOne addr slot count woken))
      else some (system.setControl task (.finishing addr slot woken))
  | .wakingOne addr slot count woken =>
      (system.wq.wakeOne slot).map fun wq =>
        { system with wq := wq }.setControl task (.waking addr slot count (woken + 1))
  | .finishing _ slot woken => some ((system.maybeFreeSlot slot).leave task woken)

def FutexSystem.step (system : FutexSystem) : FutexAction → Option FutexSystem
  | .schedule cpu =>
      some { system with wq := { system.wq with smp := (system.wq.smp.schedule cpu).1 } }
  | .store addr value => some (system.store addr value)
  | .tick now => (system.wq.tick now).map fun wq => { system with wq := wq }
  | .call cpu call between =>
      (system.running cpu).bind fun task =>
        if system.controls task = .outside then some (system.call task between call) else none
  | .proceed cpu now => (system.running cpu).bind fun task => system.proceed cpu task now

end DragoonKernel
