import DragoonKernel.AddressSpaceCore
import DragoonKernel.TaskCore

/-!
Executable model of `kernel/sched.c` with the task table, the per-CPU data and
`context_switch`. `schedule()` is the critical section under `sched_lock`, which
leaves a plan, and the switch that carries the plan out after the lock is released.
-/

namespace DragoonKernel

def maxCapsPerTask : Nat := 16

structure TaskContext where
  x19 : Word
  x20 : Word
  x21 : Word
  x22 : Word
  x23 : Word
  x24 : Word
  x25 : Word
  x26 : Word
  x27 : Word
  x28 : Word
  x29 : Word
  x30 : Word
  sp : Word
  deriving DecidableEq

/-- `name` holds the characters before the terminator. -/
structure Task where
  state : TaskState
  name : List UInt8
  ctx : TaskContext
  stackBase : Nat
  addressSpace : AddressSpace
  capTable : Nat → Int
  numCaps : Nat
  wakeupReason : Int

def TaskContext.zero : TaskContext := ⟨0, 0, 0, 0, 0, 0, 0, 0, 0, 0, 0, 0, 0⟩

def Task.zero : Task where
  state := .dead
  name := []
  ctx := .zero
  stackBase := 0
  addressSpace := ⟨0, 0⟩
  capTable := fun _ => 0
  numCaps := 0
  wakeupReason := 0

structure Percpu where
  currentTaskId : Int
  idleCtx : TaskContext
  deadCtx : TaskContext

def Percpu.running (taskId : Int) : Percpu := ⟨taskId, .zero, .zero⟩

structure Smp where
  tasks : Nat → Task
  percpu : Nat → Percpu

def Smp.states (smp : Smp) (task : Nat) : TaskState := (smp.tasks task).state

def Smp.current (smp : Smp) (cpu : Nat) : Int := (smp.percpu cpu).currentTaskId

def Smp.setState (smp : Smp) (task : Nat) (state : TaskState) : Smp :=
  { smp with tasks := Function.update smp.tasks task { smp.tasks task with state := state } }

def Smp.setCurrent (smp : Smp) (cpu : Nat) (taskId : Int) : Smp :=
  { smp with
    percpu := Function.update smp.percpu cpu { smp.percpu cpu with currentTaskId := taskId } }

inductive ContextRef where
  | task (id : Nat)
  | idle (cpu : Nat)
  | dead (cpu : Nat)
  deriving DecidableEq

def Smp.load (smp : Smp) : ContextRef → TaskContext
  | .task id => (smp.tasks id).ctx
  | .idle cpu => (smp.percpu cpu).idleCtx
  | .dead cpu => (smp.percpu cpu).deadCtx

def Smp.save (smp : Smp) (context : TaskContext) : ContextRef → Smp
  | .task id =>
      { smp with tasks := Function.update smp.tasks id { smp.tasks id with ctx := context } }
  | .idle cpu =>
      { smp with
        percpu := Function.update smp.percpu cpu { smp.percpu cpu with idleCtx := context } }
  | .dead cpu =>
      { smp with
        percpu := Function.update smp.percpu cpu { smp.percpu cpu with deadCtx := context } }

/-- What `schedule()` does once it has released the lock. -/
inductive SwitchPlan where
  | stay
  | switch (old new : ContextRef) (ttbr0 : Word)
  deriving DecidableEq

def scanStart (current : Int) : Nat := if 0 ≤ current then current.toNat else 0

def scanSlot (start offset : Nat) : Nat := (start + offset) % maxTasks

def findReady (states : Nat → TaskState) (start : Nat) : Option Nat :=
  ((List.range' 1 maxTasks).map (scanSlot start)).find? fun id => states id = .ready

def taskTtbr0 (addressSpace : AddressSpace) : Word :=
  if addressSpace.pgd = 0 then 0
  else BitVec.ofNat 64 addressSpace.pgd ||| (BitVec.ofNat 64 addressSpace.asid <<< 48)

/-- The table that a TTBR0 value selects, bits 47 to 12. -/
def ttbr0Root (ttbr0 : Word) : Nat := outputAddress ttbr0

/-- Bits 63 to 48. -/
def ttbr0Asid (ttbr0 : Word) : Nat := (ttbr0 >>> 48).toNat

def Smp.oldContext (smp : Smp) (cpu : Nat) : Smp × ContextRef :=
  if 0 ≤ smp.current cpu then
    match taskGet smp.states (smp.current cpu) with
    | some task =>
        (if smp.states task = .running then smp.setState task .ready else smp, .task task)
    | none => (smp, .dead cpu)
  else (smp, .idle cpu)

/-- The critical section of `schedule()`. -/
def Smp.schedule (smp : Smp) (cpu : Nat) : Smp × SwitchPlan :=
  let current := smp.current cpu
  let next := findReady smp.states (scanStart current)
  let (smp, old) := smp.oldContext cpu
  match next with
  | none =>
      if 0 ≤ current then (smp.setCurrent cpu (-1), .switch old (.idle cpu) 0)
      else (smp, .stay)
  | some next =>
      if (next : Int) = current then (smp.setState next .running, .stay)
      else
        ((smp.setState next .running).setCurrent cpu next,
          .switch old (.task next) (taskTtbr0 (smp.tasks next).addressSpace))

end DragoonKernel
