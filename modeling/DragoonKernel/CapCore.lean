import DragoonKernel.TaskRunCore

/-! Executable model of `kernel/cap.c` and of the capability tables of tasks. -/

namespace DragoonKernel

def capPoolSize : Nat := 256

def capNone : BitVec 32 := 0
def capMemory : BitVec 32 := 1
def capIo : BitVec 32 := 4

/-- `contents` are the two words of the union. -/
structure Capability where
  type : BitVec 32
  refcount : BitVec 32
  contents : Word × Word
  deriving DecidableEq

structure Caps where
  pool : Nat → Capability
  used : Nat → Bool

def capInit (caps : Caps) : Caps where
  pool := fun index =>
    if index < capPoolSize then { caps.pool index with type := capNone, refcount := 0 }
    else caps.pool index
  used := fun index => if index < capPoolSize then false else caps.used index

def capAlloc (caps : Caps) (capOut : Capability) : Caps × Int :=
  match (List.range capPoolSize).find? fun index => !caps.used index with
  | some index =>
      ({ pool := Function.update caps.pool index { capOut with refcount := 1 }
         used := Function.update caps.used index true }, index)
  | none => (caps, -1)

def capDestroy (caps : Caps) (capId : Int) : Caps × Int :=
  if capId < 0 ∨ (capPoolSize : Int) ≤ capId then (caps, -1)
  else
    let index := capId.toNat
    if caps.used index then
      let cap := { caps.pool index with refcount := (caps.pool index).refcount - 1 }
      if cap.refcount = 0 then
        ({ pool := Function.update caps.pool index { cap with type := capNone }
           used := Function.update caps.used index false }, 0)
      else ({ caps with pool := Function.update caps.pool index cap }, 0)
    else (caps, -1)

def capLookup (caps : Caps) (capId : Int) : Option Capability :=
  if capId < 0 ∨ (capPoolSize : Int) ≤ capId then none
  else if caps.used capId.toNat then some (caps.pool capId.toNat)
  else none

def capCheck (caps : Caps) (capId : Int) (expectedType : BitVec 32) : Int :=
  match capLookup caps capId with
  | none => -1
  | some cap => if cap.type = expectedType then 0 else -1

def TaskSystem.taskAddCap (system : TaskSystem) (taskId capId : Int) : TaskSystem × Int :=
  match taskGet system.states taskId with
  | none => (system, -1)
  | some id =>
      let task := system.machine.smp.tasks id
      if maxCapsPerTask ≤ task.numCaps then (system, -1)
      else
        let task := { task with
          capTable := Function.update task.capTable task.numCaps capId
          numCaps := task.numCaps + 1 }
        (system.withSmp (system.machine.smp.setTask id task), 0)

end DragoonKernel
