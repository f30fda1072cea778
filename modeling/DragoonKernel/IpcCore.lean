import DragoonKernel.PageAllocatorCore
import DragoonKernel.TaskCore

/-!
Executable model of `kernel/ipc.c`. A call that reaches `schedule()` is split there:
its first part ends in `scheduling`, and its tail runs when the task is resumed.
-/

namespace DragoonKernel

def maxEndpoints : Nat := 32

structure IpcMessage where
  data : Vector Word 4
  capTransfer : Int
  deriving DecidableEq

structure IpcEndpoint where
  active : Bool
  senderTask : Int
  receiverTask : Int
  pendingMsg : IpcMessage
  hasPending : Bool
  deriving DecidableEq

structure Ipc where
  endpoints : Nat → IpcEndpoint
  states : Nat → TaskState

inductive IpcProgress where
  | returned (status : Int)
  | scheduling
  deriving DecidableEq

def IpcEndpoint.reset (endpoint : IpcEndpoint) (active : Bool) : IpcEndpoint :=
  { endpoint with active := active, senderTask := -1, receiverTask := -1, hasPending := false }

def ipcInit (ipc : Ipc) : Ipc :=
  { ipc with endpoints := fun index =>
      if index < maxEndpoints then (ipc.endpoints index).reset false else ipc.endpoints index }

def ipcEndpointCreate (ipc : Ipc) : Ipc × Int :=
  match (List.range maxEndpoints).find? fun index => !(ipc.endpoints index).active with
  | some index =>
      let created := (ipc.endpoints index).reset true
      ({ ipc with endpoints := Function.update ipc.endpoints index created }, index)
  | none => (ipc, -1)

def ipcEndpointDestroy (ipc : Ipc) (epId : Int) : Ipc :=
  if epId < 0 ∨ (maxEndpoints : Int) ≤ epId then ipc
  else
    let destroyed := { ipc.endpoints epId.toNat with active := false }
    { ipc with endpoints := Function.update ipc.endpoints epId.toNat destroyed }

def Ipc.activeEndpoint (ipc : Ipc) (epId : Int) : Option Nat :=
  if epId < 0 ∨ (maxEndpoints : Int) ≤ epId then none
  else if (ipc.endpoints epId.toNat).active then some epId.toNat
  else none

def ipcSend (ipc : Ipc) (current : Nat) (epId : Int) (msg : IpcMessage) : Ipc × IpcProgress :=
  match ipc.activeEndpoint epId with
  | none => (ipc, .returned (-1))
  | some ep =>
    let endpoint := ipc.endpoints ep
    -- `task_get` refuses a negative `receiver_task` as well
    match taskGet ipc.states endpoint.receiverTask with
    | some receiver =>
        ({ endpoints := Function.update ipc.endpoints ep
            { endpoint with pendingMsg := msg, hasPending := true, receiverTask := -1 }
           states := Function.update ipc.states receiver .ready }, .returned 0)
    | none =>
        ({ endpoints := Function.update ipc.endpoints ep
            { endpoint with pendingMsg := msg, hasPending := true, senderTask := current }
           states := setState ipc.states current .blocked }, .scheduling)

/-- Also returns what was stored through `msg`. -/
def ipcRecv (ipc : Ipc) (current : Nat) (epId : Int) : Ipc × Option IpcMessage × IpcProgress :=
  match ipc.activeEndpoint epId with
  | none => (ipc, none, .returned (-1))
  | some ep =>
    let endpoint := ipc.endpoints ep
    if endpoint.hasPending then
      ({ endpoints := Function.update ipc.endpoints ep
          { endpoint with
            hasPending := false
            senderTask := if 0 ≤ endpoint.senderTask then -1 else endpoint.senderTask }
         states := setState ipc.states endpoint.senderTask .ready },
        some endpoint.pendingMsg, .returned 0)
    else
      ({ endpoints := Function.update ipc.endpoints ep { endpoint with receiverTask := current }
         states := setState ipc.states current .blocked }, none, .scheduling)

/-- The part of `ipc_recv` after `schedule()`. -/
def ipcRecvTail (ipc : Ipc) (ep : Nat) : Ipc × Option IpcMessage × Int :=
  let endpoint := ipc.endpoints ep
  if endpoint.hasPending then
    ({ ipc with endpoints := Function.update ipc.endpoints ep { endpoint with hasPending := false } },
      some endpoint.pendingMsg, 0)
  else (ipc, none, -1)

/-- Where a task is between two atomic parts of its calls. -/
inductive IpcControl where
  | outside
  | sending (ep call : Nat)
  | receiving (ep : Nat)
  deriving DecidableEq

/-- The history of one endpoint. Deposits are numbered in their order; `pending_msg`
always holds the last one, so that is the one a receipt takes. -/
structure IpcLedger where
  deposits : List (Nat × IpcMessage)
  receipts : List (Nat × IpcMessage)
  returned : List Nat
  deriving DecidableEq

def IpcLedger.deposit (ledger : IpcLedger) (msg : IpcMessage) : IpcLedger :=
  { ledger with deposits := ledger.deposits ++ [(ledger.deposits.length, msg)] }

def IpcLedger.receive (ledger : IpcLedger) (msg : IpcMessage) : IpcLedger :=
  { ledger with receipts := ledger.receipts ++ [(ledger.deposits.length - 1, msg)] }

def IpcLedger.complete (ledger : IpcLedger) (call : Nat) : IpcLedger :=
  { ledger with returned := ledger.returned ++ [call] }

structure IpcSystem where
  ipc : Ipc
  controls : Nat → IpcControl
  ledgers : Nat → IpcLedger

inductive IpcCall where
  | send (epId : Int) (msg : IpcMessage)
  | recv (epId : Int)
  | resume

inductive IpcAction where
  | call (task : Nat) (call : IpcCall)
  | create (task : Nat)
  | destroy (task : Nat) (epId : Int)

def IpcSystem.dispatch (system : IpcSystem) (task : Nat) : Option IpcSystem :=
  if task < maxTasks ∧
      (system.ipc.states task = .ready ∨ system.ipc.states task = .running) then
    let states := fun other =>
      if other = task then .running
      else if system.ipc.states other = .running then .ready
      else system.ipc.states other
    some { system with ipc := { system.ipc with states := states } }
  else none

/-- One atomic part of a call of the current task, with its entry in the ledger. -/
def IpcSystem.perform (system : IpcSystem) (task : Nat) : IpcCall → Option IpcSystem
  | .send epId msg =>
      if system.controls task = .outside then
        let ep := epId.toNat
        let ledger := system.ledgers ep
        match ipcSend system.ipc task epId msg with
        | (ipc, .returned status) =>
            let delivered := (ledger.deposit msg).complete ledger.deposits.length
            some { system with
              ipc := ipc
              ledgers :=
                if status = 0 then Function.update system.ledgers ep delivered
                else system.ledgers }
        | (ipc, .scheduling) =>
            some {
              ipc := ipc
              controls := Function.update system.controls task
                (.sending ep ledger.deposits.length)
              ledgers := Function.update system.ledgers ep (ledger.deposit msg) }
      else none
  | .recv epId =>
      if system.controls task = .outside then
        let ep := epId.toNat
        match ipcRecv system.ipc task epId with
        | (ipc, some msg, _) =>
            some { system with
              ipc := ipc
              ledgers := Function.update system.ledgers ep ((system.ledgers ep).receive msg) }
        | (ipc, none, .returned _) => some { system with ipc := ipc }
        | (ipc, none, .scheduling) =>
            some { system with
              ipc := ipc
              controls := Function.update system.controls task (.receiving ep) }
      else none
  | .resume =>
      let controls := Function.update system.controls task .outside
      match system.controls task with
      | .outside => none
      | .sending ep call =>
          some { system with
            controls := controls
            ledgers := Function.update system.ledgers ep ((system.ledgers ep).complete call) }
      | .receiving ep =>
          match ipcRecvTail system.ipc ep with
          | (ipc, some msg, _) =>
              some {
                ipc := ipc
                controls := controls
                ledgers := Function.update system.ledgers ep ((system.ledgers ep).receive msg) }
          | (ipc, none, _) => some { system with ipc := ipc, controls := controls }

def IpcSystem.callStep (system : IpcSystem) (action : Nat × IpcCall) : Option IpcSystem :=
  (system.dispatch action.1).bind fun current => current.perform action.1 action.2

def IpcSystem.step (system : IpcSystem) : IpcAction → Option IpcSystem
  | .call task call => system.callStep (task, call)
  | .create task =>
      if system.controls task = .outside then
        (system.dispatch task).map fun current =>
          { current with ipc := (ipcEndpointCreate current.ipc).1 }
      else none
  | .destroy task epId =>
      if system.controls task = .outside then
        (system.dispatch task).map fun current =>
          { current with ipc := ipcEndpointDestroy current.ipc epId }
      else none

end DragoonKernel
