import DragoonKernel.CapCore
import DragoonKernel.IpcCore

/-!
Executable model of `kernel/syscall.c`. A call that reaches `schedule()` is split there:
its first part ends in `scheduling`, and its tail runs when the task is resumed.
-/

namespace DragoonKernel

/-- `SYS_YIELD` to `SYS_EXIT` -/
inductive Syscall where
  | yield
  | send
  | recv
  | capCreate
  | capDestroy
  | mapPage
  | debugPrint
  | exit
  deriving DecidableEq

def syscallOf (num : Word) : Option Syscall :=
  match num.toNat with
  | 0 => some .yield
  | 1 => some .send
  | 2 => some .recv
  | 3 => some .capCreate
  | 4 => some .capDestroy
  | 5 => some .mapPage
  | 6 => some .debugPrint
  | 7 => some .exit
  | _ => none

structure Kernel where
  tasks : TaskSystem
  endpoints : Nat → IpcEndpoint
  caps : Caps

def Kernel.ipc (kernel : Kernel) : Ipc := ⟨kernel.endpoints, kernel.tasks.states⟩

/-- The endpoints and task states that a function of `ipc.c` leaves. -/
def Kernel.withIpc (kernel : Kernel) (ipc : Ipc) : Kernel :=
  let smp := kernel.tasks.machine.smp
  { kernel with
    tasks := kernel.tasks.withSmp { smp with
      tasks := fun task => { smp.tasks task with state := ipc.states task } }
    endpoints := ipc.endpoints }

/-- What is left of a call after its `schedule()`. -/
inductive SyscallTail where
  | yield
  | send
  | recv (ep : Nat)
  | exit
  deriving DecidableEq

inductive SyscallProgress where
  | returned (value : Word)
  | scheduling (tail : SyscallTail)
  deriving DecidableEq

/-- `(int)arg` -/
def intArg (arg : Word) : Int := (arg.setWidth 32).toInt

/-- `(u64)result` -/
def wordResult (result : Int) : Word := BitVec.ofInt 64 result

/-- The call of the task that runs on the CPU. -/
def syscallHandler (kernel : Kernel) (cpu : Nat) (num a0 a1 a2 a3 : Word) :
    Kernel × SyscallProgress :=
  let current := kernel.tasks.machine.smp.current cpu
  match syscallOf num with
  | some .yield => (kernel, .scheduling .yield)
  | some .send =>
      let msg := ⟨#v[a1, a2, a3, 0], -1⟩
      match ipcSend kernel.ipc current.toNat (intArg a0) msg with
      | (ipc, .returned status) => (kernel.withIpc ipc, .returned (wordResult status))
      | (ipc, .scheduling) => (kernel.withIpc ipc, .scheduling .send)
  | some .recv =>
      match ipcRecv kernel.ipc current.toNat (intArg a0) with
      | (ipc, some msg, _) => (kernel.withIpc ipc, .returned (msg.data.get 0))
      | (ipc, none, .returned _) => (kernel.withIpc ipc, .returned (-1))
      | (ipc, none, .scheduling) => (kernel.withIpc ipc, .scheduling (.recv (intArg a0).toNat))
  | some .capCreate =>
      let type := a0.setWidth 32
      if type = capMemory ∨ type = capIo then
        let (caps, capId) := capAlloc kernel.caps ⟨type, 0, a1, a2⟩
        ({ kernel with caps := caps }, .returned (wordResult capId))
      else (kernel, .returned (-1))
  | some .capDestroy =>
      let (caps, result) := capDestroy kernel.caps (intArg a0)
      ({ kernel with caps := caps }, .returned (wordResult result))
  | some .mapPage =>
      let vm := kernel.tasks.vm
      let (mm, page) := vm.mm.pageAlloc
      ({ kernel with tasks := { kernel.tasks with vm := { vm with mm := mm } } },
        .returned (BitVec.ofNat 64 (page.getD 0)))
  | some .debugPrint => (kernel, .returned 0)
  | some .exit =>
      match taskGet kernel.tasks.states current with
      | some _ => ({ kernel with tasks := kernel.tasks.sysExit cpu }, .scheduling .exit)
      | none => (kernel, .returned 0)
  | none => (kernel, .returned (-1))

def syscallResume (kernel : Kernel) : SyscallTail → Kernel × Word
  | .recv ep =>
      match ipcRecvTail kernel.ipc ep with
      | (ipc, some msg, _) => (kernel.withIpc ipc, msg.data.get 0)
      | (ipc, none, _) => (kernel.withIpc ipc, -1)
  | .yield | .send | .exit => (kernel, 0)

/-- Where the calling task is. -/
inductive SyscallControl where
  | outside
  | scheduling (tail : SyscallTail)
  | waiting (tail : SyscallTail)
  deriving DecidableEq

structure SyscallSystem where
  kernel : Kernel
  control : SyscallControl

/-- The calls of one task, and the scheduling between them. -/
inductive SyscallAction where
  | call (cpu : Nat) (num a0 a1 a2 a3 : Word)
  | resume (cpu : Nat)
  | schedule (cpu : Nat)
  | contextSwitch (cpu : Nat)
  | block (cpu : Nat)
  | wake (taskId : Int)
  deriving DecidableEq

def SyscallSystem.task (cpus pgdTable : Nat) (taskTrampoline : Word) (system : SyscallSystem)
    (action : TaskAction) (control : SyscallControl) : Option SyscallSystem :=
  (system.kernel.tasks.step cpus pgdTable taskTrampoline action).map fun tasks =>
    { kernel := { system.kernel with tasks := tasks }, control := control }

def SyscallSystem.step (cpus pgdTable : Nat) (taskTrampoline : Word) (caller : Nat)
    (system : SyscallSystem) : SyscallAction → Option SyscallSystem
  | .call cpu num a0 a1 a2 a3 =>
      if system.control = .outside ∧ system.kernel.tasks.runsTask cpus cpu ∧
          system.kernel.tasks.machine.smp.current cpu = caller then
        match syscallHandler system.kernel cpu num a0 a1 a2 a3 with
        | (kernel, .returned _) => some ⟨kernel, .outside⟩
        | (kernel, .scheduling tail) => some ⟨kernel, .scheduling tail⟩
      else none
  | .resume cpu =>
      if system.kernel.tasks.runsTask cpus cpu ∧
          system.kernel.tasks.machine.smp.current cpu = caller then
        match system.control with
        | .waiting tail => some ⟨(syscallResume system.kernel tail).1, .outside⟩
        | _ => none
      else none
  | .schedule cpu =>
      system.task cpus pgdTable taskTrampoline (.schedule cpu) <|
        match system.control with
        | .scheduling tail =>
            if system.kernel.tasks.machine.smp.current cpu = caller then .waiting tail
            else .scheduling tail
        | control => control
  | .contextSwitch cpu =>
      system.task cpus pgdTable taskTrampoline (.contextSwitch cpu) system.control
  | .block cpu => system.task cpus pgdTable taskTrampoline (.block cpu) system.control
  | .wake taskId => system.task cpus pgdTable taskTrampoline (.wake taskId) system.control

end DragoonKernel
