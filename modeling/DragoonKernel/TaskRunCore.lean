import DragoonKernel.TaskLifeCore

/-! Runs of the functions that create, end, schedule and map tasks on several CPUs. -/

namespace DragoonKernel

inductive TaskAction where
  | create (name : List UInt8) (entry : Word)
  | destroy (taskId : Int)
  | taskExitHandler (cpu : Nat)
  | sysExit (cpu : Nat)
  | schedule (cpu : Nat)
  | contextSwitch (cpu : Nat)
  | block (cpu : Nat)
  | wake (taskId : Int)
  | map (taskId : Int) (vaddr paddr : Nat) (flags : Word)
  deriving DecidableEq

/-- After `mm_create_page_tables`, `mm_enable_mmu` and `task_init`. -/
def TaskSystem.boot {image : KernelImage} (tables : KernelTables image) (mm : Mm) : TaskSystem where
  machine := {
    smp := { tasks := fun _ => .zero, percpu := fun _ => .running (-1) }
    regs := fun _ => .zero
    ttbr0 := fun _ => BitVec.ofNat 64 tables.pgdTable
    phases := fun _ => .running
  }
  vm := (VmSystem.boot tables mm).vm
  numTasks := 0

/-- `if (t) t->state = state` for `t = task_get(taskId)`. -/
def Smp.setLive (smp : Smp) (taskId : Int) (state : TaskState) : Smp :=
  match taskGet smp.states taskId with
  | some task => smp.setState task state
  | none => smp

/-- `mm_map_page` in the half of memory that the task does not share with the kernel. -/
def TaskSystem.mapPage (system : TaskSystem) (taskId : Int) (vaddr paddr : Nat) (flags : Word) :
    Option TaskSystem :=
  match taskGet system.states taskId with
  | some task =>
      if vaddr < 2 ^ 48 ∧ tableIndex vaddr 39 ≠ 0 ∧ paddr < 2 ^ 48 ∧
          (flags = pageNormal ∨ flags = pageDevice) then
        let pgd := (system.machine.smp.tasks task).addressSpace.pgd
        some { system with vm :=
          { system.vm with mm := system.vm.mm.mapPage pgd vaddr paddr flags } }
      else none
  | none => none

/-- `block` and `wake` are the state changes of the blocking functions and of those that
wake a task; not all of the latter look at the state the task had. -/
def TaskSystem.step (cpus pgdTable : Nat) (taskTrampoline : Word) (system : TaskSystem) :
    TaskAction → Option TaskSystem
  | .create name entry => some (system.taskCreate pgdTable taskTrampoline name entry).1
  | .destroy taskId => some (system.taskDestroy taskId)
  | .taskExitHandler cpu =>
      if system.runsTask cpus cpu then some (system.taskExitHandler cpu) else none
  | .sysExit cpu => if system.runsTask cpus cpu then some (system.sysExit cpu) else none
  | .schedule cpu =>
      if cpu < cpus ∧ system.machine.phases cpu = .running then
        some (system.withMachine (system.machine.schedule cpu))
      else none
  | .contextSwitch cpu =>
      match system.machine.phases cpu with
      | .running => none
      | .switching old new ttbr0 =>
          if cpu < cpus then
            some (system.withMachine (system.machine.contextSwitch cpu old new ttbr0))
          else none
  | .block cpu =>
      if system.runsTask cpus cpu then
        some (system.withSmp (system.machine.smp.setLive (system.machine.smp.current cpu) .blocked))
      else none
  | .wake taskId => some (system.withSmp (system.machine.smp.setLive taskId .ready))
  | .map taskId vaddr paddr flags => system.mapPage taskId vaddr paddr flags

end DragoonKernel
