import DragoonKernel.ContextSwitchCore

/-!
Executable model of `task_create`, `task_destroy`, `task_exit_handler` and the exit
system call over the CPUs, the task table and the page allocator.
-/

namespace DragoonKernel

def taskStackSize : Nat := 16384

def Smp.setTask (smp : Smp) (id : Nat) (task : Task) : Smp :=
  { smp with tasks := Function.update smp.tasks id task }

/-- The static variables of `task.c` and the CPUs, with the memory that tasks come from. -/
structure TaskSystem where
  machine : Machine
  vm : Vm
  numTasks : Int

def TaskSystem.withSmp (system : TaskSystem) (smp : Smp) : TaskSystem :=
  { system with machine := { system.machine with smp := smp } }

def TaskSystem.withMachine (system : TaskSystem) (machine : Machine) : TaskSystem :=
  { system with machine := machine }

def TaskSystem.runsTask (system : TaskSystem) (cpus cpu : Nat) : Prop :=
  cpu < cpus ∧ system.machine.phases cpu = .running ∧ 0 ≤ system.machine.smp.current cpu

instance (system : TaskSystem) (cpus cpu : Nat) : Decidable (system.runsTask cpus cpu) :=
  inferInstanceAs (Decidable (_ ∧ _ ∧ _))

def TaskSystem.states (system : TaskSystem) : Nat → TaskState := system.machine.smp.states

def TaskSystem.taskCount (system : TaskSystem) : Int := system.numTasks

/-- The body of `task_exit_handler` before its call of `schedule()`. -/
def TaskSystem.taskExitHandler (system : TaskSystem) (cpu : Nat) : TaskSystem :=
  let id := (system.machine.smp.current cpu).toNat
  { system.withSmp (system.machine.smp.setState id .dead) with numTasks := system.numTasks - 1 }

/-- `SYS_EXIT` before its call of `schedule()`. -/
def TaskSystem.sysExit (system : TaskSystem) (cpu : Nat) : TaskSystem :=
  match taskGet system.states (system.machine.smp.current cpu) with
  | some task => system.withSmp (system.machine.smp.setState task .dead)
  | none => system

def freeSlot (states : Nat → TaskState) : Option Nat :=
  (List.range maxTasks).find? fun id => states id = .dead

def copyName (name : List UInt8) : List UInt8 := (name.take 31).takeWhile (· ≠ 0)

/-- Top of the stack, 16-byte aligned. -/
def stackTop (stack : Nat) : Word := BitVec.ofNat 64 (stack + taskStackSize) &&& ~~~0xF

/-- `context_switch` returns to the trampoline, which calls the entry in `x19`. -/
def initialContext (taskTrampoline entry : Word) (stack : Nat) : TaskContext :=
  { TaskContext.zero with sp := stackTop stack, x30 := taskTrampoline, x19 := entry }

def clearCaps (capTable : Nat → Int) : Nat → Int := fun cap =>
  if cap < maxCapsPerTask then -1 else capTable cap

/-- The part of `task_create` after a slot has been found. -/
def TaskSystem.createIn (pgdTable : Nat) (taskTrampoline : Word) (system : TaskSystem)
    (id : Nat) (name : List UInt8) (entry : Word) : TaskSystem × Int :=
  let task := { system.machine.smp.tasks id with name := copyName name }
  match vmCreate pgdTable system.vm task.addressSpace with
  | (vm, space, status) =>
      let task := { task with addressSpace := space }
      if status < 0 then
        let smp := system.machine.smp.setTask id { task with state := .dead }
        ({ system.withSmp smp with vm := vm }, -1)
      else match vm.mm.pagesAlloc (taskStackSize / pageSize) with
        | (mm, none) =>
            let (vm, space) := vmDestroy { vm with mm := mm } space
            let task := { task with addressSpace := space, state := .dead }
            ({ system.withSmp (system.machine.smp.setTask id task) with vm := vm }, -1)
        | (mm, some stack) =>
            let task := { task with
              stackBase := stack
              ctx := initialContext taskTrampoline entry stack
              capTable := clearCaps task.capTable
              numCaps := 0
              state := .ready }
            ({ system.withSmp (system.machine.smp.setTask id task) with
                vm := { vm with mm := mm }
                numTasks := system.numTasks + 1 }, id)

def TaskSystem.taskCreate (pgdTable : Nat) (taskTrampoline : Word) (system : TaskSystem)
    (name : List UInt8) (entry : Word) : TaskSystem × Int :=
  match freeSlot system.states with
  | none => (system, -1)
  | some id => system.createIn pgdTable taskTrampoline id name entry

def TaskSystem.taskDestroy (system : TaskSystem) (taskId : Int) : TaskSystem :=
  match taskGet system.states taskId with
  | none => system
  | some id =>
      let task := system.machine.smp.tasks id
      let mm := system.vm.mm.pagesFree task.stackBase (taskStackSize / pageSize)
      match vmDestroy { system.vm with mm := mm } task.addressSpace with
      | (vm, space) =>
          let task := { task with addressSpace := space, state := .dead }
          { system.withSmp (system.machine.smp.setTask id task) with
            vm := vm
            numTasks := system.numTasks - 1 }

end DragoonKernel
