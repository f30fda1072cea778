import DragoonKernel.SchedCore

/-!
Executable model of CPUs that run `schedule()` in two steps: the decision under
`sched_lock`, and `context_switch` after the lock has been released.
-/

namespace DragoonKernel

inductive Phase where
  | running
  | switching (old new : ContextRef) (ttbr0 : Word)
  deriving DecidableEq

/-- The kernel's memory with the callee-saved registers and `ttbr0_el1` of each CPU. -/
structure Machine where
  smp : Smp
  regs : Nat → TaskContext
  ttbr0 : Nat → Word
  phases : Nat → Phase

def Machine.schedule (machine : Machine) (cpu : Nat) : Machine :=
  match machine.smp.schedule cpu with
  | (smp, .stay) => { machine with smp := smp }
  | (smp, .switch old new ttbr0) =>
      { machine with
        smp := smp
        phases := Function.update machine.phases cpu (.switching old new ttbr0) }

def Machine.contextSwitch (machine : Machine) (cpu : Nat) (old new : ContextRef)
    (ttbr0 : Word) : Machine :=
  let saved := machine.smp.save (machine.regs cpu) old
  { smp := saved
    regs := Function.update machine.regs cpu (saved.load new)
    ttbr0 := if ttbr0 = 0 then machine.ttbr0 else Function.update machine.ttbr0 cpu ttbr0
    phases := Function.update machine.phases cpu .running }

/-- The context that a CPU's current code is saved in. -/
def Smp.currentContext (smp : Smp) (cpu : Nat) : ContextRef :=
  if 0 ≤ smp.current cpu then .task (smp.current cpu).toNat else .idle cpu

/-- Whose registers a CPU holds: those of the code it leaves until they are saved. -/
def Machine.owner (machine : Machine) (cpu : Nat) : ContextRef :=
  match machine.phases cpu with
  | .running => machine.smp.currentContext cpu
  | .switching old _ _ => old

end DragoonKernel
