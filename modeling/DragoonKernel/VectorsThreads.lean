import DragoonKernel.TaskLifeCore
import DragoonKernel.VectorsFrames

/-!
The vectors, `context_switch` and the C code of one CPU over the stacks of all tasks, as steps in
any order. The C code keeps to the procedure call standard and within its stack.
-/

namespace DragoonKernel

inductive EntryKind where
  | irq
  | svc

/-- An exception that has not returned. -/
structure ExceptionFrame where
  kind : EntryKind
  state : Interrupted

def ExceptionFrame.base (frame : ExceptionFrame) : Word := frame.state.sp - 272

/-- A task or the idle loop on its stack. `frames` come with the innermost first, and `switched` is
the context of its call of `context_switch` while it does not run. -/
structure Thread where
  bottom : Nat
  top : Nat
  frames : List ExceptionFrame
  switched : Option TaskContext

def idleSlot : Nat := maxTasks

def deadSlot : Nat := maxTasks + 1

/-- Two ranges of addresses without a common one. -/
def Apart (first : Nat) (firstEnd : Nat) (second : Nat) (secondEnd : Nat) : Prop :=
  firstEnd ≤ second ∨ secondEnd ≤ first

instance instDecidableApart (first firstEnd second secondEnd : Nat) :
    Decidable (Apart first firstEnd second secondEnd) := inferInstanceAs (Decidable (_ ∨ _))

theorem Apart.symm {first firstEnd second secondEnd : Nat}
    (apart : Apart first firstEnd second secondEnd) : Apart second secondEnd first firstEnd :=
  Or.symm apart

/-- Where the linker places the contexts, those of the tasks before `idle_ctx` and `dead_ctx`, and
the boot stack. -/
structure Layout where
  symbols : Symbols
  ctx : Nat → Word
  bootBottom : Nat
  bootTop : Nat
  fits : ∀ slot ≤ deadSlot, (ctx slot).toNat + contextSize ≤ 2 ^ 64
  distinct : ∀ first ≤ deadSlot, ∀ second ≤ deadSlot, first ≠ second →
    Apart (ctx first).toNat ((ctx first).toNat + contextSize)
      (ctx second).toNat ((ctx second).toNat + contextSize)
  boot : bootBottom ≤ bootTop ∧ bootTop < 2 ^ 64
  bootApart : ∀ slot ≤ deadSlot,
    Apart bootBottom bootTop (ctx slot).toNat ((ctx slot).toNat + contextSize)

structure Execution where
  hart : Hart
  threads : Nat → Option Thread
  current : Nat
  dying : Bool
  halted : Bool

/-- Where the stack of the running code ends. -/
def Thread.limit (thread : Thread) : Nat :=
  match thread.frames with
  | [] => thread.top
  | frame :: _ => frame.base.toNat

def Thread.Inside (thread : Thread) (sp : Word) : Prop :=
  thread.bottom ≤ sp.toNat ∧ sp.toNat ≤ thread.limit ∧ sp.toNat % 16 = 0

instance instDecidableInside (thread : Thread) (sp : Word) : Decidable (thread.Inside sp) :=
  inferInstanceAs (Decidable (_ ∧ _ ∧ _))

def Thread.protects (thread : Thread) (ctx place : Word) : Bool :=
  thread.frames.any (fun frame => Within frame.base frameSize place) ||
    thread.switched.isSome && decide (Within ctx contextSize place)

/-- The frames and the saved contexts, which no object of the C code overlaps. -/
def Execution.protects (layout : Layout) (exec : Execution) (place : Word) : Bool :=
  (List.range (idleSlot + 1)).any fun slot =>
    (exec.threads slot).any fun thread => thread.protects (layout.ctx slot) place

inductive VectorAction where
  /-- C code, which may change all registers, and the memory but for what is protected. -/
  | compute (next : Hart) (writes : List (Word × Word))
  | irq
  | sync (esr : Word)
  | invalid
  /-- The function that the handler has called returns. -/
  | leave
  | contextSwitch (next : Nat) (ttbr0 link : Word)
  | create (slot stack : Nat) (entry : Word)
  | exit
  | destroy (slot : Nat)

def Symbols.link (symbols : Symbols) : EntryKind → Word
  | .irq => symbols.afterIrqHandle
  | .svc => symbols.afterSyscallHandler

def Hart.afterHandler (hart : Hart) : EntryKind → Hart
  | .irq => hart.afterIrq
  | .svc => hart.afterSyscall

def Execution.enter (exec : Execution) (thread : Thread) (kind : EntryKind) (returnAddress : Word)
    (entered : Hart) : Execution :=
  let frame : ExceptionFrame := ⟨kind, exec.hart.interrupted returnAddress⟩
  { exec with
    hart := entered
    threads := Function.update exec.threads exec.current
      (some { thread with frames := frame :: thread.frames }) }

/-- The call `context_switch(old, new, ttbr0)`. -/
def Hart.callSwitch (hart : Hart) (old new ttbr0 link : Word) : Hart :=
  (((hart.setX 0 old).setX 1 new).setX 2 ttbr0).setX 30 link

def Execution.oldSlot (exec : Execution) : Nat := if exec.dying then deadSlot else exec.current

def Execution.leaveThread (exec : Execution) (thread : Thread) (context : TaskContext) :
    Option Thread :=
  if exec.dying then none else some { thread with switched := some context }

/-- The pages of a stack, taken from memory that nothing else lives in. -/
def Execution.StackFree (layout : Layout) (exec : Execution) (stack : Nat) : Prop :=
  stack % pageSize = 0 ∧ stack + taskStackSize < 2 ^ 64 ∧
    (∀ slot < deadSlot + 1, Apart stack (stack + taskStackSize)
      (layout.ctx slot).toNat ((layout.ctx slot).toNat + contextSize)) ∧
    (List.range (idleSlot + 1)).all fun slot => (exec.threads slot).all fun thread =>
      Apart stack (stack + taskStackSize) thread.bottom thread.top

instance instDecidableStackFree (layout : Layout) (exec : Execution) (stack : Nat) :
    Decidable (exec.StackFree layout stack) := inferInstanceAs (Decidable (_ ∧ _ ∧ _ ∧ _))

def Execution.step (layout : Layout) (exec : Execution) (action : VectorAction) :
    Option Execution :=
  if exec.halted then none
  else (exec.threads exec.current).bind fun thread =>
    match action with
    | .compute next writes =>
        if thread.Inside next.sp ∧ writes.all fun write =>
            write.1.toNat % 8 = 0 && !exec.protects layout write.1 then
          some { exec with hart := { next with memory := writeAll exec.hart.memory writes } }
        else none
    | .irq =>
        if exec.hart.pstate.getLsbD irqBit = false ∧
            thread.bottom + frameSize ≤ exec.hart.sp.toNat then
          some (exec.enter thread .irq exec.hart.pc
            ((exec.hart.takeException exec.hart.pc).handlerIrq layout.symbols))
        else none
    | .sync esr =>
        -- the address of an `SVC` is that of the instruction after it
        let returnAddress := if esr >>> 26 = ecSvc then exec.hart.pc + 4 else exec.hart.pc
        let hart := { exec.hart with sys := Function.update exec.hart.sys .esr esr }
        if thread.bottom + frameSize ≤ exec.hart.sp.toNat then
          match (hart.takeException returnAddress).handlerSync layout.symbols with
          | (entered, true) => some (exec.enter thread .svc returnAddress entered)
          | (entered, false) => some { exec with hart := entered, halted := true }
        else none
    | .invalid =>
        some { exec with
          hart := (exec.hart.takeException exec.hart.pc).handlerInvalid layout.symbols
          halted := true }
    | .leave =>
        match thread.frames with
        | [] => none
        | frame :: rest =>
            if exec.hart.sp = frame.base ∧ exec.hart.pc = layout.symbols.link frame.kind then
              some { exec with
                hart := exec.hart.afterHandler frame.kind
                threads := Function.update exec.threads exec.current
                  (some { thread with frames := rest }) }
            else none
    | .contextSwitch next ttbr0 link =>
        (exec.threads next).bind fun target =>
          if target.switched.isSome then
            let hart := exec.hart.callSwitch (layout.ctx exec.oldSlot) (layout.ctx next) ttbr0 link
            some { exec with
              hart := hart.contextSwitch
              threads := Function.update
                (Function.update exec.threads exec.current (exec.leaveThread thread hart.context))
                next (some { target with switched := none })
              current := next
              dying := false }
          else none
    | .create slot stack entry =>
        if slot < maxTasks ∧ exec.threads slot = none ∧ exec.StackFree layout stack then
          let context := initialContext layout.symbols.taskTrampoline entry stack
          some { exec with
            hart := { exec.hart with
              memory := writeAll exec.hart.memory (placed (layout.ctx slot) context.contents) }
            threads := Function.update exec.threads slot
              (some ⟨stack, stack + taskStackSize, [], some context⟩) }
        else none
    | .exit => if exec.current < maxTasks then some { exec with dying := true } else none
    | .destroy slot =>
        if slot < maxTasks ∧ slot ≠ exec.current then
          some { exec with threads := Function.update exec.threads slot none }
        else none

/-- The idle loop on the boot stack. -/
def Execution.boot (layout : Layout) (hart : Hart) : Execution where
  hart := { hart with sp := BitVec.ofNat 64 layout.bootTop }
  threads := fun slot =>
    if slot = idleSlot then some ⟨layout.bootBottom, layout.bootTop, [], none⟩ else none
  current := idleSlot
  dying := false
  halted := false

end DragoonKernel
