import DragoonKernel.Library.Writes
import DragoonKernel.SchedCore

/-!
Model of `kernel/vectors.S`, instruction by instruction, on one CPU. Every address that these
routines use is one of a doubleword.
-/

namespace DragoonKernel

abbrev Reg := Fin 31

instance instNeZeroRegs : NeZero 31 := ⟨by decide⟩

inductive SysReg where
  | elr
  | spsr
  | esr
  | far
  | ttbr0
  deriving DecidableEq

inductive Base where
  | sp
  | x (reg : Reg)

inductive Instr where
  | subSp (bytes : Word)
  | addSp (bytes : Word)
  | str (reg : Reg) (base : Base) (offset : Word)
  | stp (first second : Reg) (base : Base) (offset : Word)
  | ldr (reg : Reg) (base : Base) (offset : Word)
  | ldp (first second : Reg) (base : Base) (offset : Word)
  | mrs (reg : Reg) (sys : SysReg)
  | msr (sys : SysReg) (reg : Reg)
  | movFromSp (reg : Reg)
  | movToSp (reg : Reg)
  | lsr (reg source : Reg) (bits : Nat)

/-- The CPU's registers with the memory. -/
structure Hart where
  x : Reg → Word
  sp : Word
  pc : Word
  pstate : Word
  sys : SysReg → Word
  memory : Word → Word

def Hart.setX (hart : Hart) (reg : Reg) (value : Word) : Hart :=
  { hart with x := Function.update hart.x reg value }

def Hart.address (hart : Hart) : Base → Word → Word
  | .sp, offset => hart.sp + offset
  | .x reg, offset => hart.x reg + offset

def Hart.store (hart : Hart) (place value : Word) : Hart :=
  { hart with memory := Function.update hart.memory place value }

def Hart.exec (hart : Hart) : Instr → Hart
  | .subSp bytes => { hart with sp := hart.sp - bytes }
  | .addSp bytes => { hart with sp := hart.sp + bytes }
  | .str reg base offset => hart.store (hart.address base offset) (hart.x reg)
  | .stp first second base offset =>
      (hart.store (hart.address base offset) (hart.x first)).store
        (hart.address base (offset + 8)) (hart.x second)
  | .ldr reg base offset => hart.setX reg (hart.memory (hart.address base offset))
  | .ldp first second base offset =>
      (hart.setX first (hart.memory (hart.address base offset))).setX second
        (hart.memory (hart.address base (offset + 8)))
  | .mrs reg sys => hart.setX reg (hart.sys sys)
  | .msr sys reg => { hart with sys := Function.update hart.sys sys (hart.x reg) }
  | .movFromSp reg => hart.setX reg hart.sp
  | .movToSp reg => { hart with sp := hart.x reg }
  | .lsr reg source bits => hart.setX reg (hart.x source >>> bits)

def Hart.execAll (hart : Hart) (code : List Instr) : Hart := code.foldl Hart.exec hart

def saveRegs : List Instr := [
  .subSp 272,
  .stp 0 1 .sp 0,
  .stp 2 3 .sp 16,
  .stp 4 5 .sp 32,
  .stp 6 7 .sp 48,
  .stp 8 9 .sp 64,
  .stp 10 11 .sp 80,
  .stp 12 13 .sp 96,
  .stp 14 15 .sp 112,
  .stp 16 17 .sp 128,
  .stp 18 19 .sp 144,
  .stp 20 21 .sp 160,
  .stp 22 23 .sp 176,
  .stp 24 25 .sp 192,
  .stp 26 27 .sp 208,
  .stp 28 29 .sp 224,
  .str 30 .sp 240,
  .mrs 0 .elr,
  .mrs 1 .spsr,
  .stp 0 1 .sp 248]

def restoreRegs : List Instr := [
  .ldp 0 1 .sp 248,
  .msr .elr 0,
  .msr .spsr 1,
  .ldp 0 1 .sp 0,
  .ldp 2 3 .sp 16,
  .ldp 4 5 .sp 32,
  .ldp 6 7 .sp 48,
  .ldp 8 9 .sp 64,
  .ldp 10 11 .sp 80,
  .ldp 12 13 .sp 96,
  .ldp 14 15 .sp 112,
  .ldp 16 17 .sp 128,
  .ldp 18 19 .sp 144,
  .ldp 20 21 .sp 160,
  .ldp 22 23 .sp 176,
  .ldp 24 25 .sp 192,
  .ldp 26 27 .sp 208,
  .ldp 28 29 .sp 224,
  .ldr 30 .sp 240,
  .addSp 272]

/-- The symbols that the vectors branch to, and the labels after their calls. -/
structure Symbols where
  exceptionHandler : Word
  afterExceptionHandler : Word
  irqHandle : Word
  afterIrqHandle : Word
  syscallHandler : Word
  afterSyscallHandler : Word
  taskTrampoline : Word
  afterEntry : Word

/-- `bl` and `blr`. -/
def Hart.branchLink (hart : Hart) (target link : Word) : Hart :=
  { hart.setX 30 link with pc := target }

def irqBit : Nat := 7

/-- `PSTATE.{D,A,I,F}`. -/
def daif : Word := 0x3c0

/-- What the CPU does upon an exception before the vector's first instruction. -/
def Hart.takeException (hart : Hart) (returnAddress : Word) : Hart :=
  { hart with
    sys := Function.update (Function.update hart.sys .elr returnAddress) .spsr hart.pstate
    pstate := hart.pstate ||| daif }

def Hart.eret (hart : Hart) : Hart :=
  { hart with pc := hart.sys .elr, pstate := hart.sys .spsr }

def callExceptionHandler : List Instr := [
  .movFromSp 0,
  .mrs 1 .esr,
  .mrs 2 .elr,
  .mrs 3 .far]

/-- Up to the call, which does not return. -/
def Hart.handlerInvalid (hart : Hart) (symbols : Symbols) : Hart :=
  (hart.execAll (saveRegs ++ callExceptionHandler)).branchLink symbols.exceptionHandler
    symbols.afterExceptionHandler

def syscallArguments : List Instr := [
  .ldr 0 .sp 64,
  .ldr 1 .sp 0,
  .ldr 2 .sp 8,
  .ldr 3 .sp 16,
  .ldr 4 .sp 24]

/-- The exception class of `SVC` from AArch64. -/
def ecSvc : Word := 0x15

/-- Up to the call, with whether it is the one of `syscall_handler`. -/
def Hart.handlerSync (hart : Hart) (symbols : Symbols) : Hart × Bool :=
  let hart := hart.execAll (saveRegs ++ [.mrs 0 .esr, .lsr 1 0 26])
  if hart.x 1 = ecSvc then
    ((hart.execAll syscallArguments).branchLink symbols.syscallHandler symbols.afterSyscallHandler,
      true)
  else
    ((hart.execAll callExceptionHandler).branchLink symbols.exceptionHandler
      symbols.afterExceptionHandler, false)

def Hart.afterSyscall (hart : Hart) : Hart :=
  (hart.execAll (.str 0 .sp 0 :: restoreRegs)).eret

def Hart.handlerIrq (hart : Hart) (symbols : Symbols) : Hart :=
  (hart.execAll saveRegs).branchLink symbols.irqHandle symbols.afterIrqHandle

def Hart.afterIrq (hart : Hart) : Hart := (hart.execAll restoreRegs).eret

def saveContext : List Instr := [
  .stp 19 20 (.x 0) 0,
  .stp 21 22 (.x 0) 16,
  .stp 23 24 (.x 0) 32,
  .stp 25 26 (.x 0) 48,
  .stp 27 28 (.x 0) 64,
  .stp 29 30 (.x 0) 80,
  .movFromSp 9,
  .str 9 (.x 0) 96]

def restoreContext : List Instr := [
  .ldp 19 20 (.x 1) 0,
  .ldp 21 22 (.x 1) 16,
  .ldp 23 24 (.x 1) 32,
  .ldp 25 26 (.x 1) 48,
  .ldp 27 28 (.x 1) 64,
  .ldp 29 30 (.x 1) 80,
  .ldr 9 (.x 1) 96,
  .movToSp 9]

def Hart.contextSwitch (hart : Hart) : Hart :=
  let hart := hart.execAll saveContext
  let hart := if hart.x 2 = 0 then hart else hart.exec (.msr .ttbr0 2)
  let hart := hart.execAll restoreContext
  { hart with pc := hart.x 30 }

/-- The first instruction of the trampoline. -/
def Hart.trampoline (hart : Hart) (symbols : Symbols) : Hart :=
  hart.branchLink (hart.x 19) symbols.afterEntry

end DragoonKernel
