import DragoonKernel.VectorsCore
import Mathlib.Data.List.FinRange
import Mathlib.Tactic.FinCases

/-!
What the routines of `vectors.S` leave in memory and in the registers: the frame of an exception
and the context of a switch as lists of doublewords.
-/

namespace DragoonKernel

/-- What an exception finds. -/
structure Interrupted where
  x : Reg → Word
  sp : Word
  pc : Word
  pstate : Word

def frameSize : Nat := 272

def contextSize : Nat := 104

def regOffset (reg : Reg) : Word := BitVec.ofNat 64 (8 * reg)

def Interrupted.contents (state : Interrupted) : List (Word × Word) :=
  (List.finRange 31).map (fun reg => (regOffset reg, state.x reg)) ++
    [(248, state.pc), (256, state.pstate)]

/-- `struct task_context` in memory. -/
def TaskContext.contents (context : TaskContext) : List (Word × Word) := [
  (0, context.x19),
  (8, context.x20),
  (16, context.x21),
  (24, context.x22),
  (32, context.x23),
  (40, context.x24),
  (48, context.x25),
  (56, context.x26),
  (64, context.x27),
  (72, context.x28),
  (80, context.x29),
  (88, context.x30),
  (96, context.sp)]

/-- The contents from an address on. -/
def placed (base : Word) (contents : List (Word × Word)) : List (Word × Word) :=
  contents.map fun word => (base + word.1, word.2)

def HeldAt (memory : Word → Word) (base : Word) (contents : List (Word × Word)) : Prop :=
  ∀ word ∈ placed base contents, memory word.1 = word.2

/-- The addresses of `size` bytes from `base` on. -/
def Within (base : Word) (size : Nat) (place : Word) : Prop :=
  base.toNat ≤ place.toNat ∧ place.toNat < base.toNat + size

instance instDecidableWithin (base : Word) (size : Nat) (place : Word) :
    Decidable (Within base size place) := inferInstanceAs (Decidable (_ ∧ _))

section Contents

variable {memory after : Word → Word} {base : Word} {contents : List (Word × Word)} {size : Nat}

def frameOffsets : List Word := (List.finRange 31).map regOffset ++ [248, 256]

theorem regOffset_toNat (reg : Reg) : (regOffset reg).toNat = 8 * reg := by
  rw [regOffset, BitVec.toNat_ofNat, Nat.mod_eq_of_lt (by omega)]

set_option maxRecDepth 4000 in
theorem frameOffsets_apart :
    frameOffsets.Nodup ∧ ∀ offset ∈ frameOffsets, offset.toNat < frameSize := by
  refine ⟨by decide, fun offset listed => ?_⟩
  rw [frameSize]
  rcases List.mem_append.mp listed with saved | last
  · obtain ⟨reg, _, rfl⟩ := List.mem_map.mp saved
    rw [regOffset_toNat]
    omega
  · simp only [List.mem_cons, List.not_mem_nil, or_false] at last
    rcases last with rfl | rfl <;> decide

/-- Contents at offsets of their own within `size` bytes. -/
structure LaidOut (size : Nat) (contents : List (Word × Word)) : Prop where
  distinct : (contents.map Prod.fst).Nodup
  inside : ∀ word ∈ contents, word.1.toNat < size

theorem laidOut_of_offsets {offsets : List Word} (same : contents.map Prod.fst = offsets)
    (apart : offsets.Nodup ∧ ∀ offset ∈ offsets, offset.toNat < size) : LaidOut size contents :=
  ⟨same ▸ apart.1, fun _ listed => apart.2 _ (same ▸ List.mem_map_of_mem listed)⟩

theorem Interrupted.laidOut (state : Interrupted) : LaidOut frameSize state.contents := by
  refine laidOut_of_offsets ?_ frameOffsets_apart
  rw [Interrupted.contents, List.map_append, List.map_map]
  rfl

theorem TaskContext.laidOut (context : TaskContext) : LaidOut contextSize context.contents := by
  have offsets : context.contents.map Prod.fst = (List.range 13).map fun i => BitVec.ofNat 64 (8 * i) :=
    rfl
  refine laidOut_of_offsets offsets ⟨by decide, fun offset listed => ?_⟩
  obtain ⟨i, small, rfl⟩ := List.mem_map.mp listed
  have bound := List.mem_range.mp small
  rw [contextSize, BitVec.toNat_ofNat, Nat.mod_eq_of_lt (by omega)]
  omega

theorem LaidOut.within (laid : LaidOut size contents) (fits : base.toNat + size ≤ 2 ^ 64) :
    ∀ word ∈ placed base contents, Within base size word.1 := by
  intro word listed
  obtain ⟨entry, inContents, rfl⟩ := List.mem_map.mp listed
  have small := laid.inside entry inContents
  have sum : (base + entry.1).toNat = base.toNat + entry.1.toNat := by
    rw [BitVec.toNat_add, Nat.mod_eq_of_lt (by omega)]
  rw [Within, sum]
  omega

theorem HeldAt.keep (held : HeldAt memory base contents) (laid : LaidOut size contents)
    (fits : base.toNat + size ≤ 2 ^ 64)
    (same : ∀ place, Within base size place → after place = memory place) :
    HeldAt after base contents := by
  intro word listed
  rw [same word.1 (laid.within fits word listed)]
  exact held word listed

theorem LaidOut.written (laid : LaidOut size contents) :
    HeldAt (writeAll memory (placed base contents)) base contents := by
  intro word listed
  refine writeAll_written ?_ listed
  have places : (placed base contents).map Prod.fst =
      (contents.map Prod.fst).map (base + ·) := by
    rw [placed, List.map_map, List.map_map]
    rfl
  rw [places]
  exact laid.distinct.map fun _ _ same => (BitVec.add_right_inj base).mp same

theorem LaidOut.outside (laid : LaidOut size contents) (fits : base.toNat + size ≤ 2 ^ 64)
    {place : Word} (outside : ¬Within base size place) :
    writeAll memory (placed base contents) place = memory place := by
  refine writeAll_other fun word listed same => outside ?_
  rw [← same]
  exact laid.within fits word listed

end Contents

section Routines

variable (hart : Hart) (symbols : Symbols)

def Hart.interrupted (returnAddress : Word) : Interrupted where
  x := hart.x
  sp := hart.sp
  pc := returnAddress
  pstate := hart.pstate

theorem saveRegs_memory :
    (hart.execAll saveRegs).memory = writeAll hart.memory (placed (hart.sp - 272)
      (⟨hart.x, hart.sp, hart.sys .elr, hart.sys .spsr⟩ : Interrupted).contents) := by
  simp only [saveRegs, Hart.execAll, List.foldl, Hart.exec, Hart.store, Hart.address, Hart.setX,
    Interrupted.contents]
  rfl

theorem saveRegs_sp : (hart.execAll saveRegs).sp = hart.sp - 272 := rfl

theorem branchLink_memory (target link : Word) :
    (hart.branchLink target link).memory = hart.memory := rfl

theorem branchLink_sp (target link : Word) : (hart.branchLink target link).sp = hart.sp := rfl

theorem branchLink_x (target link : Word) {reg : Reg} (other : reg ≠ 30) :
    (hart.branchLink target link).x reg = hart.x reg := Function.update_of_ne other _ _

theorem readClass_frame : (hart.execAll [.mrs 0 .esr, .lsr 1 0 26]).memory = hart.memory ∧
    (hart.execAll [.mrs 0 .esr, .lsr 1 0 26]).sp = hart.sp := ⟨rfl, rfl⟩

theorem syscallArguments_frame : (hart.execAll syscallArguments).memory = hart.memory ∧
    (hart.execAll syscallArguments).sp = hart.sp := ⟨rfl, rfl⟩

theorem syscallArguments_x : (hart.execAll syscallArguments).x 0 = hart.memory (hart.sp + 64) ∧
    (hart.execAll syscallArguments).x 1 = hart.memory (hart.sp + 0) ∧
    (hart.execAll syscallArguments).x 2 = hart.memory (hart.sp + 8) ∧
    (hart.execAll syscallArguments).x 3 = hart.memory (hart.sp + 16) ∧
    (hart.execAll syscallArguments).x 4 = hart.memory (hart.sp + 24) :=
  ⟨rfl, rfl, rfl, rfl, rfl⟩

theorem restoreRegs_x (reg : Reg) :
    (hart.execAll restoreRegs).x reg = hart.memory (hart.sp + regOffset reg) := by
  fin_cases reg <;> rfl

def Hart.context : TaskContext where
  x19 := hart.x 19
  x20 := hart.x 20
  x21 := hart.x 21
  x22 := hart.x 22
  x23 := hart.x 23
  x24 := hart.x 24
  x25 := hart.x 25
  x26 := hart.x 26
  x27 := hart.x 27
  x28 := hart.x 28
  x29 := hart.x 29
  x30 := hart.x 30
  sp := hart.sp

theorem saveContext_memory :
    (hart.execAll saveContext).memory =
      writeAll hart.memory (placed (hart.x 0) hart.context.contents) := by
  simp only [saveContext, Hart.execAll, List.foldl, Hart.exec, Hart.store, Hart.address, Hart.setX]
  rfl

theorem execAll_append (first second : List Instr) :
    hart.execAll (first ++ second) = (hart.execAll first).execAll second := List.foldl_append

end Routines

section Handlers

variable {hart : Hart} {symbols : Symbols} {state : Interrupted} {base : Word}
  {memory : Word → Word}

theorem HeldAt.reg (held : HeldAt memory base state.contents) (reg : Reg) :
    memory (base + regOffset reg) = state.x reg := by
  refine held (base + regOffset reg, state.x reg) (List.mem_map.mpr ⟨(regOffset reg, state.x reg), ?_, rfl⟩)
  exact List.mem_append_left _ (List.mem_map.mpr ⟨reg, List.mem_finRange reg, rfl⟩)

theorem HeldAt.pc (held : HeldAt memory base state.contents) : memory (base + 248) = state.pc :=
  held (base + 248, state.pc) (List.mem_map.mpr ⟨(248, state.pc),
    List.mem_append_right _ List.mem_cons_self, rfl⟩)

theorem HeldAt.pstate (held : HeldAt memory base state.contents) :
    memory (base + 256) = state.pstate :=
  held (base + 256, state.pstate) (List.mem_map.mpr ⟨(256, state.pstate),
    List.mem_append_right _ (List.mem_cons_of_mem _ List.mem_cons_self), rfl⟩)

/-- The CPU is as the exception has found it. -/
structure Hart.Resumes (hart : Hart) (state : Interrupted) : Prop where
  x : hart.x = state.x
  sp : hart.sp = state.sp
  pc : hart.pc = state.pc
  pstate : hart.pstate = state.pstate

theorem afterIrq_resumes (held : HeldAt hart.memory hart.sp state.contents)
    (stacked : hart.sp = state.sp - 272) :
    hart.afterIrq.Resumes state ∧ hart.afterIrq.memory = hart.memory := by
  refine ⟨⟨?_, ?_, held.pc, held.pstate⟩, rfl⟩
  · funext reg
    exact (restoreRegs_x hart reg).trans (held.reg reg)
  · change hart.sp + 272 = state.sp
    rw [stacked, BitVec.sub_add_cancel]

/-- The frame that `syscall_handler` leaves, with its value in the place of `x0`. -/
def Interrupted.withResult (state : Interrupted) (value : Word) : Interrupted :=
  { state with x := Function.update state.x 0 value }

theorem HeldAt.withResult (held : HeldAt memory base state.contents) (value : Word) :
    HeldAt (Function.update memory (base + 0) value) base (state.withResult value).contents := by
  intro word listed
  obtain ⟨entry, inContents, rfl⟩ := List.mem_map.mp listed
  have laid := (state.withResult value).laidOut
  rcases List.mem_append.mp inContents with saved | last
  · obtain ⟨reg, _, rfl⟩ := List.mem_map.mp saved
    by_cases first : reg = 0
    · subst first
      simp [Interrupted.withResult, regOffset]
    · have away : regOffset reg ≠ 0 := by
        intro zero
        have value := congrArg BitVec.toNat zero
        rw [regOffset_toNat] at value
        exact first (Fin.ext (by simpa using value))
      have apart : base + regOffset reg ≠ base + 0 :=
        fun same => away ((BitVec.add_right_inj base).mp same)
      simp only [Function.update_of_ne apart, Interrupted.withResult, Function.update_of_ne first]
      exact held.reg reg
  · simp only [List.mem_cons, List.not_mem_nil, or_false] at last
    rcases last with rfl | rfl
    · have apart : base + 248 ≠ base + 0 :=
        fun same => absurd ((BitVec.add_right_inj base).mp same) (by decide)
      simp only [Function.update_of_ne apart]
      exact held.pc
    · have apart : base + 256 ≠ base + 0 :=
        fun same => absurd ((BitVec.add_right_inj base).mp same) (by decide)
      simp only [Function.update_of_ne apart]
      exact held.pstate

theorem afterSyscall_resumes (held : HeldAt hart.memory hart.sp state.contents)
    (stacked : hart.sp = state.sp - 272) :
    hart.afterSyscall.Resumes (state.withResult (hart.x 0)) ∧
      hart.afterSyscall.memory = Function.update hart.memory (hart.sp + 0) (hart.x 0) := by
  have stored : hart.afterSyscall = (hart.store (hart.sp + 0) (hart.x 0)).afterIrq := by
    rw [Hart.afterSyscall, Hart.afterIrq, Hart.execAll, List.foldl_cons]
    rfl
  have kept : HeldAt (hart.store (hart.sp + 0) (hart.x 0)).memory hart.sp
      (state.withResult (hart.x 0)).contents := held.withResult (hart.x 0)
  rw [stored]
  exact afterIrq_resumes kept stacked

theorem entry_memory (hart : Hart) (returnAddress : Word) :
    ((hart.takeException returnAddress).execAll saveRegs).memory = writeAll hart.memory
      (placed (hart.sp - 272) (hart.interrupted returnAddress).contents) :=
  saveRegs_memory (hart.takeException returnAddress)

theorem handlerIrq_entered (hart : Hart) (symbols : Symbols) (returnAddress : Word) :
    ((hart.takeException returnAddress).handlerIrq symbols).memory = writeAll hart.memory
        (placed (hart.sp - 272) (hart.interrupted returnAddress).contents) ∧
      ((hart.takeException returnAddress).handlerIrq symbols).sp = hart.sp - 272 := by
  rw [Hart.handlerIrq, branchLink_memory, branchLink_sp, entry_memory, saveRegs_sp]
  exact ⟨rfl, rfl⟩

/-- Where the exception is `SVC` and where it is not. -/
theorem handlerSync_eq (hart : Hart) (symbols : Symbols) :
    hart.handlerSync symbols =
      if hart.sys .esr >>> 26 = ecSvc then
        ((((hart.execAll saveRegs).execAll [.mrs 0 .esr, .lsr 1 0 26]).execAll
          syscallArguments).branchLink symbols.syscallHandler symbols.afterSyscallHandler, true)
      else ((((hart.execAll saveRegs).execAll [.mrs 0 .esr, .lsr 1 0 26]).execAll
        callExceptionHandler).branchLink symbols.exceptionHandler
          symbols.afterExceptionHandler, false) := by
  rw [Hart.handlerSync, execAll_append]
  rfl

theorem handlerSync_other (other : hart.sys .esr >>> 26 ≠ ecSvc) :
    ∃ entered, hart.handlerSync symbols = (entered, false) := by
  rw [handlerSync_eq, if_neg other]
  exact ⟨_, rfl⟩

/-- The arguments of a system call: its number in `x8` and the registers from `x0` to `x3`. -/
structure Hart.PassesArguments (entered hart : Hart) : Prop where
  number : entered.x 0 = hart.x 8
  first : entered.x 1 = hart.x 0
  second : entered.x 2 = hart.x 1
  third : entered.x 3 = hart.x 2
  fourth : entered.x 4 = hart.x 3

theorem handlerSync_entered (hart : Hart) (symbols : Symbols) (returnAddress : Word)
    (svc : hart.sys .esr >>> 26 = ecSvc) :
    ∃ entered, (hart.takeException returnAddress).handlerSync symbols = (entered, true) ∧
      entered.memory = writeAll hart.memory
        (placed (hart.sp - 272) (hart.interrupted returnAddress).contents) ∧
      entered.sp = hart.sp - 272 ∧ entered.PassesArguments hart := by
  have isSvc : (hart.takeException returnAddress).sys .esr >>> 26 = ecSvc := svc
  let saved := (hart.takeException returnAddress).execAll saveRegs
  have memory : saved.memory = _ := entry_memory hart returnAddress
  have sp : saved.sp = hart.sp - 272 := saveRegs_sp (hart.takeException returnAddress)
  have held : HeldAt saved.memory (hart.sp - 272) (hart.interrupted returnAddress).contents := by
    rw [memory]
    exact (hart.interrupted returnAddress).laidOut.written
  obtain ⟨sameMemory, sameSp⟩ := readClass_frame saved
  let read := saved.execAll [.mrs 0 .esr, .lsr 1 0 26]
  obtain ⟨callMemory, callSp⟩ := syscallArguments_frame read
  obtain ⟨number, first, second, third, fourth⟩ := syscallArguments_x read
  rw [sameMemory, sameSp, sp] at number first second third fourth
  rw [handlerSync_eq, if_pos isSvc]
  refine ⟨_, rfl, ?_, ?_, ?_, ?_, ?_, ?_, ?_⟩
  · rw [branchLink_memory, callMemory, sameMemory, memory]
  · rw [branchLink_sp, callSp, sameSp, sp]
  · rw [branchLink_x _ _ _ (by decide), number]
    exact held.reg 8
  · rw [branchLink_x _ _ _ (by decide), first]
    exact held.reg 0
  · rw [branchLink_x _ _ _ (by decide), second]
    exact held.reg 1
  · rw [branchLink_x _ _ _ (by decide), third]
    exact held.reg 2
  · rw [branchLink_x _ _ _ (by decide), fourth]
    exact held.reg 3

end Handlers

section Switch

variable {hart : Hart} {context : TaskContext}

theorem restoreContext_context (held : HeldAt hart.memory (hart.x 1) context.contents) :
    (hart.execAll restoreContext).context = context := by
  simp only [HeldAt, placed, TaskContext.contents, List.map_cons, List.map_nil,
    List.forall_mem_cons] at held
  obtain ⟨x19, x20, x21, x22, x23, x24, x25, x26, x27, x28, x29, x30, sp, _⟩ := held
  cases context
  exact TaskContext.mk.injEq .. ▸
    ⟨x19, x20, x21, x22, x23, x24, x25, x26, x27, x28, x29, x30, sp⟩

def Hart.switchTtbr0 (hart : Hart) : Hart :=
  if hart.x 2 = 0 then hart else hart.exec (.msr .ttbr0 2)

theorem switchTtbr0_frame (hart : Hart) :
    hart.switchTtbr0.memory = hart.memory ∧ hart.switchTtbr0.x = hart.x := by
  rw [Hart.switchTtbr0]
  split <;> exact ⟨rfl, rfl⟩

/-- The caller's context is saved before the other one is loaded. -/
theorem contextSwitch_loads_held (hart : Hart) {left : Word → Word}
    (saved : left = writeAll hart.memory (placed (hart.x 0) hart.context.contents))
    (held : HeldAt left (hart.x 1) context.contents) :
    hart.contextSwitch.memory = left ∧ hart.contextSwitch.context = context ∧
      hart.contextSwitch.pc = context.x30 := by
  have memory : (hart.execAll saveContext).memory = left :=
    (saveContext_memory hart).trans saved.symm
  have target : (hart.execAll saveContext).x 1 = hart.x 1 := rfl
  obtain ⟨sameMemory, sameX⟩ := switchTtbr0_frame (hart.execAll saveContext)
  let entering := (hart.execAll saveContext).switchTtbr0
  have restored : HeldAt entering.memory (entering.x 1) context.contents := by
    rw [sameMemory, sameX, memory, target]
    exact held
  have loaded := restoreContext_context restored
  exact ⟨sameMemory.trans memory, loaded, congrArg TaskContext.x30 loaded⟩

end Switch

end DragoonKernel
