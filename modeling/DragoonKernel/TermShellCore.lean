import DragoonKernel.GpuTextCore
import DragoonKernel.PageAllocatorCore
import DragoonKernel.TaskCore
import DragoonKernel.TermCore
import DragoonKernel.VirtioKbdCore

/-!
Executable model of the keys of the terminal of `kernel/gui.c`. A read or a write outside of
`term_input`, of a line or of a task name fails.
-/

namespace DragoonKernel

def inputMax : Nat := 56

def taskNameSize : Nat := 32

/-- The `name` of a task: the array has a terminator. -/
structure TaskName where
  bytes : List (BitVec 8)
  size : bytes.length = taskNameSize
  terminated : 0 ∈ bytes

def TaskName.blank : TaskName := ⟨List.replicate taskNameSize 0, rfl, by decide⟩

/-- The loop of `task_create` that copies the name. A string ends at a 0 or with the list. -/
def fillName (bytes : List (BitVec 8)) : List (BitVec 8) → Nat → List (BitVec 8)
  | [], j => bytes.set j 0
  | c :: rest, j =>
      if j < taskNameSize - 1 ∧ c ≠ 0 then fillName (bytes.set j c) rest (j + 1) else bytes.set j 0

theorem fillName_length (bytes name : List (BitVec 8)) (j : Nat) :
    (fillName bytes name j).length = bytes.length := by
  induction name generalizing bytes j with
  | nil => exact List.length_set
  | cons c rest ih =>
      rw [fillName]
      split
      next => rw [ih, List.length_set]
      next => exact List.length_set

theorem fillName_terminated (bytes name : List (BitVec 8)) (j : Nat)
    (inside : j < taskNameSize) (size : bytes.length = taskNameSize) : 0 ∈ fillName bytes name j := by
  have last : 0 ∈ bytes.set j 0 := List.mem_set (size ▸ inside) 0
  induction name generalizing bytes j with
  | nil => exact last
  | cons c rest ih =>
      rw [fillName]
      split
      next more =>
        have next : j + 1 < taskNameSize := by have below := more.1; omega
        have same : (bytes.set j c).length = taskNameSize := by rw [List.length_set, size]
        exact ih _ _ next same (List.mem_set (same ▸ next) 0)
      next => exact last

/-- `task_create` names the slot. -/
def TaskName.copy (old : TaskName) (name : List (BitVec 8)) : TaskName where
  bytes := fillName old.bytes name 0
  size := by rw [fillName_length, old.size]
  terminated := fillName_terminated old.bytes name 0 (by decide) old.size

/-- The terminal with its line of input. -/
structure Shell where
  term : Term
  termInput : List (BitVec 8)
  termInputLen : Nat

/-- What the commands read: the task table and the page allocator. -/
structure ShellEnv where
  states : Nat → TaskState
  names : Nat → TaskName
  mm : Mm

def Shell.boot : Shell := ⟨.boot, List.replicate (inputMax + 1) 0, 0⟩

def putByte (i : Nat) (c : BitVec 8) (buf : List (BitVec 8)) : Option (List (BitVec 8)) :=
  if i < buf.length then some (buf.set i c) else none

/-- The array of a string literal. -/
def literal (text : String) : List (BitVec 8) := cString text ++ [0]

/-- Both strings are read to the first place where they differ or end. -/
def strEq : List (BitVec 8) → List (BitVec 8) → Option Bool
  | a :: as, b :: bs =>
      if a ≠ 0 ∧ b ≠ 0 then if a ≠ b then some false else strEq as bs else some (a = b)
  | _, _ => none

/-- `line[pos++] = c`, where `pos` is the length of what has been written. -/
def linePut (c : BitVec 8) (line : List (BitVec 8)) : Option (List (BitVec 8)) :=
  pushByte (termCols + 1) c line

/-- `while (*s && room) line[pos++] = *s++;` -/
def lineCopy (room : Nat → Bool) : List (BitVec 8) → List (BitVec 8) → Option (List (BitVec 8))
  | [], _ => none
  | c :: rest, line =>
      if c ≠ 0 ∧ room line.length then (linePut c line).bind (lineCopy room rest) else some line

def stateName : TaskState → List (BitVec 8)
  | .dead => literal "dead"
  | .ready => literal "ready"
  | .running => literal "running"
  | .blocked => literal "blocked"

/-- The line of `ps` for one task. -/
def psLine (i : Nat) (name : TaskName) (state : TaskState) : Option (List (BitVec 8)) := do
  let line ← linePut (byte ' ') []
  let line ← linePut (byte ' ') line
  let line ← linePut (byte '[') line
  let line ← linePut (byte '0' + BitVec.ofNat 8 i) line
  let line ← linePut (byte ']') line
  let line ← linePut (byte ' ') line
  let line ← lineCopy (· < termCols - 10) name.bytes line
  let line ← linePut (byte ' ') line
  let line ← linePut (byte '(') line
  let line ← lineCopy (· < termCols - 2) (stateName state) line
  let line ← linePut (byte ')') line
  linePut 0 line

/-- `for (int j = ni - 1; j >= 0; j--) line[pos++] = num[j];` -/
def putNumber (num line : List (BitVec 8)) : Option (List (BitVec 8)) :=
  num.foldr (fun c line => line.bind (linePut c)) (some line)

def memLine (freePages totalPages : Word) : Option (List (BitVec 8)) := do
  let line ← lineCopy (fun _ => true) (literal "Free: ") []
  let num ← decimalBuf freePages.toNat
  let line ← putNumber num line
  let line ← lineCopy (fun _ => true) (literal " / ") line
  let num ← decimalBuf totalPages.toNat
  let line ← putNumber num line
  let line ← lineCopy (· < termCols) (literal " pages (4KB each)") line
  linePut 0 line

/-- `for (int j = 0; j < count && pos < TERM_COLS; j++) line[pos++] = input[j];` The first
argument is the input from `j` on and the second is `count - j`. -/
def lineInput : List (BitVec 8) → Nat → List (BitVec 8) → Option (List (BitVec 8))
  | _, 0, line => some line
  | input, count + 1, line =>
      if line.length < termCols then
        match input with
        | [] => none
        | c :: rest => (linePut c line).bind (lineInput rest count)
      else some line

def unknownLine (input : List (BitVec 8)) (count : Nat) : Option (List (BitVec 8)) := do
  let line ← lineCopy (· < termCols - inputMax) (literal "Unknown: ") []
  let line ← lineInput input count line
  linePut 0 line

/-- One turn of the loop of `ps`. -/
def psTurn (env : ShellEnv) (i : Nat) (term : Term) : Option Term :=
  match taskGet env.states i with
  | some task => (psLine i (env.names task) (env.states task)).bind fun line => term.termPutline line
  | none => some term

/-- What ENTER does before the input is emptied. -/
def Shell.command (env : ShellEnv) (shell : Shell) : Option Term := do
  if ← strEq shell.termInput (literal "help") then
    shell.term.termPutline (literal "Commands: help, clear, ps, mem")
  else if ← strEq shell.termInput (literal "clear") then
    shell.term.termClear
  else if ← strEq shell.termInput (literal "ps") then
    let term ← shell.term.termPutline (literal "Tasks:")
    loopUp (psTurn env) maxTasks term
  else if ← strEq shell.termInput (literal "mem") then
    let line ← memLine env.mm.getFreePages env.mm.totalPages
    shell.term.termPutline line
  else if shell.termInputLen > 0 then
    let line ← unknownLine shell.termInput shell.termInputLen
    shell.term.termPutline line
  else
    return shell.term

def Shell.termHandleKey (env : ShellEnv) (shell : Shell) (key : Int) : Option Shell :=
  if key = keyEnter then do
    let termInput ← putByte shell.termInputLen 0 shell.termInput
    let shell := { shell with termInput }
    let term ← shell.command env
    return { shell with term, termInputLen := 0 }
  else if key = keyBackspace then
    some { shell with
      termInputLen := if shell.termInputLen > 0 then shell.termInputLen - 1 else shell.termInputLen }
  else if key ≥ 32 ∧ key < 127 ∧ shell.termInputLen < inputMax then do
    let termInput ← putByte shell.termInputLen (BitVec.ofInt 8 key) shell.termInput
    return { shell with termInput, termInputLen := shell.termInputLen + 1 }
  else some shell

/-- The part of `app_init` for the terminal. -/
def Shell.appInit (shell : Shell) : Option Shell := do
  let term ← shell.term.termClear
  let term ← term.termPutline (literal "Dragoon Terminal v0.2")
  let term ← term.termPutline (literal "Type 'help' for commands.")
  let term ← term.termPutline (literal "")
  return { shell with term, termInputLen := 0 }

end DragoonKernel
