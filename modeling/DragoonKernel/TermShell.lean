import DragoonKernel.GpuText
import DragoonKernel.PageAccounting
import DragoonKernel.TermLines
import DragoonKernel.TermShellCore

/-!
The terminal as a session: a line that is edited, and what the commands answer. The session says
what is shown after any keys, whatever the tasks and the allocator do in between.
-/

namespace DragoonKernel

/-- The lines put since the terminal was cleared, and the input. -/
structure Session where
  lines : List (List (BitVec 8))
  typed : List (BitVec 8)

def Session.empty : Session := ⟨[], []⟩

def stateText : TaskState → List (BitVec 8)
  | .dead => cString "dead"
  | .ready => cString "ready"
  | .running => cString "running"
  | .blocked => cString "blocked"

def psText (i : Nat) (name : List (BitVec 8)) (state : TaskState) : List (BitVec 8) :=
  cString "  [" ++ [byte '0' + BitVec.ofNat 8 i] ++ cString "] " ++ name ++ cString " (" ++
    stateText state ++ cString ")"

/-- What there is to know of the tasks and the pages. A name has at most 31 characters. -/
structure SessionEnv where
  states : Nat → TaskState
  names : Nat → List (BitVec 8)
  mm : Mm

/-- One line for each of the first `count` slots that has a live task. -/
def SessionEnv.taskLines (env : SessionEnv) (count : Nat) : List (List (BitVec 8)) :=
  ((List.range count).filter fun i => env.states i ≠ .dead).map fun i =>
    psText i (env.names i) (env.states i)

def memText (freePages totalPages : Nat) : List (BitVec 8) :=
  cString "Free: " ++ numeral false 10 freePages ++ cString " / " ++
    numeral false 10 totalPages ++ cString " pages (4KB each)"

/-- What a line that is entered puts, and whether it clears the terminal. The word that comes
before an unknown command is cut to the room that the longest input leaves. -/
def Session.enter (env : SessionEnv) (session : Session) : Session :=
  let lines :=
    if session.typed = cString "help" then
      session.lines ++ [cString "Commands: help, clear, ps, mem"]
    else if session.typed = cString "clear" then []
    else if session.typed = cString "ps" then
      session.lines ++ cString "Tasks:" :: env.taskLines maxTasks
    else if session.typed = cString "mem" then
      session.lines ++ [memText (maxPages - env.mm.usedCount) maxPages]
    else if session.typed = [] then session.lines
    else session.lines ++ [cString "Unkn" ++ session.typed]
  ⟨lines, []⟩

def Session.key (env : SessionEnv) (session : Session) (key : Int) : Session :=
  if key = keyEnter then session.enter env
  else if key = keyBackspace then { session with typed := session.typed.dropLast }
  else if 32 ≤ key ∧ key < 127 ∧ session.typed.length < inputMax then
    { session with typed := session.typed ++ [BitVec.ofInt 8 key] }
  else session

def Session.opened : Session where
  lines := [cString "Dragoon Terminal v0.2", cString "Type 'help' for commands.", []]
  typed := []

/-- What happens around the terminal: keys, a window that opens, tasks that are named and change
their states, and calls of the page allocator. -/
inductive ShellAction where
  | key (key : Int)
  | start
  | named (slot : Nat) (name : List (BitVec 8))
  | scheduled (states : Nat → TaskState)
  | mm (call : MmCall)

def ShellEnv.next (env : ShellEnv) : ShellAction → ShellEnv
  | .named slot name =>
      { env with names := Function.update env.names slot ((env.names slot).copy name) }
  | .scheduled states => { env with states }
  | .mm call => { env with mm := env.mm.call call }
  | _ => env

def SessionEnv.next (env : SessionEnv) : ShellAction → SessionEnv
  | .named slot name =>
      { env with names := Function.update env.names slot ((cText name).take (taskNameSize - 1)) }
  | .scheduled states => { env with states }
  | .mm call => { env with mm := env.mm.call call }
  | _ => env

structure ShellSystem where
  shell : Shell
  env : ShellEnv

def ShellSystem.step (system : ShellSystem) (action : ShellAction) : Option ShellSystem := do
  let shell ← match action with
    | .key key => system.shell.termHandleKey system.env key
    | .start => system.shell.appInit
    | _ => some system.shell
  return ⟨shell, system.env.next action⟩

structure SessionSystem where
  session : Session
  env : SessionEnv

def SessionSystem.step (system : SessionSystem) (action : ShellAction) : SessionSystem :=
  let session := match action with
    | .key key => system.session.key system.env key
    | .start => .opened
    | _ => system.session
  ⟨session, system.env.next action⟩

/-- The static variables after `mm_init`, with no tasks. -/
def ShellSystem.boot (image : KernelImage) (memory : Memory) : ShellSystem where
  shell := .boot
  env := {
    states := fun _ => .dead
    names := fun _ => .blank
    mm := mmInit image.stackTop memory }

def SessionSystem.boot (image : KernelImage) (memory : Memory) : SessionSystem where
  session := .empty
  env := {
    states := fun _ => .dead
    names := fun _ => []
    mm := mmInit image.stackTop memory }

/-- A line that is shown as it is. -/
structure FitsLine (line : List (BitVec 8)) : Prop where
  short : line.length ≤ termCols
  visible : ∀ c ∈ line, c ≠ 0

structure Shell.Shows (shell : Shell) (session : Session) : Prop where
  displays : shell.term.Displays (session.lines.rtake termRows)
  size : shell.termInput.length = inputMax + 1
  typed : shell.termInput.take shell.termInputLen = session.typed
  short : shell.termInputLen ≤ inputMax
  visible : ∀ c ∈ session.typed, c ≠ 0
  lines : ∀ line ∈ session.lines, FitsLine line

structure ShellEnv.Agrees (env : ShellEnv) (other : SessionEnv) : Prop where
  states : env.states = other.states
  names : ∀ slot, cText (env.names slot).bytes = other.names slot
  mm : env.mm = other.mm
  counted : env.mm.Counted

section Lines

variable {s text line rest : List (BitVec 8)} {term : Term} {lines : List (List (BitVec 8))}

theorem cText_terminated (visible : ∀ c ∈ text, c ≠ 0) (rest : List (BitVec 8)) :
    cText (text ++ 0 :: rest) = text := by
  rw [cText, List.takeWhile_append_of_pos fun c listed => decide_eq_true (visible c listed)]
  simp

theorem cText_cons {c : BitVec 8} (shown : c ≠ 0) : cText (c :: s) = c :: cText s :=
  List.takeWhile_cons_of_pos (decide_eq_true shown)

theorem cText_visible (s : List (BitVec 8)) : ∀ c ∈ cText s, c ≠ 0 := by
  intro c listed
  exact of_decide_eq_true (List.mem_takeWhile_imp (p := fun c => decide (c ≠ 0)) listed)

theorem exists_cText (terminated : 0 ∈ s) : ∃ rest, s = cText s ++ 0 :: rest := by
  induction s with
  | nil => exact absurd terminated List.not_mem_nil
  | cons c tail ih =>
      by_cases last : c = 0
      · exact ⟨tail, by simp [cText, last]⟩
      · obtain ⟨rest, split⟩ := ih ((List.mem_cons.mp terminated).resolve_left (Ne.symm last))
        exact ⟨rest, by rw [cText_cons last, List.cons_append, ← split]⟩

theorem putChars_cText (termRow c : Nat) (buf : TermBuf) (visible : ∀ c ∈ text, c ≠ 0) :
    putChars termRow (text ++ 0 :: rest) c buf = putChars termRow text c buf := by
  induction text generalizing c buf with
  | nil => simp [putChars]
  | cons ch tail ih =>
      have later := fun c' listed => visible c' (List.mem_cons_of_mem ch listed)
      rw [List.cons_append, putChars, putChars]
      split
      next => exact congrArg _ (funext fun next => ih (c + 1) next later)
      next => rfl

theorem termPutline_terminated (term : Term) (visible : ∀ c ∈ text, c ≠ 0) :
    term.termPutline (text ++ 0 :: rest) = term.termPutline text := by
  rw [Term.termPutline, Term.termPutline]
  simp only [putChars_cText _ _ _ visible]

/-- A line that fits is added to what the terminal shows. -/
theorem putline_shows (shows : term.Displays (lines.rtake termRows)) (fits : FitsLine text)
    (rest : List (BitVec 8)) :
    ∃ next, term.termPutline (text ++ 0 :: rest) = some next ∧
      next.Displays ((lines ++ [text]).rtake termRows) := by
  rw [termPutline_terminated term fits.visible]
  exact putline_displays shows text

theorem linePut_some (c : BitVec 8) (room : line.length < termCols + 1) :
    linePut c line = some (line ++ [c]) := if_pos room

theorem lineCopy_some {room : Nat → Bool} (visible : ∀ c ∈ text, c ≠ 0)
    (roomy : ∀ pos < line.length + text.length, room pos = true)
    (fits : line.length + text.length ≤ termCols + 1) (rest : List (BitVec 8)) :
    lineCopy room (text ++ 0 :: rest) line = some (line ++ text) := by
  induction text generalizing line with
  | nil => simp [lineCopy]
  | cons c tail ih =>
      have length : (line ++ [c]).length + tail.length = line.length + (c :: tail).length := by
        simp only [List.length_append, List.length_cons, List.length_nil]
        omega
      have place : line.length < line.length + (c :: tail).length := by simp
      have more : c ≠ 0 ∧ room line.length = true :=
        ⟨visible c List.mem_cons_self, roomy _ place⟩
      rw [List.cons_append, lineCopy, if_pos more, linePut_some c (by omega), Option.bind_some,
        ih (fun other listed => visible other (List.mem_cons_of_mem c listed))
          (length ▸ roomy) (length ▸ fits), List.append_assoc]
      rfl

theorem putNumber_some (num : List (BitVec 8))
    (fits : line.length + num.length ≤ termCols + 1) :
    putNumber num line = some (line ++ num.reverse) := by
  induction num with
  | nil => simp [putNumber]
  | cons c rest ih =>
      simp only [List.length_cons] at fits
      have before : putNumber rest line = some (line ++ rest.reverse) := ih (by omega)
      have place : (line ++ rest.reverse).length < termCols + 1 := by
        simp only [List.length_append, List.length_reverse]
        omega
      rw [putNumber, List.foldr_cons, ← putNumber, before, Option.bind_some,
        linePut_some c place, List.append_assoc, List.reverse_cons]

theorem lineInput_some {count : Nat} (enough : count ≤ text.length)
    (fits : line.length + count ≤ termCols) :
    lineInput text count line = some (line ++ text.take count) := by
  induction count generalizing text line with
  | zero => simp [lineInput]
  | succ count ih =>
      cases text with
      | nil => exact absurd enough (Nat.not_succ_le_zero count)
      | cons c tail =>
          have room : line.length < termCols := by omega
          have longer : (line ++ [c]).length + count ≤ termCols := by
            simp only [List.length_append, List.length_singleton]
            omega
          rw [lineInput, if_pos room, linePut_some c (Nat.lt_succ_of_lt room), Option.bind_some,
            ih (Nat.le_of_succ_le_succ enough) longer, List.append_assoc]
          rfl

theorem strEq_terminated {a b : List (BitVec 8)} (visibleA : ∀ c ∈ a, c ≠ 0)
    (visibleB : ∀ c ∈ b, c ≠ 0) (restA restB : List (BitVec 8)) :
    strEq (a ++ 0 :: restA) (b ++ 0 :: restB) = some (decide (a = b)) := by
  induction a generalizing b with
  | nil =>
      cases b with
      | nil => simp [strEq]
      | cons d ds =>
          have shown : ¬(0 : BitVec 8) = d := (visibleB d List.mem_cons_self).symm
          rw [List.nil_append, List.cons_append, strEq, if_neg fun both => both.1 rfl]
          simp only [shown, decide_false, List.nil_eq, reduceCtorEq]
  | cons c cs ih =>
      have shown := visibleA c List.mem_cons_self
      cases b with
      | nil =>
          rw [List.cons_append, List.nil_append, strEq, if_neg fun both => both.2 rfl]
          simp only [shown, decide_false, reduceCtorEq]
      | cons d ds =>
          have other := visibleB d List.mem_cons_self
          have rest := ih (b := ds) (fun e listed => visibleA e (List.mem_cons_of_mem c listed))
            fun e listed => visibleB e (List.mem_cons_of_mem d listed)
          rw [List.cons_append, List.cons_append, strEq, if_pos ⟨shown, other⟩]
          by_cases same : c = d
          · rw [if_neg (not_not.mpr same), rest]
            simp [same]
          · rw [if_pos same]
            simp [same]

end Lines

section Commands

variable {env : ShellEnv} {other : SessionEnv} {shell : Shell} {session : Session} {term : Term}
  {lines : List (List (BitVec 8))}

theorem stateName_eq (state : TaskState) : stateName state = stateText state ++ [0] := by
  cases state <;> rfl

theorem stateText_short (state : TaskState) : (stateText state).length ≤ 7 := by
  cases state <;> decide

theorem stateText_visible (state : TaskState) : ∀ c ∈ stateText state, c ≠ 0 := by
  cases state <;> decide

theorem TaskName.text_short (name : TaskName) : (cText name.bytes).length < taskNameSize := by
  obtain ⟨rest, split⟩ := exists_cText name.terminated
  have length := congrArg List.length split
  rw [name.size, List.length_append, List.length_cons] at length
  omega

theorem slotSymbol_visible {i : Nat} (below : i < maxTasks) : byte '0' + BitVec.ofNat 8 i ≠ 0 := by
  have all : ∀ i < maxTasks, byte '0' + BitVec.ofNat 8 i ≠ 0 := by decide
  exact all i below

theorem psText_fits {i : Nat} (below : i < maxTasks) (name : TaskName) (state : TaskState) :
    FitsLine (psText i (cText name.bytes) state) := by
  have short := name.text_short
  have word := stateText_short state
  have opening : ∀ c ∈ cString "  [", c ≠ 0 := by decide
  have closing : ∀ c ∈ cString "] ", c ≠ 0 := by decide
  have middle : ∀ c ∈ cString " (", c ≠ 0 := by decide
  have last : ∀ c ∈ cString ")", c ≠ 0 := by decide
  constructor
  · have parts : (psText i (cText name.bytes) state).length =
        (cText name.bytes).length + (stateText state).length + 9 := by
      simp only [psText, List.length_append, List.length_singleton]
      change 3 + 1 + 2 + _ + 2 + _ + 1 = _
      omega
    rw [parts]
    simp only [taskNameSize, termCols] at short ⊢
    omega
  · intro c listed
    simp only [psText, List.mem_append, List.mem_singleton] at listed
    rcases listed with (((((start | rfl) | close) | inName) | gap) | inState) | ends
    · exact opening c start
    · exact slotSymbol_visible below
    · exact closing c close
    · exact cText_visible _ c inName
    · exact middle c gap
    · exact stateText_visible state c inState
    · exact last c ends

/-- The limits of the loops of `ps` are never reached. -/
theorem psLine_some {i : Nat} (name : TaskName) (state : TaskState) :
    psLine i name state = some (psText i (cText name.bytes) state ++ [0]) := by
  obtain ⟨rest, split⟩ := exists_cText name.terminated
  have short := name.text_short
  have word := stateText_short state
  let start := cString "  [" ++ [byte '0' + BitVec.ofNat 8 i] ++ cString "] "
  have startLength : start.length = 6 := rfl
  have copied : lineCopy (· < termCols - 10) name.bytes start =
      some (start ++ cText name.bytes) := by
    rw [split]
    refine (lineCopy_some (cText_visible _) (fun pos below => decide_eq_true ?_) ?_ rest).trans ?_
    · simp only [taskNameSize, termCols, startLength] at short below ⊢
      omega
    · simp only [taskNameSize, termCols, startLength] at short ⊢
      omega
    · rw [← split]
  let named := start ++ cText name.bytes ++ cString " ("
  have namedLength : named.length = 8 + (cText name.bytes).length := by
    simp only [named, List.length_append, startLength]
    change _ + _ + 2 = _
    omega
  have stated : lineCopy (· < termCols - 2) (stateName state) named =
      some (named ++ stateText state) := by
    rw [stateName_eq]
    refine lineCopy_some (stateText_visible state) (fun pos below => decide_eq_true ?_) ?_ []
    · simp only [taskNameSize, termCols, namedLength] at short below ⊢
      omega
    · simp only [taskNameSize, termCols, namedLength] at short ⊢
      omega
  have room : ∀ line : List (BitVec 8), line.length ≤ 48 →
      ∀ c, linePut c line = some (line ++ [c]) := fun line short c =>
    linePut_some c (Nat.lt_of_le_of_lt short (by decide))
  have gap : start ++ cText name.bytes ++ [byte ' '] ++ [byte '('] = named := by
    rw [List.append_assoc]
    rfl
  simp only [taskNameSize] at short
  change (lineCopy (· < termCols - 10) name.bytes start).bind _ = _
  simp only [copied, Option.bind_eq_bind, Option.bind_some]
  rw [room _ (by simp only [List.length_append, startLength]; omega), Option.bind_some, room _ (by
    simp only [List.length_append, startLength, List.length_singleton]; omega), Option.bind_some,
    gap, stated, Option.bind_some, room _ (by simp only [List.length_append, namedLength]; omega),
    Option.bind_some, room _ (by
      simp only [List.length_append, namedLength, List.length_singleton]; omega)]
  rfl

theorem decimal_visible (val : Nat) : ∀ c ∈ numeral false 10 val, c ≠ 0 := by
  intro c listed
  obtain ⟨digit, below, rfl⟩ := mem_numeral (by decide) listed
  have all : ∀ digit < 10, digitSymbol false digit ≠ 0 := by decide
  exact all digit below

theorem length_decimal_le {val places : Nat} (positive : 0 < places) (short : val < 10 ^ places) :
    (numeral false 10 val).length ≤ places := by
  rw [numeral, Numeral.length_write, Numeral.digits]
  split
  next => exact positive
  next => exact (Nat.digits_length_le_iff (by decide) _).mpr short

theorem memText_fits {freePages totalPages : Nat} (free : freePages < 10 ^ decimalBufSize)
    (total : totalPages < 10 ^ decimalBufSize) : FitsLine (memText freePages totalPages) := by
  have freeShort := length_decimal_le (by decide) free
  have totalShort := length_decimal_le (by decide) total
  have opening : ∀ c ∈ cString "Free: ", c ≠ 0 := by decide
  have middle : ∀ c ∈ cString " / ", c ≠ 0 := by decide
  have closing : ∀ c ∈ cString " pages (4KB each)", c ≠ 0 := by decide
  constructor
  · have parts : (memText freePages totalPages).length =
        (numeral false 10 freePages).length + (numeral false 10 totalPages).length + 26 := by
      simp only [memText, List.length_append]
      change 6 + _ + 3 + _ + 17 = _
      omega
    rw [parts]
    simp only [decimalBufSize, termCols] at freeShort totalShort ⊢
    omega
  · intro c listed
    simp only [memText, List.mem_append] at listed
    rcases listed with (((start | first) | slash) | second) | ends
    · exact opening c start
    · exact decimal_visible freePages c first
    · exact middle c slash
    · exact decimal_visible totalPages c second
    · exact closing c ends

theorem memLine_some {freePages totalPages : Word} (free : freePages.toNat < 10 ^ decimalBufSize)
    (total : totalPages.toNat < 10 ^ decimalBufSize) :
    memLine freePages totalPages = some (memText freePages.toNat totalPages.toNat ++ [0]) := by
  have freeShort := length_decimal_le (by decide) free
  have totalShort := length_decimal_le (by decide) total
  have fits := (memText_fits free total).short
  have slash : ∀ line : List (BitVec 8), line.length ≤ 22 →
      lineCopy (fun _ => true) (literal " / ") line = some (line ++ cString " / ") := by
    intro line short
    refine lineCopy_some (by decide) (fun _ _ => rfl) ?_ []
    change line.length + 3 ≤ 61
    omega
  let left := cString "Free: " ++ numeral false 10 freePages.toNat ++ cString " / " ++
    numeral false 10 totalPages.toNat
  have ends : lineCopy (· < termCols) (literal " pages (4KB each)") left =
      some (memText freePages.toNat totalPages.toNat) := by
    have whole : left.length + (cString " pages (4KB each)").length ≤ termCols := by
      rw [← List.length_append]
      exact fits
    exact lineCopy_some (by decide)
      (fun pos below => decide_eq_true (Nat.lt_of_lt_of_le below whole))
      (Nat.le_succ_of_le whole) []
  have start : lineCopy (fun _ => true) (literal "Free: ") [] = some (cString "Free: ") := by decide
  simp only [decimalBufSize] at freeShort totalShort
  have length : (cString "Free: ").length = 6 := rfl
  simp only [memLine, Option.bind_eq_bind]
  rw [start, Option.bind_some, decimalBuf_some free, Option.bind_some, putNumber_some _ (by
      simp only [List.length_reverse, length, termCols]; omega), Option.bind_some,
    List.reverse_reverse, slash _ (by simp only [List.length_append, length]; omega),
    Option.bind_some, decimalBuf_some total, Option.bind_some, putNumber_some _ (by
      simp only [List.length_append, List.length_reverse, length, termCols]
      change 6 + _ + 3 + _ ≤ 61
      omega), Option.bind_some, List.reverse_reverse, ends, Option.bind_some]
  exact linePut_some 0 (Nat.lt_succ_of_le fits)

/-- Of the word before an unknown command only four letters are left. -/
theorem unknownLine_some {input : List (BitVec 8)} {count : Nat} (short : count ≤ inputMax)
    (enough : count ≤ input.length) :
    unknownLine input count = some (cString "Unkn" ++ input.take count ++ [0]) := by
  have start : lineCopy (· < termCols - inputMax) (literal "Unknown: ") [] =
      some (cString "Unkn") := by decide
  have fits : (cString "Unkn").length + count ≤ termCols := by
    change 4 + count ≤ 60
    simp only [inputMax] at short
    omega
  have room : (cString "Unkn" ++ input.take count).length < termCols + 1 := by
    rw [List.length_append, List.length_take, Nat.min_eq_left enough]
    exact Nat.lt_succ_of_le fits
  simp only [unknownLine, Option.bind_eq_bind]
  rw [start, Option.bind_some, lineInput_some enough fits, Option.bind_some, linePut_some 0 room]

/-- The loop of `ps` puts a line for each live task. -/
theorem psLoop_shows (shows : term.Displays (lines.rtake termRows)) (agrees : env.Agrees other) :
    ∃ next, loopUp (psTurn env) maxTasks term = some next ∧
      next.Displays ((lines ++ other.taskLines maxTasks).rtake termRows) := by
  have start : term.Displays ((lines ++ other.taskLines 0).rtake termRows) := by
    simpa [SessionEnv.taskLines] using shows
  have turn : ∀ i < maxTasks, ∀ term : Term,
      term.Displays ((lines ++ other.taskLines i).rtake termRows) →
      ∃ next, psTurn env i term = some next ∧
        next.Displays ((lines ++ other.taskLines (i + 1)).rtake termRows) := by
    intro i below term shows
    have inRange : taskGet env.states i = if other.states i = .dead then none else some i := by
      simp only [taskGet, Int.toNat_natCast, agrees.states]
      rw [if_neg (by omega)]
    rw [psTurn, inRange, SessionEnv.taskLines, List.range_succ, List.filter_append,
      List.map_append, ← List.append_assoc]
    by_cases dead : other.states i = .dead
    · rw [if_pos dead]
      exact ⟨term, rfl, by simpa [dead, SessionEnv.taskLines] using shows⟩
    · obtain ⟨next, put, after⟩ :=
        putline_shows shows (psText_fits below (env.names i) (env.states i)) []
      rw [if_neg dead]
      simp only [psLine_some, Option.bind_some]
      rw [agrees.names, agrees.states] at after
      exact ⟨next, put, by simpa [dead, SessionEnv.taskLines] using after⟩
  exact loopUp_holds start turn

theorem FitsLine.concat {added : List (List (BitVec 8))}
    (before : ∀ line ∈ lines, FitsLine line) (after : ∀ line ∈ added, FitsLine line) :
    ∀ line ∈ lines ++ added, FitsLine line := fun line listed =>
  (List.mem_append.mp listed).elim (before line) (after line)

theorem fitsLine_of_check {line : List (BitVec 8)}
    (check : line.length ≤ termCols ∧ ∀ c ∈ line, c ≠ 0) : FitsLine line := ⟨check.1, check.2⟩

theorem taskLines_fit (agrees : env.Agrees other) :
    ∀ line ∈ cString "Tasks:" :: other.taskLines maxTasks, FitsLine line := by
  intro line listed
  rcases List.mem_cons.mp listed with rfl | task
  · exact fitsLine_of_check (by decide)
  · obtain ⟨i, inTable, rfl⟩ := List.mem_map.mp task
    have below := List.mem_range.mp (List.mem_filter.mp inTable).1
    rw [← agrees.names]
    exact psText_fits below (env.names i) (other.states i)

theorem pages_short (agrees : env.Agrees other) :
    env.mm.getFreePages.toNat = maxPages - other.mm.usedCount ∧
      env.mm.totalPages.toNat = maxPages := by
  obtain ⟨used, total⟩ := agrees.counted.toNat
  refine ⟨?_, total⟩
  rw [agrees.counted.getFreePages.2, used, total, agrees.mm]

/-- What the commands put, and that all of it fits. -/
theorem command_shows (shows : shell.Shows session) (agrees : env.Agrees other)
    {rest : List (BitVec 8)} (entered : shell.termInput = session.typed ++ 0 :: rest)
    (length : shell.termInputLen = session.typed.length) :
    ∃ term, shell.command env = some term ∧
      term.Displays ((session.enter other).lines.rtake termRows) ∧
      ∀ line ∈ (session.enter other).lines, FitsLine line := by
  have compare : ∀ text, (∀ c ∈ cString text, c ≠ 0) →
      strEq shell.termInput (literal text) = some (decide (session.typed = cString text)) :=
    fun text visible => by rw [entered, literal, strEq_terminated shows.visible visible]
  simp only [Shell.command, compare "help" (by decide), compare "clear" (by decide),
    compare "ps" (by decide), compare "mem" (by decide), Option.bind_eq_bind, Option.bind_some,
    decide_eq_true_eq, Session.enter]
  by_cases help : session.typed = cString "help"
  · have fits : FitsLine (cString "Commands: help, clear, ps, mem") :=
      fitsLine_of_check (by decide)
    obtain ⟨next, put, after⟩ := putline_shows shows.displays fits []
    rw [if_pos help, if_pos help]
    exact ⟨next, put, after, FitsLine.concat shows.lines (by simpa using fits)⟩
  by_cases clear : session.typed = cString "clear"
  · obtain ⟨next, cleared, after⟩ := termClear_displays shell.term
    rw [if_neg help, if_neg help, if_pos clear, if_pos clear]
    exact ⟨next, cleared, after, by simp⟩
  by_cases ps : session.typed = cString "ps"
  · have fits := taskLines_fit agrees
    obtain ⟨middle, put, before⟩ := putline_shows shows.displays (fits _ List.mem_cons_self) []
    obtain ⟨next, looped, after⟩ := psLoop_shows before agrees
    rw [if_neg help, if_neg help, if_neg clear, if_neg clear, if_pos ps, if_pos ps]
    rw [List.append_assoc] at after
    refine ⟨next, ?_, after, FitsLine.concat shows.lines fits⟩
    rw [literal, put, Option.bind_some, looped]
  rw [if_neg help, if_neg help, if_neg clear, if_neg clear, if_neg ps, if_neg ps]
  by_cases mem : session.typed = cString "mem"
  · obtain ⟨free, total⟩ := pages_short agrees
    have freeShort : env.mm.getFreePages.toNat < 10 ^ decimalBufSize := by
      rw [free, maxPages_eq]
      exact Nat.lt_of_le_of_lt (Nat.sub_le _ _) (by decide)
    have totalShort : env.mm.totalPages.toNat < 10 ^ decimalBufSize := by
      rw [total, maxPages_eq]
      decide
    have fits := memText_fits freeShort totalShort
    obtain ⟨next, put, after⟩ := putline_shows shows.displays fits []
    rw [if_pos mem, if_pos mem, memLine_some freeShort totalShort, Option.bind_some]
    rw [free, total] at put after fits
    rw [free, total]
    exact ⟨next, put, after, FitsLine.concat shows.lines (by simpa using fits)⟩
  rw [if_neg mem, if_neg mem]
  by_cases nothing : session.typed = []
  · have none : ¬shell.termInputLen > 0 := by rw [length, nothing]; exact Nat.lt_irrefl 0
    rw [if_neg none, if_pos nothing]
    exact ⟨shell.term, rfl, shows.displays, shows.lines⟩
  · have any : shell.termInputLen > 0 := length ▸ List.length_pos_iff.mpr nothing
    have text : shell.termInput.take shell.termInputLen = session.typed := shows.typed
    have enough : shell.termInputLen ≤ shell.termInput.length :=
      shows.size ▸ Nat.le_succ_of_le shows.short
    have fits : FitsLine (cString "Unkn" ++ session.typed) := by
      constructor
      · rw [List.length_append, ← length]
        exact Nat.add_le_add_left shows.short 4
      · intro c listed
        have word : ∀ c ∈ cString "Unkn", c ≠ 0 := by decide
        exact (List.mem_append.mp listed).elim (word c) (shows.visible c)
    obtain ⟨next, put, after⟩ := putline_shows shows.displays fits []
    rw [if_pos any, if_neg nothing, unknownLine_some shows.short enough, Option.bind_some, text]
    exact ⟨next, put, after, FitsLine.concat shows.lines (by simpa using fits)⟩

theorem Shell.Shows.length (shows : shell.Shows session) :
    shell.termInputLen = session.typed.length := by
  have short := shows.short
  rw [← shows.typed, List.length_take, shows.size]
  omega

theorem take_set_succ {buf : List (BitVec 8)} {i : Nat} (inside : i < buf.length) (c : BitVec 8) :
    (buf.set i c).take (i + 1) = buf.take i ++ [c] := by
  rw [List.set_eq_take_append_cons_drop, if_pos inside, List.take_append, List.length_take,
    Nat.min_eq_left inside.le, List.take_take, Nat.min_eq_right (Nat.le_succ i),
    Nat.add_sub_cancel_left]
  rfl

theorem enter_shows (shows : shell.Shows session) (agrees : env.Agrees other) :
    ∃ next, shell.termHandleKey env keyEnter = some next ∧ next.Shows (session.enter other) := by
  have inside : shell.termInputLen < shell.termInput.length :=
    shows.size ▸ Nat.lt_succ_of_le shows.short
  have entered : shell.termInput.set shell.termInputLen 0 =
      session.typed ++ 0 :: shell.termInput.drop (shell.termInputLen + 1) := by
    rw [List.set_eq_take_append_cons_drop, if_pos inside, shows.typed]
  let closed : Shell := { shell with termInput := shell.termInput.set shell.termInputLen 0 }
  have closedShows : closed.Shows session := { shows with
    size := List.length_set.trans shows.size
    typed := by
      change (shell.termInput.set shell.termInputLen 0).take shell.termInputLen = _
      rw [entered, shows.length, List.take_append_of_le_length (Nat.le_refl _), List.take_length] }
  obtain ⟨term, run, displays, fits⟩ := command_shows closedShows agrees entered shows.length
  refine ⟨{ closed with term, termInputLen := 0 }, ?_, ?_⟩
  · rw [Shell.termHandleKey, if_pos rfl, putByte, if_pos inside]
    simp only [Option.bind_eq_bind, Option.bind_some]
    rw [run]
    rfl
  · exact {
      displays
      size := closedShows.size
      typed := rfl
      short := Nat.zero_le _
      visible := by simp [Session.enter]
      lines := fits }

theorem key_shows (shows : shell.Shows session) (agrees : env.Agrees other) (key : Int) :
    ∃ next, shell.termHandleKey env key = some next ∧ next.Shows (session.key other key) := by
  by_cases enter : key = keyEnter
  · rw [Session.key, if_pos enter, enter]
    exact enter_shows shows agrees
  rw [Shell.termHandleKey, Session.key, if_neg enter, if_neg enter]
  have short := shows.short
  have inside : shell.termInputLen < shell.termInput.length :=
    shows.size ▸ Nat.lt_succ_of_le short
  by_cases backspace : key = keyBackspace
  · rw [if_pos backspace, if_pos backspace]
    have fewer : (if shell.termInputLen > 0 then shell.termInputLen - 1 else shell.termInputLen) =
        shell.termInputLen - 1 := by
      split <;> omega
    have typed : shell.termInput.take (shell.termInputLen - 1) = session.typed.dropLast := by
      rw [← shows.typed, List.dropLast_take inside]
    refine ⟨_, rfl, { shows with typed := ?_, short := ?_, visible := fun c listed => ?_ }⟩
    · rw [fewer, typed]
    · rw [fewer]
      exact Nat.le_trans (Nat.sub_le _ _) short
    · exact shows.visible c (List.mem_of_mem_dropLast listed)
  rw [if_neg backspace, if_neg backspace, shows.length]
  by_cases types : key ≥ 32 ∧ key < 127 ∧ session.typed.length < inputMax
  · rw [if_pos types, if_pos types, putByte, if_pos (shows.length ▸ inside)]
    refine ⟨_, rfl, { shows with size := ?_, typed := ?_, short := ?_, visible := fun c listed => ?_ }⟩
    · exact List.length_set.trans shows.size
    · rw [take_set_succ (shows.length ▸ inside), ← shows.length, shows.typed]
    · exact types.2.2
    · rcases List.mem_append.mp listed with before | last
      · exact shows.visible c before
      · obtain rfl := List.mem_singleton.mp last
        intro zero
        have value := congrArg BitVec.toNat zero
        rw [BitVec.toNat_ofInt] at value
        simp only [BitVec.ofNat_eq_ofNat, BitVec.toNat_ofNat] at value
        omega
  · rw [if_neg types, if_neg types]
    exact ⟨shell, rfl, shows⟩

theorem appInit_shows (size : shell.termInput.length = inputMax + 1) :
    ∃ next, shell.appInit = some next ∧ next.Shows .opened := by
  have fits : ∀ line ∈ Session.opened.lines, FitsLine line := by
    intro line listed
    have checked : ∀ line ∈ Session.opened.lines, line.length ≤ termCols ∧ ∀ c ∈ line, c ≠ 0 := by
      decide
    exact fitsLine_of_check (checked line listed)
  obtain ⟨empty, cleared, start⟩ := termClear_displays shell.term
  have none : empty.Displays (([] : List (List (BitVec 8))).rtake termRows) := start
  obtain ⟨one, first, shows⟩ := putline_shows none (fits _ List.mem_cons_self) []
  obtain ⟨two, second, shows⟩ :=
    putline_shows shows (fits _ (List.mem_cons_of_mem _ List.mem_cons_self)) []
  obtain ⟨three, third, shows⟩ := putline_shows shows
    (fits _ (List.mem_cons_of_mem _ (List.mem_cons_of_mem _ List.mem_cons_self))) []
  refine ⟨{ shell with term := three, termInputLen := 0 }, ?_, ?_⟩
  · have blank : cString "" = [] := rfl
    simp only [Shell.appInit, literal, Option.bind_eq_bind, cleared, first, second, blank, third,
      Option.bind_some]
    rfl
  · exact {
      displays := shows
      size
      typed := rfl
      short := Nat.zero_le _
      visible := by simp [Session.opened]
      lines := fits }

end Commands

section Names

theorem cText_set_zero {bytes : List (BitVec 8)} {j : Nat} (inside : j < bytes.length)
    (visible : ∀ c ∈ bytes.take j, c ≠ 0) : cText (bytes.set j 0) = bytes.take j := by
  rw [List.set_eq_take_append_cons_drop, if_pos inside, cText_terminated visible]

theorem fillName_text {bytes : List (BitVec 8)} {name : List (BitVec 8)} {j : Nat}
    (size : bytes.length = taskNameSize) (inside : j < taskNameSize)
    (visible : ∀ c ∈ bytes.take j, c ≠ 0) :
    cText (fillName bytes name j) = bytes.take j ++ (cText name).take (taskNameSize - 1 - j) := by
  have ends := cText_set_zero (size ▸ inside) visible
  induction name generalizing bytes j with
  | nil =>
      have none : cText ([] : List (BitVec 8)) = [] := rfl
      rw [fillName, ends, none, List.take_nil, List.append_nil]
  | cons c rest ih =>
      rw [fillName]
      split
      next more =>
        have next : j + 1 < taskNameSize := by have below := more.1; omega
        have grown := take_set_succ (size ▸ inside) c
        have sameSize : (bytes.set j c).length = taskNameSize := List.length_set.trans size
        have shown : ∀ d ∈ (bytes.set j c).take (j + 1), d ≠ 0 := by
          intro d listed
          rw [grown] at listed
          rcases List.mem_append.mp listed with before | last
          · exact visible d before
          · exact List.mem_singleton.mp last ▸ more.2
        have left : taskNameSize - 1 - j = taskNameSize - 1 - (j + 1) + 1 := by
          have below := more.1
          omega
        rw [ih sameSize next shown (cText_set_zero (sameSize ▸ next) shown), grown,
          cText_cons more.2, left, List.take_succ_cons, List.append_assoc]
        rfl
      next stop =>
        have none : (cText (c :: rest)).take (taskNameSize - 1 - j) = [] := by
          by_cases last : c = 0
          · simp [cText, last]
          · have full : taskNameSize - 1 - j = 0 := by
              have wide : ¬j < taskNameSize - 1 := fun below => stop ⟨below, last⟩
              omega
            rw [full, List.take_zero]
        rw [ends, none, List.append_nil]

theorem copy_text (old : TaskName) (name : List (BitVec 8)) :
    cText (old.copy name).bytes = (cText name).take (taskNameSize - 1) :=
  fillName_text old.size (by decide) (by simp)

end Names

theorem ShellEnv.Agrees.next {env : ShellEnv} {other : SessionEnv} (agrees : env.Agrees other)
    (action : ShellAction) : (env.next action).Agrees (other.next action) := by
  cases action with
  | key key => exact agrees
  | start => exact agrees
  | named slot name =>
      refine { agrees with names := fun query => ?_ }
      simp only [ShellEnv.next, SessionEnv.next]
      by_cases same : query = slot
      · subst same
        rw [Function.update_self, Function.update_self, copy_text]
      · rw [Function.update_of_ne same, Function.update_of_ne same, agrees.names]
  | scheduled states => exact { agrees with states := rfl }
  | mm call =>
      exact { agrees with
        mm := congrArg (Mm.call · call) agrees.mm
        counted := agrees.counted.call call }

structure ShellSystem.Shows (system : ShellSystem) (session : SessionSystem) : Prop where
  shell : system.shell.Shows session.session
  env : system.env.Agrees session.env

theorem ShellSystem.Shows.step {system : ShellSystem} {session : SessionSystem}
    (shows : system.Shows session) (action : ShellAction) :
    ∃ next, system.step action = some next ∧ next.Shows (session.step action) := by
  have env := shows.env.next action
  cases action with
  | key key =>
      obtain ⟨shell, run, after⟩ := key_shows shows.shell shows.env key
      exact ⟨⟨shell, system.env⟩, by simp [ShellSystem.step, run, ShellEnv.next], after, env⟩
  | start =>
      obtain ⟨shell, run, after⟩ := appInit_shows shows.shell.size
      exact ⟨⟨shell, system.env⟩, by simp [ShellSystem.step, run, ShellEnv.next], after, env⟩
  | named slot name => exact ⟨_, rfl, shows.shell, env⟩
  | scheduled states => exact ⟨_, rfl, shows.shell, env⟩
  | mm call => exact ⟨_, rfl, shows.shell, env⟩

theorem shell_boot_shows : Shell.boot.Shows .empty where
  displays := Term.boot_displays
  size := rfl
  typed := rfl
  short := Nat.zero_le _
  visible := by simp [Session.empty]
  lines := by simp [Session.empty]

theorem shellBoot_shows (image : KernelImage) (memory : Memory) :
    (ShellSystem.boot image memory).Shows (.boot image memory) where
  shell := shell_boot_shows
  env := {
    states := rfl
    names := fun _ => rfl
    mm := rfl
    counted := mmInit_counted image memory }

/-- No key ever writes outside of a buffer, and the terminal always shows the last lines of the
session: the input is edited as a line, `ps` lists the live tasks under the names they were
created with, and `mem` counts the pages. -/
theorem shell_shows_session (image : KernelImage) (memory : Memory) (actions : List ShellAction) :
    ∃ system, Transition.exec ShellSystem.step (.boot image memory) actions = some system ∧
      system.Shows (actions.foldl SessionSystem.step (.boot image memory)) := by
  induction actions using List.reverseRecOn with
  | nil => exact ⟨_, rfl, shellBoot_shows image memory⟩
  | append_singleton actions action ih =>
      obtain ⟨system, run, shows⟩ := ih
      obtain ⟨next, stepped, after⟩ := shows.step action
      rw [List.foldl_append]
      exact ⟨next, Transition.exec_append_iff.mpr ⟨system, run, by simp [Transition.exec, stepped]⟩,
        after⟩

end DragoonKernel
