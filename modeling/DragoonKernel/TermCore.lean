import DragoonKernel.Library.Grid

/-!
Executable model of the terminal buffer of `kernel/gui.c`. A call that writes outside of
`term_buf` fails.
-/

namespace DragoonKernel

def termCols : Nat := 60

def termRows : Nat := 20

abbrev TermBuf := Grid termRows (termCols + 1) (BitVec 8)

structure Term where
  termBuf : TermBuf
  termRow : Nat

/-- The static variables before any call. -/
def Term.boot : Term := ⟨⟨fun _ _ => 0⟩, 0⟩

def Term.termClear (term : Term) : Option Term := do
  let buf ← loopUp (Grid.fillRow 0) termRows term.termBuf
  return ⟨buf, 0⟩

def Term.termScroll (term : Term) : Option Term := do
  let buf ← (term.termBuf.shiftUp (termRows - 1)).bind (Grid.fillRow 0 (termRows - 1))
  return ⟨buf, termRows - 1⟩

/-- The loop of `term_putline`. The string is what its pointer leads to: a byte that is 0 or
the end of the list ends it. -/
def putChars (termRow : Nat) : List (BitVec 8) → Nat → TermBuf → Option (TermBuf × Nat)
  | [], c, buf => some (buf, c)
  | ch :: rest, c, buf =>
      if ch ≠ 0 ∧ c < termCols then
        (buf.store termRow c ch).bind (putChars termRow rest (c + 1))
      else some (buf, c)

def Term.termPutline (s : List (BitVec 8)) (term : Term) : Option Term := do
  let term ← if term.termRow ≥ termRows then term.termScroll else some term
  let (buf, c) ← putChars term.termRow s 0 term.termBuf
  let buf ← buf.store term.termRow c 0
  return ⟨buf, term.termRow + 1⟩

inductive TermCall where
  | putline (s : List (BitVec 8))
  | clear

def Term.step (term : Term) : TermCall → Option Term
  | .putline s => term.termPutline s
  | .clear => term.termClear

end DragoonKernel
