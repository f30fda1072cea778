import DragoonKernel.TetrisCore

/-!
What `clear_lines` makes of the rows of a board.
-/

namespace DragoonKernel

def emptyLine : List (BitVec 8) := List.replicate boardW 0

def fullLine (line : List (BitVec 8)) : Bool := line.all (· != 0)

theorem rowFull_eq (board : Board) (r : Nat) : board.rowFull r = fullLine (board.row r) := by
  rw [Board.rowFull, fullLine, Grid.row, List.all_map]
  rfl

theorem fullLine_row_eq_false {board : Board} {r : Nat} :
    fullLine (board.row r) = false ↔ ∃ c < boardW, board.cell r c = 0 := by
  rw [← rowFull_eq, Board.rowFull, List.all_eq_false]
  simp only [List.mem_range, bne_iff_ne, ne_eq, not_not]

theorem fullLine_emptyLine : fullLine emptyLine = false := rfl

section ClearFrom

variable {turns cleared : Nat} {board : Board} {top below : List (List (BitVec 8))}
  {line : List (BitVec 8)}

theorem rowFull_of_contents (rows : board.contents = top ++ line :: below) :
    top.length < boardH ∧ board.rowFull top.length = fullLine line := by
  have listed : board.contents[top.length]? = some line := by
    rw [rows, List.getElem?_append_right (Nat.le_refl _), Nat.sub_self, List.getElem?_cons_zero]
  rw [Grid.getElem?_contents] at listed
  split at listed
  next inside => exact ⟨inside, by rw [rowFull_eq, Option.some.inj listed]⟩
  next => cases listed

/-- A full row goes, those above it come down, and the same place is looked at again. -/
theorem clearFrom_full (rows : board.contents = top ++ line :: below)
    (full : fullLine line = true) :
    ∃ moved : Board, moved.contents = (emptyLine :: top) ++ below ∧
      ∀ turns cleared, clearFrom (turns + 1) (top.length + 1) board cleared =
        clearFrom turns (emptyLine :: top).length moved (cleared + 1) := by
  obtain ⟨inside, here⟩ := rowFull_of_contents rows
  obtain ⟨moved, run, dropped⟩ := Grid.dropRow_contents board inside (0 : BitVec 8)
  refine ⟨moved, ?_, fun turns cleared => ?_⟩
  · rw [dropped, rows, List.eraseIdx_append_of_length_le (Nat.le_refl _), Nat.sub_self]
    rfl
  · rw [clearFrom, here, if_pos full, run]
    rfl

theorem clearFrom_kept (rows : board.contents = top ++ line :: below)
    (kept : fullLine line = false) :
    clearFrom (turns + 1) (top.length + 1) board cleared =
      clearFrom turns top.length board cleared := by
  rw [clearFrom, (rowFull_of_contents rows).2, kept]
  exact if_neg Bool.false_ne_true

/-- The rows of `top` are still to be looked at, and those `below` them stay. -/
theorem clearFrom_contents (rows : board.contents = top ++ below)
    (enough : top.length + top.countP fullLine < turns) :
    ∃ next, clearFrom turns top.length board cleared =
        some (next, cleared + top.countP fullLine) ∧
      next.contents = List.replicate (top.countP fullLine) emptyLine ++
        (top.filter (!fullLine ·) ++ below) := by
  -- a turn takes a row from `top`, or puts an empty row there for a full one
  induction turns generalizing board cleared top below with
  | zero => exact absurd enough (Nat.not_lt_zero _)
  | succ turns ih =>
      rcases List.eq_nil_or_concat' top with rfl | ⟨init, line, rfl⟩
      · exact ⟨board, rfl, rows⟩
      · have length : (init ++ [line]).length = init.length + 1 := List.length_append
        rw [List.append_assoc, List.singleton_append] at rows
        rw [length] at enough ⊢
        cases full : fullLine line with
        | true =>
            have count : (init ++ [line]).countP fullLine = init.countP fullLine + 1 := by
              simp [full]
            have rest : (emptyLine :: init).countP fullLine = init.countP fullLine := by
              simp [fullLine_emptyLine]
            obtain ⟨moved, again, turn⟩ := clearFrom_full rows full
            obtain ⟨next, run, left⟩ := ih again (by rw [rest, List.length_cons]; omega)
            refine ⟨next, ?_, ?_⟩
            · rw [turn, run, rest, count, Nat.add_assoc, Nat.add_comm 1]
            · rw [left, rest, count, List.replicate_succ']
              simp [full, fullLine_emptyLine]
        | false =>
            have count : (init ++ [line]).countP fullLine = init.countP fullLine := by
              simp [full]
            rw [clearFrom_kept rows full]
            obtain ⟨next, run, left⟩ := ih rows (by omega)
            refine ⟨next, by rw [run, count], ?_⟩
            rw [left, count]
            simp [full]

end ClearFrom

theorem clearLines_contents (board : Board) :
    ∃ next, board.clearLines = some (next, board.contents.countP fullLine) ∧
      next.contents = List.replicate (board.contents.countP fullLine) emptyLine ++
        board.contents.filter (!fullLine ·) := by
  have length : board.contents.length = boardH := Grid.length_contents board
  have few : board.contents.countP fullLine ≤ board.contents.length := List.countP_le_length
  have enough : board.contents.length + board.contents.countP fullLine < clearTurns := by
    rw [length] at few
    rw [length, clearTurns]
    omega
  obtain ⟨next, run, rows⟩ := clearFrom_contents (List.append_nil board.contents).symm enough
  rw [length, Nat.zero_add] at run
  rw [List.append_nil] at rows
  exact ⟨next, run, rows⟩

/-- `clear_lines` returns the number of full rows and leaves the others, in their order, at the
bottom, with empty rows above them. -/
theorem clearLines_removesFullLines (board : Board) :
    ∃ next cl, board.clearLines = some (next, cl) ∧ cl = board.contents.countP fullLine ∧
      next.contents.take cl = List.replicate cl emptyLine ∧
        next.contents.drop cl = board.contents.filter (!fullLine ·) := by
  obtain ⟨next, run, rows⟩ := clearLines_contents board
  have length : (List.replicate (board.contents.countP fullLine) emptyLine).length =
      board.contents.countP fullLine := List.length_replicate
  refine ⟨next, _, run, rfl, ?_, ?_⟩
  · rw [rows, List.take_left' length]
  · rw [rows, List.drop_left' length]

end DragoonKernel
