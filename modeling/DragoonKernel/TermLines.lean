import DragoonKernel.TermCore
import DragoonKernel.Library.Transition
import Mathlib.Data.List.DropRight

/-!
What the terminal shows after any calls: the last of the lines put since it was cleared.
-/

namespace DragoonKernel

def emptyRow : List (BitVec 8) := List.replicate (termCols + 1) 0

/-- The characters of a string before its terminator. -/
def cText (s : List (BitVec 8)) : List (BitVec 8) := s.takeWhile (· ≠ 0)

/-- A row with the first characters of a line, a terminator and nothing else. -/
def shownLine (s : List (BitVec 8)) : List (BitVec 8) :=
  ((cText s).take termCols).rightpad (termCols + 1) 0

/-- The lines put since the last clear. -/
def linesSinceClear (calls : List TermCall) : List (List (BitVec 8)) :=
  calls.foldl (fun lines call =>
    match call with
    | .putline s => lines ++ [s]
    | .clear => []) []

/-- The rows in use are the lines, from top to bottom, and the others are empty. -/
structure Term.Displays (term : Term) (lines : List (List (BitVec 8))) : Prop where
  rows : term.termBuf.contents = (lines.map shownLine).rightpad termRows emptyRow
  used : term.termRow = lines.length

variable {term : Term} {lines : List (List (BitVec 8))}

/-- What `putChars` makes of the characters written so far. -/
def putText (s written : List (BitVec 8)) : List (BitVec 8) :=
  written ++ (cText s).take (termCols - written.length)

theorem putText_stop {ch : BitVec 8} {rest written : List (BitVec 8)}
    (stop : ¬(ch ≠ 0 ∧ written.length < termCols)) : putText (ch :: rest) written = written := by
  by_cases last : ch = 0
  · simp [putText, cText, last]
  · have full : termCols - written.length = 0 := by
      have wide : ¬written.length < termCols := fun below => stop ⟨last, below⟩
      omega
    rw [putText, full, List.take_zero, List.append_nil]

theorem putText_cons {ch : BitVec 8} {rest written : List (BitVec 8)} (more : ch ≠ 0)
    (room : written.length < termCols) :
    putText (ch :: rest) written = putText rest (written ++ [ch]) := by
  have left : termCols - written.length = termCols - (written ++ [ch]).length + 1 := by
    rw [List.length_append, List.length_singleton]
    omega
  have text : cText (ch :: rest) = ch :: cText rest :=
    List.takeWhile_cons_of_pos (decide_eq_true more)
  rw [putText, putText, left, text, List.take_succ_cons, List.append_assoc, List.singleton_append]

theorem putText_fits {s written : List (BitVec 8)} (fits : written.length ≤ termCols) :
    (putText s written).length ≤ termCols := by
  rw [putText, List.length_append, List.length_take]
  omega

theorem putChars_row {termRow : Nat} {s written : List (BitVec 8)} {buf : TermBuf}
    (inside : termRow < termRows) (fits : written.length ≤ termCols)
    (here : buf.row termRow = written.rightpad (termCols + 1) 0) :
    ∃ next, putChars termRow s written.length buf = some (next, (putText s written).length) ∧
      next.row termRow = (putText s written).rightpad (termCols + 1) 0 ∧
      ∀ i ≠ termRow, next.row i = buf.row i := by
  -- the row is always the text so far, filled up with zeros
  induction s generalizing written buf with
  | nil =>
      have text : putText [] written = written := by simp [putText, cText]
      rw [text]
      exact ⟨buf, rfl, here, fun _ _ => rfl⟩
  | cons ch rest ih =>
      rw [putChars]
      split
      next more =>
        obtain ⟨middle, stored, set, apart⟩ :=
          Grid.store_row buf inside (Nat.lt_succ_of_lt more.2) ch
        rw [here, List.rightpad_set (Nat.lt_succ_of_lt more.2)] at set
        have length : (written ++ [ch]).length = written.length + 1 := List.length_append
        obtain ⟨next, run, shown, others⟩ := ih (length ▸ more.2) set
        rw [stored, Option.bind_some, putText_cons more.1 more.2, ← length]
        exact ⟨next, run, shown, fun i other => (others i other).trans (apart i other)⟩
      next stop =>
        rw [putText_stop stop]
        exact ⟨buf, rfl, here, fun _ _ => rfl⟩

theorem shownLine_eq (s : List (BitVec 8)) :
    shownLine s = (putText s []).rightpad (termCols + 1) 0 := rfl

/-- A terminator after a text that is shown already changes nothing. -/
theorem rightpad_terminated {text : List (BitVec 8)} (fits : text.length ≤ termCols) :
    (text.rightpad (termCols + 1) 0).set text.length 0 = text.rightpad (termCols + 1) 0 := by
  obtain ⟨free, room⟩ := Nat.exists_eq_add_of_le fits
  have left : termCols + 1 - text.length = free + 1 := by omega
  rw [List.rightpad, left, List.set_append_right _ _ (Nat.le_refl _), Nat.sub_self,
    List.replicate_succ, List.set_cons_zero]

theorem Term.boot_displays : Term.boot.Displays [] where
  rows := rfl
  used := rfl

theorem termClear_displays (term : Term) :
    ∃ next, term.termClear = some next ∧ next.Displays [] := by
  obtain ⟨buf, cleared, empty⟩ := Grid.fillRows_contents term.termBuf (0 : BitVec 8)
  refine ⟨⟨buf, 0⟩, by rw [Term.termClear, cleared]; rfl, ?_, rfl⟩
  rw [empty]
  rfl

theorem termScroll_displays (shows : term.Displays lines) (full : lines.length = termRows) :
    ∃ next, term.termScroll = some next ∧ next.Displays lines.tail := by
  obtain ⟨buf, scrolled, rows⟩ :=
    Grid.scrollUp_contents term.termBuf (show termRows = termRows - 1 + 1 from rfl) (0 : BitVec 8)
  have length : lines.tail.length = termRows - 1 := by rw [List.length_tail, full]
  refine ⟨⟨buf, termRows - 1⟩, by rw [Term.termScroll, scrolled]; rfl, ?_, length.symm⟩
  rw [rows, shows.rows]
  simp [List.rightpad, full, termRows, emptyRow]

/-- The row that comes next is empty. -/
theorem Term.Displays.nextRow (shows : term.Displays lines) (room : lines.length < termRows) :
    term.termBuf.row term.termRow = ([] : List (BitVec 8)).rightpad (termCols + 1) 0 := by
  have listed : term.termBuf.contents[term.termRow]? = some emptyRow := by
    rw [shows.rows, shows.used, List.rightpad,
      List.getElem?_append_right (List.length_map _).le, List.length_map, Nat.sub_self,
      List.getElem?_replicate, if_pos (Nat.sub_pos_of_lt room)]
  rw [Grid.getElem?_contents, if_pos (shows.used ▸ room)] at listed
  exact Option.some.inj listed

theorem termPutline_displays (shows : term.Displays lines) (room : lines.length < termRows)
    (s : List (BitVec 8)) :
    ∃ next, term.termPutline s = some next ∧ next.Displays (lines ++ [s]) := by
  have inside : term.termRow < termRows := shows.used ▸ room
  obtain ⟨buf, run, shown, others⟩ :=
    putChars_row (s := s) inside (Nat.zero_le _) (shows.nextRow room)
  have fits : (putText s []).length ≤ termCols := putText_fits (Nat.zero_le _)
  obtain ⟨next, stored, set, apart⟩ :=
    Grid.store_row buf inside (Nat.lt_succ_of_le fits) (0 : BitVec 8)
  rw [shown, rightpad_terminated fits] at set
  refine ⟨⟨next, term.termRow + 1⟩, ?_, ?_, ?_⟩
  · rw [Term.termPutline, if_neg (Nat.not_le.mpr inside)]
    simp only [List.length_nil] at run
    simp only [Option.bind_eq_bind, Option.bind_some, run, stored]
    rfl
  · rw [Grid.contents_eq_set inside set fun i other => (apart i other).trans (others i other),
      shows.rows, shows.used, ← shownLine_eq, List.map_append, List.map_singleton,
      ← List.rightpad_set (by rwa [List.length_map]), List.length_map]
  · rw [shows.used, List.length_append, List.length_singleton]

theorem termPutline_scroll {scrolled : Term} (full : term.termRow ≥ termRows)
    (run : term.termScroll = some scrolled) (room : scrolled.termRow < termRows)
    (s : List (BitVec 8)) : term.termPutline s = scrolled.termPutline s := by
  rw [Term.termPutline, Term.termPutline, if_pos full, if_neg (Nat.not_le.mpr room), run]

theorem rtake_of_few (few : lines.length ≤ termRows) : lines.rtake termRows = lines := by
  rw [List.rtake, Nat.sub_eq_zero_of_le few, List.drop_zero]

theorem rtake_concat_of_full (full : termRows ≤ lines.length) (s : List (BitVec 8)) :
    (lines ++ [s]).rtake termRows = (lines.rtake termRows).tail ++ [s] := by
  have split : (lines ++ [s]).rtake termRows = lines.rtake (termRows - 1) ++ [s] :=
    List.rtake_concat_succ lines (termRows - 1) s
  rw [split, List.rtake, List.rtake, List.tail_drop]
  congr 2
  have some : 0 < termRows := Nat.zero_lt_succ _
  omega

theorem putline_displays (shows : term.Displays (lines.rtake termRows)) (s : List (BitVec 8)) :
    ∃ next, term.termPutline s = some next ∧ next.Displays ((lines ++ [s]).rtake termRows) := by
  by_cases full : termRows ≤ lines.length
  · have length : (lines.rtake termRows).length = termRows := by
      rw [List.rtake, List.length_drop]
      omega
    obtain ⟨scrolled, run, moved⟩ := termScroll_displays shows length
    have room : (lines.rtake termRows).tail.length < termRows := by
      rw [List.length_tail, length]
      exact Nat.lt_succ_self _
    rw [termPutline_scroll (shows.used ▸ length.ge) run (moved.used ▸ room) s,
      rtake_concat_of_full full]
    exact termPutline_displays moved room s
  · have few : lines.length < termRows := Nat.not_le.mp full
    have length : (lines ++ [s]).length = lines.length + 1 := List.length_append
    rw [rtake_of_few few.le] at shows
    rw [rtake_of_few (length ▸ few)]
    exact termPutline_displays shows few s

/-- From an empty terminal no write goes outside of the buffer, and after any calls it shows
the last lines since the last clear. -/
theorem term_displays_lastLines {start : Term} (empty : start.Displays [])
    (calls : List TermCall) :
    ∃ term, Transition.exec Term.step start calls = some term ∧
      term.Displays ((linesSinceClear calls).rtake termRows) := by
  induction calls using List.reverseRecOn with
  | nil => exact ⟨start, rfl, empty⟩
  | append_singleton calls call ih =>
      obtain ⟨term, run, shows⟩ := ih
      simp only [Transition.exec_append_iff, Transition.exec_cons_iff, Transition.exec_nil,
        linesSinceClear, List.foldl_append, List.foldl_cons, List.foldl_nil]
      cases call with
      | putline s =>
          obtain ⟨next, put, after⟩ := putline_displays shows s
          exact ⟨next, ⟨term, run, next, put, rfl⟩, after⟩
      | clear =>
          obtain ⟨next, cleared, after⟩ := termClear_displays term
          exact ⟨next, ⟨term, run, next, cleared, rfl⟩, after⟩

theorem term_displays_lastLines_boot :
    Term.boot.Displays [] ∧ ∃ term,
      Transition.exec Term.step Term.boot [.putline [72, 105], .clear, .putline [72, 111]] =
        some term ∧ term.Displays [[72, 111]] :=
  ⟨Term.boot_displays, term_displays_lastLines Term.boot_displays _⟩

end DragoonKernel
