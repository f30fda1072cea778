import DragoonKernel.TetrisConsistent
import Mathlib.Algebra.Order.BigOperators.Group.List
import Mathlib.Algebra.Order.Ring.Nat

/-!
What happens to the cells of the pieces: they are on the board or in a line that was cleared. The
level and the speed follow from the lines.
-/

namespace DragoonKernel

def occupied (line : List (BitVec 8)) : Nat := line.countP (· != 0)

/-- The cells of the board that are not empty. -/
def Board.filled (board : Board) : Nat := (board.contents.map occupied).sum

/-- How many cells a row of a piece has. -/
def pieceRow (piece rot r : Nat) : Nat := (List.range 4).countP (pieceBit piece rot r)

/-- The cells of a piece that are not above the board. -/
def landing (piece rot : Nat) (y : Int) : Nat :=
  ((List.range 4).map fun r => if 0 ≤ y + (r : Nat) then pieceRow piece rot r else 0).sum

/-- The tick locks the piece. -/
def Tetris.Locks (game : Tetris) (now : BitVec 64) : Bool :=
  !game.gameOver && !((now - game.lastDrop).setWidth 32).slt game.dropInterval &&
    !game.board.fits game.curPiece game.curRot game.curX (game.curY + 1)

/-- How many lines a lock of the current piece clears. -/
def Tetris.clears (game : Tetris) : Nat :=
  (((game.board.lockPiece game.curPiece game.curRot game.curX game.curY).bind
    Board.clearLines).map Prod.snd).getD 0

/-- A run with the pieces that were locked, their cells on the board and the lines cleared. -/
structure TetrisRun where
  game : Tetris
  locks : Nat
  landed : Nat
  cleared : Nat

def TetrisRun.count (run : TetrisRun) : TetrisCall → TetrisRun
  | .tick now =>
      if run.game.Locks now then
        { run with
          locks := run.locks + 1
          landed := run.landed + landing run.game.curPiece run.game.curRot run.game.curY
          cleared := run.cleared + run.game.clears }
      else run
  | .key _ => run

def TetrisRun.step (run : TetrisRun) (call : TetrisCall) : Option TetrisRun :=
  (run.game.step call).map fun game => { run.count call with game }

/-- The interval of a level, as the code computes it. -/
def speedOf (lines : BitVec 32) : Int := max 8 (50 - 4 * lines.toInt.tdiv 10)

structure TetrisRun.Accounted (run : TetrisRun) : Prop where
  sound : run.game.Sound
  cells : run.game.board.filled + 10 * run.cleared = run.landed
  pieces : run.landed ≤ 4 * run.locks
  lines : run.game.lines = BitVec.ofNat 32 run.cleared
  level : run.game.level = 1 + run.game.lines.sdiv 10
  speed : run.game.dropInterval.toInt = speedOf run.game.lines

section Cells

variable {board next : Board}

theorem sum_set {values : List Nat} {i : Nat} (value : Nat) (inside : i < values.length) :
    (values.set i value).sum + values[i] = values.sum + value := by
  induction values generalizing i with
  | nil => exact absurd inside (Nat.not_lt_zero i)
  | cons first rest ih =>
      cases i with
      | zero => simp only [List.set_cons_zero, List.sum_cons, List.getElem_cons_zero]; omega
      | succ i =>
          have later := ih (Nat.lt_of_succ_lt_succ inside)
          simp only [List.set_cons_succ, List.sum_cons, List.getElem_cons_succ]
          omega

theorem occupied_set {cells : List (BitVec 8)} {c : Nat} {value : BitVec 8}
    (inside : c < cells.length) (was : cells[c] = 0) (now : value ≠ 0) :
    occupied (cells.set c value) = occupied cells + 1 := by
  have shown : (value != 0) = true := bne_iff_ne.mpr now
  rw [occupied, List.countP_set inside, was, if_pos shown]
  rfl

theorem filled_store {i j : Nat} {value : BitVec 8} (row : i < boardH) (column : j < boardW)
    (was : board.cell i j = 0) (now : value ≠ 0) :
    ∃ next : Board, board.store i j value = some next ∧ next.filled = board.filled + 1 ∧
      ∀ r c, (r ≠ i ∨ c ≠ j) → next.cell r c = board.cell r c := by
  obtain ⟨next, stored, set, others⟩ := Grid.store_row board row column value
  obtain ⟨same, stored', here, apart⟩ := Grid.store_cell board row column value
  obtain rfl : next = same := Option.some.inj (stored.symm.trans stored')
  refine ⟨next, stored, ?_, fun r c different => ?_⟩
  · have length : (board.row i).length = boardW := Grid.length_row board i
    have inRow : j < (board.row i).length := by rw [length]; exact column
    have empty : (board.row i)[j] = 0 := by
      simp only [Grid.row, List.getElem_map, List.getElem_range, was]
    have inContents : i < (board.contents.map occupied).length := by
      rw [List.length_map, Grid.length_contents]
      exact row
    have old : (board.contents.map occupied)[i] = occupied (board.row i) := by
      simp only [Grid.contents, List.getElem_map, List.getElem_range]
    have total := sum_set (occupied (next.row i)) inContents
    rw [old, set, occupied_set inRow empty now] at total
    rw [Board.filled, Grid.contents_eq_set row set others, List.map_set, occupied_set inRow empty now]
    exact Nat.add_right_cancel (total.trans (by rw [Board.filled]; omega))
  · rcases Decidable.em (r = i) with sameRow | otherRow
    · subst sameRow
      rw [here, if_neg (different.resolve_left (not_not.mpr rfl))]
    · rw [apart r otherRow]

/-- The cells before column `c` of row `r` of the piece have been locked. -/
structure LockedUpTo (board : Board) (piece rot : Nat) (x y : Int) (r c : Nat) (state : Board) :
    Prop where
  count : state.filled = board.filled +
    ((List.range r).map fun i => if 0 ≤ y + (i : Nat) then pieceRow piece rot i else 0).sum +
    if 0 ≤ y + r then (List.range c).countP (pieceBit piece rot r) else 0
  later : ∀ i j : Nat, (y + r < i ∨ y + r = i ∧ x + c ≤ j) → state.cell i j = board.cell i j

theorem lockCell_lockedUpTo {piece rot : Nat} {x y : Int} {r c : Nat} {state : Board}
    (stands : board.Stands piece rot x y) (known : piece < 7) (row : r < 4) (col : c < 4)
    (before : LockedUpTo board piece rot x y r c state) :
    ∃ next, lockCell piece rot x y r c state = some next ∧
      LockedUpTo board piece rot x y r (c + 1) next := by
  have color : BitVec.ofNat 8 (piece + 1) ≠ 0 := by
    intro zero
    have value := congrArg BitVec.toNat zero
    simp only [BitVec.toNat_ofNat, BitVec.ofNat_eq_ofNat] at value
    omega
  have more : (List.range (c + 1)).countP (pieceBit piece rot r) =
      (List.range c).countP (pieceBit piece rot r) + if pieceBit piece rot r c then 1 else 0 := by
    rw [List.range_succ, List.countP_append, List.countP_singleton]
  rw [lockCell]
  cases bit : pieceBit piece rot r c with
  | false =>
      rw [if_neg Bool.false_ne_true]
      refine ⟨state, rfl, ?_, fun i j away => before.later i j (by omega)⟩
      rw [before.count, more, bit]
      simp
  | true =>
      obtain ⟨sides, bottom, free⟩ := stands r row c col bit
      rw [if_pos rfl]
      dsimp only
      by_cases above : y + r ≥ 0
      · rw [if_pos ⟨above, bottom, sides.1, sides.2⟩]
        have here : state.cell (y + r).toNat (x + c).toNat = 0 := by
          rw [before.later _ _ (by omega), free above]
        obtain ⟨next, stored, filled, others⟩ :=
          filled_store (by omega) (by omega) here color
        refine ⟨next, stored, ?_, fun i j away => ?_⟩
        · rw [filled, before.count, more, bit, if_pos above, if_pos above]
          simp only [if_true]
          omega
        · rw [others i j (by omega), before.later i j (by omega)]
      · rw [if_neg fun inside => above inside.1]
        refine ⟨state, rfl, ?_, fun i j away => before.later i j (by omega)⟩
        rw [before.count, if_neg above, if_neg above]

/-- A piece that stands is locked cell by cell onto free places. -/
theorem lockPiece_filled {piece rot : Nat} {x y : Int} (stands : board.Stands piece rot x y)
    (known : piece < 7) :
    ∃ locked, board.lockPiece piece rot x y = some locked ∧
      locked.filled = board.filled + landing piece rot y := by
  let rows : Nat → Board → Prop := fun r => LockedUpTo board piece rot x y r 0
  have start : rows 0 board := ⟨by simp, fun _ _ _ => rfl⟩
  have turn : ∀ r < 4, ∀ state, rows r state →
      ∃ next, loopUp (lockCell piece rot x y r) 4 state = some next ∧ rows (r + 1) next := by
    intro r row state before
    have cells : ∀ c < 4, ∀ state, LockedUpTo board piece rot x y r c state →
        ∃ next, lockCell piece rot x y r c state = some next ∧
          LockedUpTo board piece rot x y r (c + 1) next :=
      fun c col state before => lockCell_lockedUpTo stands known row col before
    obtain ⟨next, run, after⟩ := loopUp_holds before cells
    refine ⟨next, run, ?_, fun i j away => ?_⟩
    · have last : List.range (r + 1) = List.range r ++ [r] := List.range_succ
      rw [after.count, last, List.map_append, List.sum_append]
      simp only [pieceRow, List.map_cons, List.map_nil, List.sum_cons, List.sum_nil,
        List.range_zero, List.countP_nil, ite_self]
      omega
    · exact after.later i j (.inl (by push_cast at away; omega))
  obtain ⟨locked, run, after⟩ := loopUp_holds start turn
  refine ⟨locked, run, ?_⟩
  rw [after.count, landing]
  simp

theorem occupied_full {line : List (BitVec 8)} (full : fullLine line = true) :
    occupied line = line.length :=
  List.countP_eq_length.mpr (List.all_eq_true.mp full)

theorem sum_occupied (lines : List (List (BitVec 8))) (wide : ∀ line ∈ lines, line.length = boardW) :
    (lines.map occupied).sum =
      ((lines.filter (!fullLine ·)).map occupied).sum + boardW * lines.countP fullLine := by
  induction lines with
  | nil => rfl
  | cons line rest ih =>
      have later := ih fun other listed => wide other (List.mem_cons_of_mem line listed)
      cases full : fullLine line with
      | true =>
          have count := occupied_full full
          rw [wide line List.mem_cons_self] at count
          simp only [List.map_cons, List.sum_cons, later, List.filter_cons, List.countP_cons, full,
            Bool.not_true, Bool.false_eq_true, if_false, if_true, count, boardW]
          omega
      | false =>
          simp only [List.map_cons, List.sum_cons, later, List.filter_cons, List.countP_cons, full,
            Bool.not_false, Bool.false_eq_true, if_false, if_true, Nat.add_zero]
          omega

/-- The cells of the cleared lines are gone, and no others. -/
theorem clearLines_filled (board : Board) :
    ∃ next : Board, board.clearLines = some (next, board.contents.countP fullLine) ∧
      next.filled + boardW * board.contents.countP fullLine = board.filled := by
  obtain ⟨next, run, rows⟩ := clearLines_contents board
  have wide : ∀ line ∈ board.contents, line.length = boardW := by
    intro line listed
    obtain ⟨r, _, rfl⟩ := List.mem_map.mp listed
    exact Grid.length_row board r
  have empty : occupied emptyLine = 0 := by decide
  refine ⟨next, run, ?_⟩
  rw [Board.filled, Board.filled, sum_occupied board.contents wide, rows, List.map_append,
    List.map_replicate, empty, List.sum_append, List.sum_replicate]
  simp

theorem landing_le {piece rot : Nat} (known : piece < 7) (turned : rot < 4) (y : Int) :
    landing piece rot y ≤ 4 := by
  have whole : ∀ piece < 7, ∀ rot < 4,
      ((List.range 4).map (pieceRow piece rot)).sum = 4 := by decide
  rw [← whole piece known rot turned]
  refine List.sum_le_sum fun r _ => ?_
  split
  next => exact le_rfl
  next => exact Nat.zero_le _

end Cells

section Steps

variable {game : Tetris}

theorem spawnPiece_fields (game : Tetris) :
    game.spawnPiece.board = game.board ∧ game.spawnPiece.lines = game.lines ∧
      game.spawnPiece.level = game.level ∧ game.spawnPiece.dropInterval = game.dropInterval := by
  rw [Tetris.spawnPiece]
  dsimp only
  split <;> exact ⟨rfl, rfl, rfl, rfl⟩

theorem interval_eq (lines : BitVec 32) :
    (let interval := 50 - (1 + lines.sdiv 10 - 1) * 4
      if interval.slt 8 then (8 : BitVec 32) else interval).toInt = speedOf lines := by
  have level : (1 + lines.sdiv 10 - 1 : BitVec 32) = lines.sdiv 10 := by
    rw [BitVec.add_comm, BitVec.add_sub_cancel]
  have value : (lines.sdiv 10).toInt = lines.toInt.tdiv 10 :=
    BitVec.toInt_sdiv_of_ne_or_ne lines 10 (.inr (by decide))
  have lower := lines.le_toInt
  have upper := lines.toInt_lt
  have small : -214748365 ≤ lines.toInt.tdiv 10 ∧ lines.toInt.tdiv 10 ≤ 214748365 := by
    rcases le_or_gt 0 lines.toInt with positive | negative
    · rw [Int.tdiv_eq_ediv_of_nonneg positive]
      omega
    · have mirrored : lines.toInt.tdiv 10 = -(-lines.toInt / 10) := by
        rw [← Int.tdiv_eq_ediv_of_nonneg (by omega), Int.neg_tdiv, neg_neg]
      rw [mirrored]
      omega
  have times : ((lines.sdiv 10) * 4).toInt = lines.toInt.tdiv 10 * 4 := by
    rw [BitVec.toInt_mul, value]
    exact Int.bmod_eq_of_le_mul_two (by change _ ≤ _ * (4 : Int) * 2; omega) (by
      change _ * (4 : Int) * 2 < _
      omega)
  have interval : (50 - (lines.sdiv 10) * 4).toInt = 50 - 4 * lines.toInt.tdiv 10 := by
    rw [BitVec.toInt_sub, times, Int.mul_comm]
    exact Int.bmod_eq_of_le_mul_two (by change _ ≤ ((50 : Int) - _) * 2; omega) (by
      change ((50 : Int) - _) * 2 < _
      omega)
  dsimp only
  rw [level, speedOf, ← interval]
  generalize 50 - (lines.sdiv 10) * 4 = turns
  split
  next fast =>
    have below : turns.toInt < 8 := of_decide_eq_true fast
    exact (max_eq_left below.le).symm
  next slow =>
    have above : ¬turns.toInt < 8 := fun below => slow (decide_eq_true below)
    exact (max_eq_right (not_lt.mp above)).symm

theorem addLines_fields (game : Tetris) {cl : Nat} (few : cl ≤ 4)
    (level : game.level = 1 + game.lines.sdiv 10)
    (speed : game.dropInterval.toInt = speedOf game.lines) :
    ∃ next, game.addLines cl = some next ∧ next.board = game.board ∧
      next.lines = game.lines + BitVec.ofNat 32 cl ∧ next.level = 1 + next.lines.sdiv 10 ∧
      next.dropInterval.toInt = speedOf next.lines := by
  have score : lineScores[cl]? = some (lineScores.get ⟨cl, Nat.lt_succ_of_le few⟩) :=
    List.getElem?_eq_getElem _
  rw [Tetris.addLines]
  split
  next =>
    rw [score]
    exact ⟨_, rfl, rfl, rfl, rfl, interval_eq _⟩
  next none =>
    obtain rfl : cl = 0 := by omega
    exact ⟨game, rfl, rfl, (BitVec.add_zero _).symm, level, speed⟩

/-- What a key leaves alone. -/
theorem key_fields {key : Int} {next : Tetris} (pressed : game.key key = some next) :
    next.board = game.board ∧ next.lines = game.lines ∧ next.level = game.level ∧
      next.dropInterval = game.dropInterval := by
  have same : some game = some next → next.board = game.board ∧ next.lines = game.lines ∧
      next.level = game.level ∧ next.dropInterval = game.dropInterval := by
    intro unchanged
    obtain rfl := Option.some.inj unchanged
    exact ⟨rfl, rfl, rfl, rfl⟩
  rw [Tetris.key] at pressed
  dsimp only at pressed
  split at pressed
  case isTrue lost => exact same pressed
  split at pressed
  case isTrue left => obtain rfl := Option.some.inj pressed; exact ⟨rfl, rfl, rfl, rfl⟩
  split at pressed
  case isTrue right => obtain rfl := Option.some.inj pressed; exact ⟨rfl, rfl, rfl, rfl⟩
  split at pressed
  case isTrue down => obtain rfl := Option.some.inj pressed; exact ⟨rfl, rfl, rfl, rfl⟩
  split at pressed
  case isTrue up =>
    split at pressed
    case isTrue turns => obtain rfl := Option.some.inj pressed; exact ⟨rfl, rfl, rfl, rfl⟩
    case isFalse => exact same pressed
  split at pressed
  case isTrue space =>
    obtain ⟨y, _, moved⟩ := Option.bind_eq_some_iff.mp pressed
    obtain rfl := Option.some.inj moved
    exact ⟨rfl, rfl, rfl, rfl⟩
  case isFalse => exact same pressed

/-- What a tick does that locks the piece. -/
structure Tetris.Locked (game : Tetris) (cl : Nat) (next : Tetris) : Prop where
  clears : game.clears = cl
  cells : next.board.filled + 10 * cl =
    game.board.filled + landing game.curPiece game.curRot game.curY
  lines : next.lines = game.lines + BitVec.ofNat 32 cl
  level : next.level = 1 + next.lines.sdiv 10
  speed : next.dropInterval.toInt = speedOf next.lines

theorem tick_accounts (sound : game.Sound) (level : game.level = 1 + game.lines.sdiv 10)
    (speed : game.dropInterval.toInt = speedOf game.lines) (now : BitVec 64) :
    ∃ next changed, game.tick now = some (next, changed) ∧ next.Sound ∧
      if game.Locks now then ∃ cl, game.Locked cl next
      else next.board = game.board ∧ next.lines = game.lines ∧ next.level = game.level ∧
        next.dropInterval = game.dropInterval := by
  obtain ⟨next, changed, run, after⟩ := tick_sound sound now
  refine ⟨next, changed, run, after, ?_⟩
  rw [Tetris.tick] at run
  cases lost : game.gameOver with
  | true =>
      rw [if_pos lost] at run
      obtain ⟨rfl, _⟩ := Prod.mk.inj (Option.some.inj run)
      rw [if_neg (by simp [Tetris.Locks, lost])]
      exact ⟨rfl, rfl, rfl, rfl⟩
  | false =>
      rw [if_neg (by simp [lost])] at run
      cases early : ((now - game.lastDrop).setWidth 32).slt game.dropInterval with
      | true =>
          rw [if_pos early] at run
          obtain ⟨rfl, _⟩ := Prod.mk.inj (Option.some.inj run)
          rw [if_neg (by simp [Tetris.Locks, early])]
          exact ⟨rfl, rfl, rfl, rfl⟩
      | false =>
          rw [if_neg (by simp [early])] at run
          dsimp only at run
          cases lower : game.board.fits game.curPiece game.curRot game.curX (game.curY + 1) with
          | true =>
              rw [if_pos lower] at run
              obtain ⟨rfl, _⟩ := Prod.mk.inj (Option.some.inj run)
              rw [if_neg (by simp [Tetris.Locks, lower])]
              exact ⟨rfl, rfl, rfl, rfl⟩
          | false =>
              obtain ⟨locked, cleared, cl, locks, clears, few, _⟩ := sound.lock
              obtain ⟨locked', locks', filled⟩ := lockPiece_filled (sound.stands lost) sound.known
              obtain rfl : locked = locked' := Option.some.inj (locks.symm.trans locks')
              obtain ⟨cleared', clears', left⟩ := clearLines_filled locked
              obtain ⟨rfl, rfl⟩ := Prod.mk.inj (Option.some.inj (clears.symm.trans clears'))
              obtain ⟨scored, adds, board, lines, newLevel, newSpeed⟩ :=
                addLines_fields { game with lastDrop := now, board := cleared } few level speed
              simp only [lower, Bool.false_eq_true, if_false, locks, clears, adds,
                Option.bind_eq_bind, Option.bind_some] at run
              obtain ⟨rfl, _⟩ := Prod.mk.inj (Option.some.inj run)
              obtain ⟨sameBoard, sameLines, sameLevel, sameInterval⟩ := spawnPiece_fields scored
              rw [if_pos (by simp [Tetris.Locks, lost, early, lower])]
              refine ⟨(Grid.contents locked).countP fullLine, {
                clears := by rw [Tetris.clears, locks, Option.bind_some, clears]; rfl
                cells := ?_
                lines := by rw [sameLines, lines]
                level := by rw [sameLevel, sameLines, newLevel]
                speed := by rw [sameInterval, sameLines, newSpeed] }⟩
              rw [sameBoard, board, ← filled, ← left]
              rfl

end Steps

section Runs

variable {run : TetrisRun}

theorem tetris_step_accounted (accounted : run.Accounted) (call : TetrisCall) :
    ∃ next, run.step call = some next ∧ next.Accounted := by
  cases call with
  | key key =>
      obtain ⟨game, pressed, sound⟩ := key_sound accounted.sound key
      obtain ⟨board, lines, level, speed⟩ := key_fields pressed
      refine ⟨{ run with game }, by simp [TetrisRun.step, Tetris.step, pressed, TetrisRun.count], ?_⟩
      exact {
        sound
        cells := by rw [board]; exact accounted.cells
        pieces := accounted.pieces
        lines := lines.trans accounted.lines
        level := by rw [level, lines]; exact accounted.level
        speed := by rw [speed, lines]; exact accounted.speed }
  | tick now =>
      obtain ⟨game, changed, ticked, sound, outcome⟩ :=
        tick_accounts accounted.sound accounted.level accounted.speed now
      have stepped : run.step (.tick now) = some { run.count (.tick now) with game } := by
        simp [TetrisRun.step, Tetris.step, ticked]
      refine ⟨_, stepped, ?_⟩
      rw [TetrisRun.count]
      split at outcome
      next locks =>
        obtain ⟨cl, locked⟩ := outcome
        have few := landing_le accounted.sound.known accounted.sound.turned run.game.curY
        rw [if_pos locks, locked.clears]
        exact {
          sound
          cells := by
            have before := accounted.cells
            have now := locked.cells
            dsimp only
            omega
          pieces := by
            have before := accounted.pieces
            dsimp only
            omega
          lines := by rw [locked.lines, accounted.lines, ← BitVec.ofNat_add]
          level := locked.level
          speed := locked.speed }
      next rests =>
        obtain ⟨board, lines, level, speed⟩ := outcome
        rw [if_neg rests]
        exact {
          sound
          cells := by rw [board]; exact accounted.cells
          pieces := accounted.pieces
          lines := lines.trans accounted.lines
          level := by rw [level, lines]; exact accounted.level
          speed := by rw [speed, lines]; exact accounted.speed }

theorem init_fields (game : Tetris) (seed now : BitVec 64) :
    ∃ start, game.init seed now = some start ∧
      start.board.contents = List.replicate boardH emptyLine ∧ start.lines = 0 ∧
      start.level = 1 ∧ start.dropInterval = 50 := by
  obtain ⟨board, filled, rows⟩ := Grid.fillRows_contents game.board (0 : BitVec 8)
  rw [Tetris.init, filled]
  rcases rngPiece (seed.setWidth 32) with ⟨nextPiece, rngState⟩
  refine ⟨_, rfl, ?_, (spawnPiece_fields _).2.1, (spawnPiece_fields _).2.2.1,
    (spawnPiece_fields _).2.2.2⟩
  exact (congrArg Grid.contents (spawnPiece_fields _).1).trans rows

theorem tetrisInit_accounted (game : Tetris) (seed now : BitVec 64) :
    ∃ start, game.init seed now = some start ∧ TetrisRun.Accounted ⟨start, 0, 0, 0⟩ := by
  obtain ⟨start, run, sound⟩ := init_sound game seed now
  obtain ⟨start', run', rows, lines, level, speed⟩ := init_fields game seed now
  obtain rfl : start = start' := Option.some.inj (run.symm.trans run')
  exact ⟨start, run, {
    sound
    cells := by
      have none : occupied emptyLine = 0 := by decide
      rw [Board.filled, rows, List.map_replicate, none, List.sum_replicate]
      rfl
    pieces := Nat.zero_le _
    lines
    level := by
      rw [level, lines]
      decide
    speed := by
      rw [speed, lines]
      decide }⟩

/-- In every run the cells of the locked pieces are the cells on the board and those of the
cleared lines; and the level and the speed are those of the lines. -/
theorem tetris_accounts (game : Tetris) (seed now : BitVec 64) (calls : List TetrisCall) :
    ∃ start, game.init seed now = some start ∧
      Transition.RunsThrough TetrisRun.step TetrisRun.Accounted ⟨start, 0, 0, 0⟩ calls := by
  obtain ⟨start, run, accounted⟩ := tetrisInit_accounted game seed now
  exact ⟨start, run, Transition.runsThrough_of_invariant (fun _ accounted => accounted)
    (fun _ call accounted => tetris_step_accounted accounted call) accounted calls⟩

end Runs

end DragoonKernel
