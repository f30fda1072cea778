import DragoonKernel.TetrisBoard
import DragoonKernel.Library.Transition

/-!
The states of the game that keys and ticks lead to.
-/

namespace DragoonKernel

structure Tetris.Consistent (game : Tetris) : Prop where
  cells : ∀ r < boardH, ∀ c < boardW, (game.board.cell r c).toNat ≤ 7
  noRowFull : ∀ r < boardH, ∃ c < boardW, game.board.cell r c = 0
  stands : game.gameOver = false →
    game.board.Stands game.curPiece game.curRot game.curX game.curY
  fewCleared : ∃ locked cleared cl,
    game.board.lockPiece game.curPiece game.curRot game.curX game.curY = some locked ∧
      locked.clearLines = some (cleared, cl) ∧ cl ≤ 4 ∧ cl < lineScores.length
  hardDropEnds : game.gameOver = false → ∃ y,
    game.board.hardDrop game.curPiece game.curRot game.curX dropTurns game.curY = some y
  cellColors : ∀ r < boardH, ∀ c < boardW, game.board.cell r c ≠ 0 →
    (game.board.cell r c).toNat - 1 < pieceColors.length
  curColor : game.curPiece < pieceColors.length
  nextColor : game.nextPiece < pieceColors.length
  turned : game.curRot < 4

/-- What the calls keep. -/
structure Tetris.Sound (game : Tetris) : Prop where
  board : game.board.Sound
  stands : game.gameOver = false →
    game.board.Stands game.curPiece game.curRot game.curX game.curY
  known : game.curPiece < 7
  nextKnown : game.nextPiece < 7
  turned : game.curRot < 4
  high : -1 ≤ game.curY

variable {game : Tetris}

/-- After a lock at most four rows go, and the board is as it should be again. -/
theorem Tetris.Sound.lock (sound : game.Sound) :
    ∃ locked cleared cl,
      game.board.lockPiece game.curPiece game.curRot game.curX game.curY = some locked ∧
        locked.clearLines = some (cleared, cl) ∧ cl ≤ 4 ∧ cleared.Sound := by
  obtain ⟨locked, run, so⟩ :=
    lockPiece_lockedOnto game.board game.curPiece game.curRot game.curX game.curY
  obtain ⟨cleared, cl, clears, few, kept⟩ := clearLines_sound sound.board sound.known so
  exact ⟨locked, cleared, cl, run, clears, few, kept⟩

theorem Tetris.Sound.hardDrop (sound : game.Sound) (going : game.gameOver = false) :
    ∃ y, game.board.hardDrop game.curPiece game.curRot game.curX dropTurns game.curY = some y ∧
      game.curY ≤ y ∧ game.board.Stands game.curPiece game.curRot game.curX y := by
  have high := sound.high
  have enough : boardH ≤ game.curY + dropTurns := by
    rw [dropTurns]
    omega
  exact hardDrop_stands sound.known sound.turned (sound.stands going) enough

theorem Tetris.Sound.consistent (sound : game.Sound) : game.Consistent := by
  have listed : ∀ r < boardH, game.board.row r ∈ game.board.contents := fun r row =>
    List.mem_map_of_mem (List.mem_range.mpr row)
  have small : ∀ r < boardH, ∀ c < boardW, (game.board.cell r c).toNat ≤ 7 := fun r row c col =>
    sound.board.cells _ (listed r row) _ (List.mem_map_of_mem (List.mem_range.mpr col))
  obtain ⟨locked, cleared, cl, run, clears, few, _⟩ := sound.lock
  refine ⟨small, fun r row => ?_, sound.stands,
    ⟨locked, cleared, cl, run, clears, few, Nat.lt_succ_of_le few⟩, fun going => ?_,
    fun r row c col _ => ?_, sound.known, sound.nextKnown, sound.turned⟩
  · exact fullLine_row_eq_false.mp (sound.board.noneFull _ (listed r row))
  · obtain ⟨y, dropped, _⟩ := sound.hardDrop going
    exact ⟨y, dropped⟩
  · have bound := small r row c col
    change _ < 7
    omega

theorem rngPiece_lt (rngState : BitVec 32) : (rngPiece rngState).1 < 7 :=
  Nat.mod_lt _ (Nat.zero_lt_succ 6)

theorem spawnPiece_sound (board : game.board.Sound) (nextKnown : game.nextPiece < 7) :
    game.spawnPiece.Sound := by
  rw [Tetris.spawnPiece]
  dsimp only
  split
  next blocked =>
    exact ⟨board, fun lost => absurd lost.symm Bool.false_ne_true, nextKnown, rngPiece_lt _,
      Nat.zero_lt_succ 3, Int.le_refl (-1)⟩
  next free =>
    refine ⟨board, fun _ => ?_, nextKnown, rngPiece_lt _, Nat.zero_lt_succ 3, Int.le_refl (-1)⟩
    rw [Bool.not_eq_true', Bool.not_eq_false] at free
    exact fits_iff.mp free

/-- The current piece goes to another place or turns. -/
theorem Tetris.Sound.move (sound : game.Sound) {rot : Nat} {x y : Int} (turned : rot < 4)
    (fits : game.board.fits game.curPiece rot x y = true) (high : -1 ≤ y) :
    Tetris.Sound { game with curRot := rot, curX := x, curY := y } :=
  ⟨sound.board, fun _ => fits_iff.mp fits, sound.known, sound.nextKnown, turned, high⟩

theorem Tetris.Sound.timed (sound : game.Sound) (now : BitVec 64) :
    Tetris.Sound { game with lastDrop := now } :=
  ⟨sound.board, sound.stands, sound.known, sound.nextKnown, sound.turned, sound.high⟩

theorem key_sound (sound : game.Sound) (key : Int) :
    ∃ next, game.key key = some next ∧ next.Sound := by
  have high := sound.high
  rw [Tetris.key]
  dsimp only
  split
  case isTrue lost => exact ⟨game, rfl, sound⟩
  case isFalse going =>
    split
    case isTrue left => exact ⟨_, rfl, sound.move sound.turned left.2 high⟩
    split
    case isTrue right => exact ⟨_, rfl, sound.move sound.turned right.2 high⟩
    split
    case isTrue down => exact ⟨_, rfl, sound.move sound.turned down.2 (by omega)⟩
    split
    case isTrue up =>
      split
      case isTrue turns =>
        exact ⟨_, rfl, sound.move (Nat.mod_lt _ (Nat.zero_lt_succ 3)) turns high⟩
      case isFalse => exact ⟨game, rfl, sound⟩
    split
    case isTrue space =>
      obtain ⟨y, dropped, below, there⟩ :=
        sound.hardDrop (Bool.eq_false_of_not_eq_true going)
      rw [dropped]
      exact ⟨_, rfl, sound.move sound.turned (fits_iff.mpr there) (by omega)⟩
    case isFalse => exact ⟨game, rfl, sound⟩

theorem addLines_some (game : Tetris) {cl : Nat} (few : cl ≤ 4) :
    ∃ next, game.addLines cl = some next ∧ next.board = game.board ∧
      next.nextPiece = game.nextPiece := by
  have score : lineScores[cl]? = some (lineScores.get ⟨cl, Nat.lt_succ_of_le few⟩) :=
    List.getElem?_eq_getElem _
  rw [Tetris.addLines]
  split
  · rw [score]
    exact ⟨_, rfl, rfl, rfl⟩
  · exact ⟨game, rfl, rfl, rfl⟩

theorem tick_sound (sound : game.Sound) (now : BitVec 64) :
    ∃ next changed, game.tick now = some (next, changed) ∧ next.Sound := by
  rw [Tetris.tick]
  split
  · exact ⟨game, 0, rfl, sound⟩
  split
  · exact ⟨game, 0, rfl, sound⟩
  dsimp only
  split
  next lower =>
    have high := sound.high
    exact ⟨_, 1, rfl, (sound.timed now).move sound.turned lower (show -1 ≤ game.curY + 1 by omega)⟩
  next =>
    obtain ⟨locked, cleared, cl, locks, clears, few, kept⟩ := sound.lock
    obtain ⟨scored, adds, board, next⟩ :=
      addLines_some { game with lastDrop := now, board := cleared } few
    simp only [locks, clears, adds, Option.bind_eq_bind, Option.bind_some]
    refine ⟨_, 1, rfl, spawnPiece_sound ?_ ?_⟩
    · rw [board]
      exact kept
    · rw [next]
      exact sound.nextKnown

theorem init_sound (game : Tetris) (seed now : BitVec 64) :
    ∃ start, game.init seed now = some start ∧ start.Sound := by
  obtain ⟨board, filled, rows⟩ := Grid.fillRows_contents game.board (0 : BitVec 8)
  have known := rngPiece_lt (seed.setWidth 32)
  rw [Tetris.init, filled]
  generalize rngPiece (seed.setWidth 32) = drawn at known
  exact ⟨_, rfl, (spawnPiece_sound (emptyBoard_sound rows) known).timed now⟩

/-- From `tetris_init` on no call fails, whatever the seed, the keys and the time, and the game is
consistent after each. -/
theorem tetris_consistent (game : Tetris) (seed now : BitVec 64) (calls : List TetrisCall) :
    ∃ start, game.init seed now = some start ∧
      Transition.RunsThrough Tetris.step Tetris.Consistent start calls := by
  obtain ⟨start, run, sound⟩ := init_sound game seed now
  refine ⟨start, run, Transition.runsThrough_of_invariant (fun _ sound => sound.consistent)
    (fun game call sound => ?_) sound calls⟩
  cases call with
  | key key => exact key_sound sound key
  | tick now =>
      obtain ⟨next, changed, run, after⟩ := tick_sound sound now
      exact ⟨next, by rw [Tetris.step, run]; rfl, after⟩

end DragoonKernel
