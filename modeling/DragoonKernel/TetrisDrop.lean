import DragoonKernel.TetrisConsistent

/-!
A hard drop is a soft drop to the end: SPACE leaves the piece where enough strokes of DOWN do.
-/

namespace DragoonKernel

variable {game : Tetris}

def downs (n : Nat) : List TetrisCall := List.replicate n (.key keyDown)

theorem down_lower (game : Tetris) (going : game.gameOver = false)
    (lower : game.board.fits game.curPiece game.curRot game.curX (game.curY + 1) = true) :
    game.step (.key keyDown) = some { game with curY := game.curY + 1 } := by
  have left : keyDown ≠ keyLeft := by decide
  have right : keyDown ≠ keyRight := by decide
  simp [Tetris.step, Tetris.key, going, left, right, lower]

theorem down_stuck
    (stuck : game.board.fits game.curPiece game.curRot game.curX (game.curY + 1) = false) :
    game.step (.key keyDown) = some game := by
  have left : keyDown ≠ keyLeft := by decide
  have right : keyDown ≠ keyRight := by decide
  have up : keyDown ≠ keyUp := by decide
  have space : keyDown ≠ keySpace := by decide
  simp [Tetris.step, Tetris.key, left, right, up, space, stuck]

theorem exec_downs_still (still : game.step (.key keyDown) = some game) (n : Nat) :
    Transition.exec Tetris.step game (downs n) = some game := by
  induction n with
  | zero => rfl
  | succ n ih => exact Transition.exec_cons_iff.mpr ⟨game, still, ih⟩

/-- The loop of the hard drop takes one step where a stroke takes one. -/
theorem exec_downs_hardDrop (going : game.gameOver = false) {turns : Nat} {y final : Int}
    (dropped : game.board.hardDrop game.curPiece game.curRot game.curX turns y = some final)
    {n : Nat} (enough : turns ≤ n) :
    Transition.exec Tetris.step { game with curY := y } (downs n) =
      some { game with curY := final } := by
  induction turns generalizing y n with
  | zero => cases dropped
  | succ turns ih =>
      rw [Board.hardDrop] at dropped
      split at dropped
      next lower =>
        obtain ⟨m, rfl⟩ := Nat.exists_eq_add_of_le' enough
        have more : turns ≤ m + turns := Nat.le_add_left turns m
        exact Transition.exec_cons_iff.mpr
          ⟨{ game with curY := y + 1 }, down_lower { game with curY := y } going lower,
            ih dropped more⟩
      next stuck =>
        obtain rfl := Option.some.inj dropped
        exact exec_downs_still (down_stuck (Bool.eq_false_of_not_eq_true stuck)) n

theorem space_eq_downs (sound : game.Sound) {n : Nat} (enough : dropTurns ≤ n) :
    Transition.exec Tetris.step game (downs n) = game.step (.key keySpace) := by
  cases lost : game.gameOver with
  | true =>
      have still : ∀ key, game.step (.key key) = some game := by
        intro key
        simp [Tetris.step, Tetris.key, lost]
      rw [exec_downs_still (still keyDown), still]
  | false =>
      obtain ⟨y, dropped, _⟩ := sound.hardDrop lost
      have left : keySpace ≠ keyLeft := by decide
      have right : keySpace ≠ keyRight := by decide
      have down : keySpace ≠ keyDown := by decide
      have up : keySpace ≠ keyUp := by decide
      have falls : game.step (.key keySpace) = some { game with curY := y } := by
        simp [Tetris.step, Tetris.key, lost, left, right, down, up, dropped]
      rw [falls]
      exact exec_downs_hardDrop lost dropped enough

/-- In every state that the game can reach. -/
theorem tetris_space_eq_downs (game : Tetris) (seed now : BitVec 64) (calls : List TetrisCall) :
    ∃ start, game.init seed now = some start ∧
      Transition.RunsThrough Tetris.step (fun game => ∀ n, dropTurns ≤ n →
        Transition.exec Tetris.step game (downs n) = game.step (.key keySpace)) start calls := by
  obtain ⟨start, run, sound⟩ := init_sound game seed now
  refine ⟨start, run, Transition.runsThrough_of_invariant
    (fun (game : Tetris) (sound : game.Sound) _ enough => space_eq_downs sound enough)
    (fun game call sound => ?_) sound calls⟩
  cases call with
  | key key => exact key_sound sound key
  | tick now =>
      obtain ⟨next, changed, ticked, after⟩ := tick_sound sound now
      exact ⟨next, by simp [Tetris.step, ticked], after⟩

end DragoonKernel
