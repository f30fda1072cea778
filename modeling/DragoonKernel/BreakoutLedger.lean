import DragoonKernel.BreakoutWalls
import Mathlib.Algebra.BigOperators.Group.Finset.Basic

/-!
Breakout over whole runs: the counters agree with the bricks, and the ball and the paddle stay on
the screen.
-/

namespace DragoonKernel

def allBricks : Finset (Nat × Nat) := Finset.range brickRows ×ˢ Finset.range brickCols

/-- The bricks that stand. -/
def Breakout.standing (game : Breakout) : Finset (Nat × Nat) :=
  allBricks.filter fun place => game.brick place.1 place.2 = true

/-- What a brick scores. -/
def brickValue (place : Nat × Nat) : Int := (brickRows - place.1) * 10

structure Breakout.Accounted (game : Breakout) : Prop where
  left : game.bricksLeft = game.standing.card
  score : game.score = ∑ place ∈ allBricks \ game.standing, brickValue place
  lives : 0 ≤ game.lives ∧ game.lives ≤ 3
  lost : game.gameOver = true ↔ game.lives = 0
  won : game.gameWon = true ↔ game.standing = ∅
  once : ¬(game.gameOver = true ∧ game.gameWon = true)

/-- A call breaks at most one brick, a lost ball breaks none, and no brick comes back. -/
structure Breakout.Progress (before after : Breakout) : Prop where
  bricks : after.standing = before.standing ∨
    ∃ place ∈ before.standing, after.standing = before.standing.erase place
  lives : after.lives = before.lives ∨
    after.lives = before.lives - 1 ∧ after.standing = before.standing

/-- The ball and the paddle in the bounds of a screen, below which the ball may have fallen. -/
structure Breakout.Bounded (scrW scrH : Int) (game : Breakout) : Prop where
  width : game.scrW = scrW
  height : game.scrH = scrH
  paddleW : game.paddleW = 80
  paddleY : game.paddleY = scrH - 40
  paddleLeft : 0 ≤ game.paddleX
  paddleRight : game.paddleX + game.paddleW ≤ scrW
  ballLeft : ballSize / 2 ≤ fxToInt game.ballX
  ballRight : fxToInt game.ballX ≤ scrW - ballSize / 2
  ballTop : ballSize / 2 ≤ fxToInt game.ballY
  ballFallen : fxToInt game.ballY ≤ scrH + 1
  speedX : -(fxOne * 3) ≤ game.ballDx ∧ game.ballDx ≤ fxOne * 3
  speedY : game.ballDy = fxOne * 2 ∨ game.ballDy = -(fxOne * 2)

structure Breakout.OnScreen (scrW scrH : Int) (game : Breakout) : Prop extends
    game.Bounded scrW scrH where
  ballBottom : game.gameOver = false → fxToInt game.ballY < scrH

variable {game : Breakout} {now : BitVec 64}

section Bricks

theorem mem_standing {place : Nat × Nat} :
    place ∈ game.standing ↔ place ∈ allBricks ∧ game.brick place.1 place.2 = true :=
  Finset.mem_filter

theorem brick_breakBrick (game : Breakout) (r c : Nat) (place : Nat × Nat) :
    (game.breakBrick r c).brick place.1 place.2 =
      (game.brick place.1 place.2 && decide (place ≠ (r, c))) := by
  obtain ⟨row, column⟩ := place
  simp only [Breakout.brick, Breakout.breakBrick, List.getD_eq_getElem?_getD,
    List.getElem?_modify]
  by_cases sameRow : r = row
  · subst sameRow
    cases line : game.bricks[r]? with
    | none => simp
    | some bricks =>
        by_cases sameColumn : c = column
        · subst sameColumn
          simp only [Option.map_eq_map, Option.map_some, if_true, Option.getD_some,
            List.getElem?_set_self']
          cases bricks[c]? <;> simp
        · have other : column ≠ c := Ne.symm sameColumn
          simp [sameColumn, other]
  · have other : row ≠ r := Ne.symm sameRow
    simp [sameRow, other]

theorem standing_breakBrick (game : Breakout) (r c : Nat) :
    (game.breakBrick r c).standing = game.standing.erase (r, c) := by
  ext place
  simp only [Finset.mem_erase, mem_standing, brick_breakBrick, Bool.and_eq_true,
    decide_eq_true_eq]
  tauto

theorem mem_brickPlaces {place : Nat × Nat} : place ∈ brickPlaces ↔ place ∈ allBricks := by
  simp [brickPlaces, allBricks, Prod.ext_iff, eq_comm]

/-- The loops break the first brick in reach, or none. -/
theorem hitBricks_cases (game : Breakout) (bx bY : Int) :
    game.hitBricks bx bY = game ∨
      ∃ r c, (r, c) ∈ game.standing ∧ game.hitBricks bx bY = game.breakBrick r c := by
  rw [Breakout.hitBricks]
  split
  next r c found =>
    have hit := List.find?_some found
    have listed := mem_brickPlaces.mp (List.mem_of_find?_eq_some found)
    simp only [Breakout.hitsBrick, Bool.and_eq_true] at hit
    exact .inr ⟨r, c, mem_standing.mpr ⟨listed, hit.1.1.1.1⟩, rfl⟩
  next => exact .inl rfl

theorem score_breakBrick {r c : Nat} (stands : (r, c) ∈ game.standing) :
    ∑ place ∈ allBricks \ game.standing.erase (r, c), brickValue place =
      (∑ place ∈ allBricks \ game.standing, brickValue place) + brickValue (r, c) := by
  have whole : (r, c) ∈ allBricks := (mem_standing.mp stands).1
  have grown : allBricks \ game.standing.erase (r, c) =
      insert (r, c) (allBricks \ game.standing) := by
    rw [Finset.sdiff_erase whole]
  have fresh : (r, c) ∉ allBricks \ game.standing := fun listed =>
    (Finset.mem_sdiff.mp listed).2 stands
  rw [grown, Finset.sum_insert fresh, add_comm]

end Bricks

section Accounts

/-- The fields that the accounts are about. -/
structure Breakout.SameAccounts (before after : Breakout) : Prop where
  bricks : after.bricks = before.bricks
  bricksLeft : after.bricksLeft = before.bricksLeft
  score : after.score = before.score
  lives : after.lives = before.lives
  gameOver : after.gameOver = before.gameOver
  gameWon : after.gameWon = before.gameWon

theorem Breakout.SameAccounts.standing {after : Breakout} (same : game.SameAccounts after) :
    after.standing = game.standing := by
  have brick : after.brick = game.brick := by
    funext r c
    rw [Breakout.brick, Breakout.brick, same.bricks]
  rw [Breakout.standing, Breakout.standing, brick]

theorem Breakout.SameAccounts.accounted {after : Breakout} (same : game.SameAccounts after)
    (accounted : game.Accounted) : after.Accounted where
  left := by rw [same.bricksLeft, same.standing, accounted.left]
  score := by rw [same.score, same.standing, accounted.score]
  lives := same.lives ▸ accounted.lives
  lost := by rw [same.gameOver, same.lives, accounted.lost]
  won := by rw [same.gameWon, same.standing, accounted.won]
  once := by
    rw [same.gameOver, same.gameWon]
    exact accounted.once

theorem bounced_same (game : Breakout) (now : BitVec 64) : game.SameAccounts (game.bounced now) := by
  rw [Breakout.bounced, bounce_eq]
  exact ⟨rfl, rfl, rfl, rfl, rfl, rfl⟩

theorem lose_accounted (accounted : game.Accounted) (playing : (game.gameOver || game.gameWon) = false) :
    game.lose.Accounted ∧ game.Progress game.lose := by
  obtain ⟨notOver, notWon⟩ := Bool.or_eq_false_iff.mp playing
  have alive : game.lives ≠ 0 := fun none => by
    rw [accounted.lost.mpr none] at notOver
    exact Bool.true_eq_false_eq_False notOver
  have bounds := accounted.lives
  rw [Breakout.lose]
  dsimp only
  split
  next last =>
    have fields : game.lives - 1 = 0 := by omega
    refine ⟨{ left := accounted.left, score := accounted.score, lives := ?_, lost := ?_,
              won := accounted.won, once := ?_ }, .inl rfl, .inr ⟨rfl, rfl⟩⟩
    · exact ⟨fields.ge, fields.trans_le (by decide)⟩
    · exact iff_of_true rfl fields
    · exact fun both => Bool.false_ne_true (notWon.symm.trans both.2)
  next more =>
    refine ⟨{ left := accounted.left, score := accounted.score, lives := ?_, lost := ?_,
              won := accounted.won, once := accounted.once }, .inl rfl, .inr ⟨rfl, rfl⟩⟩
    · exact ⟨by simp only [Breakout.resetBall]; omega, by simp only [Breakout.resetBall]; omega⟩
    · refine iff_of_false (fun lost => Bool.false_ne_true (notOver.symm.trans lost)) ?_
      simp only [Breakout.resetBall]
      omega

theorem breakBrick_accounted (accounted : game.Accounted)
    (playing : (game.gameOver || game.gameWon) = false) {r c : Nat}
    (stands : (r, c) ∈ game.standing) : (game.breakBrick r c).Accounted := by
  obtain ⟨notOver, notWon⟩ := Bool.or_eq_false_iff.mp playing
  have some : 0 < game.standing.card := Finset.card_pos.mpr ⟨(r, c), stands⟩
  have fewer : (game.standing.erase (r, c)).card = game.standing.card - 1 :=
    Finset.card_erase_of_mem stands
  have left : game.bricksLeft - 1 = ((game.standing.erase (r, c)).card : Int) := by
    rw [accounted.left, fewer]
    omega
  refine {
    left := by rw [standing_breakBrick]; exact left
    score := ?_
    lives := accounted.lives
    lost := accounted.lost
    won := ?_
    once := fun both => Bool.false_ne_true (notOver.symm.trans both.1) }
  · rw [standing_breakBrick, score_breakBrick stands, ← accounted.score]
    rfl
  · rw [standing_breakBrick, ← Finset.card_eq_zero]
    simp only [Breakout.breakBrick, left, notWon]
    generalize (game.standing.erase (r, c)).card = rest
    split
    next none => exact iff_of_true rfl (by omega)
    next more => exact iff_of_false Bool.false_ne_true (by omega)

theorem hitBricks_accounted (accounted : game.Accounted)
    (playing : (game.gameOver || game.gameWon) = false) (bx bY : Int) :
    (game.hitBricks bx bY).Accounted ∧ game.Progress (game.hitBricks bx bY) := by
  rcases hitBricks_cases game bx bY with same | ⟨r, c, stands, broken⟩
  · rw [same]
    exact ⟨accounted, .inl rfl, .inl rfl⟩
  · rw [broken]
    exact ⟨breakBrick_accounted accounted playing stands,
      .inr ⟨(r, c), stands, standing_breakBrick game r c⟩, .inl rfl⟩

theorem Breakout.SameAccounts.progress {middle after : Breakout} (same : game.SameAccounts middle)
    (progress : middle.Progress after) : game.Progress after := by
  obtain ⟨bricks, lives⟩ := progress
  rw [same.standing] at bricks lives
  rw [same.lives] at lives
  exact ⟨bricks, lives⟩

theorem breakout_step_accounted (accounted : game.Accounted) {call : BreakoutCall}
    {after : Breakout} (stepped : game.step call = some after) :
    after.Accounted ∧ game.Progress after := by
  have still : game.Progress game := ⟨.inl rfl, .inl rfl⟩
  cases call with
  | key key =>
      obtain rfl := Option.some.inj stepped
      obtain ⟨paddleX, pressed⟩ := breakout_key_eq game key
      have same : game.SameAccounts (game.key key) := by
        rw [pressed]
        exact ⟨rfl, rfl, rfl, rfl, rfl, rfl⟩
      exact ⟨same.accounted accounted, .inl same.standing, .inl same.lives⟩
  | tick now =>
      obtain rfl := Option.some.inj stepped
      cases playing : game.gameOver || game.gameWon with
      | true =>
          rw [Breakout.tick, if_pos playing]
          exact ⟨accounted, still⟩
      | false =>
          have bounced := bounced_same game now
          have going : ((game.bounced now).gameOver || (game.bounced now).gameWon) = false := by
            rw [bounced.gameOver, bounced.gameWon, playing]
          have thrown : game.SameAccounts ((game.bounced now).bouncePaddle game.nextBx) :=
            ⟨bounced.bricks, bounced.bricksLeft, bounced.score, bounced.lives, bounced.gameOver,
              bounced.gameWon⟩
          have before := bounced.accounted accounted
          rcases breakout_tick_cases game now with ⟨_, run⟩ | ⟨_, run⟩ | ⟨_, run⟩ | ⟨_, run⟩ <;>
            rw [run]
          · exact ⟨accounted, still⟩
          · obtain ⟨after, progress⟩ := lose_accounted before going
            exact ⟨after, bounced.progress progress⟩
          · obtain ⟨after, progress⟩ := hitBricks_accounted (thrown.accounted accounted)
              (by rw [thrown.gameOver, thrown.gameWon, playing]) game.nextBx game.nextBy
            exact ⟨after, thrown.progress progress⟩
          · obtain ⟨after, progress⟩ := hitBricks_accounted before going game.nextBx game.nextBy
            exact ⟨after, bounced.progress progress⟩

theorem breakoutInit_standing (scrW scrH : Int) (now : BitVec 64) :
    (breakoutInit scrW scrH now).standing = allBricks := by
  have full : ∀ place ∈ allBricks, (breakoutInit scrW scrH now).brick place.1 place.2 = true := by
    have every : ∀ place ∈ allBricks,
        ((List.replicate brickRows (List.replicate brickCols true)).getD place.1 []).getD
          place.2 false = true := by decide
    exact every
  exact Finset.filter_true_of_mem full

theorem breakoutInit_accounted (scrW scrH : Int) (now : BitVec 64) :
    (breakoutInit scrW scrH now).Accounted where
  left := by rw [breakoutInit_standing]; rfl
  score := by rw [breakoutInit_standing, Finset.sdiff_self, Finset.sum_empty]; rfl
  lives := ⟨show (0 : Int) ≤ 3 by decide, le_refl 3⟩
  lost := iff_of_false Bool.false_ne_true (by simp [breakoutInit, Breakout.resetBall])
  won := by
    rw [breakoutInit_standing]
    exact iff_of_false Bool.false_ne_true (by decide)
  once := fun both => Bool.false_ne_true both.1

end Accounts

theorem Breakout.Accounted.wonScore (accounted : game.Accounted) (won : game.gameWon = true) :
    game.score = 1500 := by
  rw [accounted.score, accounted.won.mp won, Finset.sdiff_empty]
  decide

/-- In every run the counters agree with the bricks: `bricks_left` counts those that stand, the
score is the value of those that do not, and the game is won when none is left. -/
theorem breakout_accounts (scrW scrH : Int) (now : BitVec 64) (calls : List BreakoutCall) :
    Transition.EveryState Breakout.step
      (fun game => game.Accounted ∧ (game.gameWon = true → game.score = 1500))
      (breakoutInit scrW scrH now) calls ∧
    Transition.EveryStep Breakout.step (fun before _ after => before.Progress after)
      (breakoutInit scrW scrH now) calls := by
  have start := breakoutInit_accounted scrW scrH now
  have steps : ∀ game call after, game.Accounted → Breakout.step game call = some after →
      after.Accounted ∧ game.Progress after :=
    fun _ _ _ accounted stepped => breakout_step_accounted accounted stepped
  have states := Transition.everyState_of_invariant
    (fun game call after accounted stepped => (steps game call after accounted stepped).1)
    start calls
  exact ⟨states.mono fun _ accounted => ⟨accounted, accounted.wonScore⟩,
    Transition.everyStep_of_invariant steps start calls⟩

section Screen

variable {scrW scrH : Int}

theorem key_onScreen (onScreen : game.OnScreen scrW scrH) (key : Int) :
    (game.key key).OnScreen scrW scrH := by
  have left := onScreen.paddleLeft
  have right := onScreen.paddleRight
  have paddle : 0 ≤ (game.key key).paddleX ∧ (game.key key).paddleX + game.paddleW ≤ scrW := by
    have width := onScreen.width
    rw [Breakout.key]
    split
    next => exact ⟨left, right⟩
    next =>
      simp only [paddleSpeed, width]
      constructor <;> split_ifs <;> omega
  obtain ⟨paddleX, pressed⟩ := breakout_key_eq game key
  rw [pressed] at paddle ⊢
  exact { onScreen with paddleLeft := paddle.1, paddleRight := paddle.2 }

theorem fxToInt_intToFx (a : Int) : fxToInt (intToFx a) = a := by
  rw [fxToInt, intToFx, fxOne_eq]
  omega

theorem bounced_bounded (onScreen : game.OnScreen scrW scrH) (going : game.gameOver = false)
    (wide : 80 ≤ scrW) (now : BitVec 64) : (game.bounced now).Bounded scrW scrH := by
  have width := onScreen.width
  have bottom := onScreen.ballBottom going
  have speedX := onScreen.speedX
  have speedY := onScreen.speedY
  have top := onScreen.ballTop
  simp only [fxOne_eq, ballSize_half, fxToInt] at speedX speedY bottom top
  rw [Breakout.bounced, bounce_eq]
  refine { onScreen.toBounded with
    width := width
    ballLeft := ?_
    ballRight := ?_
    ballTop := ?_
    ballFallen := ?_
    speedX := ?_
    speedY := ?_ }
  · dsimp only
    split_ifs with right left
    · rw [fxToInt_intToFx, width, ballSize_half]
      omega
    · rw [fxToInt_intToFx]
    · exact (not_le.mp left).le
  · dsimp only
    split_ifs with right left
    · rw [fxToInt_intToFx, width]
    · rw [fxToInt_intToFx, ballSize_half]
      omega
    · exact width ▸ (not_le.mp right).le
  · dsimp only
    split_ifs with low
    · rw [fxToInt_intToFx]
    · exact (not_le.mp low).le
  · dsimp only
    split_ifs with low
    · rw [fxToInt_intToFx, ballSize_half]
      omega
    · rw [fxToInt, fxOne_eq]
      omega
  · rw [fxOne_eq]
    split_ifs <;> dsimp only <;> omega
  · rw [fxOne_eq]
    dsimp only
    split_ifs <;> omega

/-- What `reset_ball` needs of the paddle. -/
structure Breakout.Paddled (scrW scrH : Int) (game : Breakout) : Prop where
  width : game.scrW = scrW
  height : game.scrH = scrH
  paddleW : game.paddleW = 80
  paddleY : game.paddleY = scrH - 40
  paddleLeft : 0 ≤ game.paddleX
  paddleRight : game.paddleX + game.paddleW ≤ scrW

theorem resetBall_onScreen (paddled : game.Paddled scrW scrH) (wide : 80 ≤ scrW)
    (tall : 64 ≤ scrH) : game.resetBall.OnScreen scrW scrH := by
  have middle : scrW.tdiv 2 = scrW / 2 := Int.tdiv_eq_ediv_of_nonneg (by omega)
  have height : fxToInt (intToFx (game.paddleY - 20)) = scrH - 60 := by
    rw [fxToInt_intToFx, paddled.paddleY]
    omega
  have column : fxToInt (intToFx (game.scrW.tdiv 2)) = scrW / 2 := by
    rw [fxToInt_intToFx, paddled.width, middle]
  have speed : -(fxOne * 3) ≤ fxOne * 2 ∧ fxOne * 2 ≤ fxOne * 3 := by decide
  exact { paddled with
    ballLeft := column ▸ (by rw [ballSize_half]; omega)
    ballRight := column ▸ (by rw [ballSize_half]; omega)
    ballTop := height ▸ (by rw [ballSize_half]; omega)
    ballFallen := height ▸ (by omega)
    speedX := speed
    speedY := .inr rfl
    ballBottom := fun _ => height ▸ (by omega) }

theorem lose_onScreen (bounded : game.Bounded scrW scrH) (wide : 80 ≤ scrW) (tall : 64 ≤ scrH) :
    game.lose.OnScreen scrW scrH := by
  rw [Breakout.lose]
  dsimp only
  split
  next last => exact { bounded with ballBottom := fun going => absurd going Bool.true_eq_false_eq_False }
  next more =>
    have paddled : Breakout.Paddled scrW scrH { game with lives := game.lives - 1 } :=
      { bounded with }
    exact resetBall_onScreen paddled wide tall

theorem bouncePaddle_onScreen (bounded : game.Bounded scrW scrH) (tall : 64 ≤ scrH) (bx : Int) :
    (game.bouncePaddle bx).OnScreen scrW scrH := by
  have height : fxToInt (intToFx (game.paddleY - ballSize / 2)) = scrH - 44 := by
    rw [fxToInt_intToFx, bounded.paddleY, ballSize_half]
    omega
  refine { bounded with
    ballTop := ?_
    ballFallen := ?_
    speedX := ?_
    speedY := ?_
    ballBottom := fun _ => ?_ }
  · exact height ▸ (by rw [ballSize_half]; omega)
  · exact height ▸ (by omega)
  · simp only [Breakout.bouncePaddle, fxOne_eq]
    split_ifs <;> omega
  · have speed := bounded.speedY
    simp only [Breakout.bouncePaddle]
    omega
  · exact height ▸ (by omega)

theorem hitBricks_onScreen (onScreen : game.OnScreen scrW scrH) (bx bY : Int) :
    (game.hitBricks bx bY).OnScreen scrW scrH := by
  rcases hitBricks_cases game bx bY with same | ⟨r, c, _, broken⟩
  · rw [same]
    exact onScreen
  · rw [broken]
    have speed := onScreen.speedY
    exact { onScreen with speedY := by simp only [Breakout.breakBrick]; omega }

theorem breakout_step_onScreen (wide : 80 ≤ scrW) (tall : 64 ≤ scrH)
    (onScreen : game.OnScreen scrW scrH) {call : BreakoutCall} {after : Breakout}
    (stepped : game.step call = some after) : after.OnScreen scrW scrH := by
  cases call with
  | key key =>
      obtain rfl := Option.some.inj stepped
      exact key_onScreen onScreen key
  | tick now =>
      obtain rfl := Option.some.inj stepped
      cases lost : game.gameOver with
      | true =>
          rw [Breakout.tick, if_pos (by rw [lost]; rfl)]
          exact onScreen
      | false =>
          have bounded := bounced_bounded onScreen lost wide now
          rcases breakout_tick_cases game now with ⟨_, run⟩ | ⟨_, run⟩ | ⟨_, run⟩ | ⟨flies, run⟩ <;>
            rw [run]
          · exact onScreen
          · exact lose_onScreen bounded wide tall
          · exact hitBricks_onScreen (bouncePaddle_onScreen bounded tall _) _ _
          · refine hitBricks_onScreen { bounded with ballBottom := fun _ => ?_ } _ _
            have kept := flies.kept
            rw [onScreen.height] at kept
            rw [Breakout.bounced, bounce_eq]
            dsimp only
            split_ifs
            next =>
              rw [fxToInt_intToFx, ballSize_half]
              omega
            next => exact kept

theorem breakoutInit_onScreen (wide : 80 ≤ scrW) (tall : 64 ≤ scrH) (now : BitVec 64) :
    (breakoutInit scrW scrH now).OnScreen scrW scrH := by
  have middle : (scrW - 80).tdiv 2 = (scrW - 80) / 2 := Int.tdiv_eq_ediv_of_nonneg (by omega)
  rw [breakoutInit]
  have paddled : ∀ game : Breakout, game.scrW = scrW → game.scrH = scrH → game.paddleW = 80 →
      game.paddleY = scrH - 40 → game.paddleX = (scrW - 80) / 2 → game.Paddled scrW scrH :=
    fun game width height paddleW paddleY paddleX =>
      ⟨width, height, paddleW, paddleY, by omega, by omega⟩
  exact resetBall_onScreen (paddled _ rfl rfl rfl rfl middle) wide tall

end Screen

/-- In every run on a target of at least 80 by 64 pixels the paddle stays on it, and so does the
ball, which only leaves it downwards when the last life is lost. The velocity of the ball is at
most three pixels a tick across and two up or down. -/
theorem breakout_stays_onScreen (scrW scrH : Int) (wide : 80 ≤ scrW) (tall : 64 ≤ scrH)
    (now : BitVec 64) (calls : List BreakoutCall) :
    Transition.EveryState Breakout.step (Breakout.OnScreen scrW scrH)
      (breakoutInit scrW scrH now) calls :=
  Transition.everyState_of_invariant
    (fun _ _ _ onScreen stepped => breakout_step_onScreen wide tall onScreen stepped)
    (breakoutInit_onScreen wide tall now) calls

/-- In the window of the desktop. -/
theorem breakout_stays_onScreen_window :
    Transition.EveryState Breakout.step (Breakout.OnScreen 620 440) (breakoutInit 620 440 0)
      [.tick 3, .key keyLeft, .tick 6] :=
  breakout_stays_onScreen 620 440 (by decide) (by decide) 0 _

end DragoonKernel
