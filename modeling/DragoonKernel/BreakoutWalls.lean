import DragoonKernel.BreakoutCore
import DragoonKernel.Library.Transition

/-!
The ball at the side walls. A wall negates the horizontal velocity whatever its sign, and it is
touched as long as the whole pixel of the ball is in reach of it.
-/

namespace DragoonKernel

def Breakout.nextBx (game : Breakout) : Int := fxToInt (game.ballX + game.ballDx)

def Breakout.nextBy (game : Breakout) : Int := fxToInt (game.ballY + game.ballDy)

def Breakout.TouchesLeft (game : Breakout) : Prop := game.nextBx ≤ ballSize / 2

def Breakout.TouchesRight (game : Breakout) : Prop := game.nextBx ≥ game.scrW - ballSize / 2

/-- The ball after it has moved and the walls have thrown it back. -/
def Breakout.bounced (game : Breakout) (now : BitVec 64) : Breakout :=
  Breakout.bounce { game with
    lastTick := now
    ballX := game.ballX + game.ballDx
    ballY := game.ballY + game.ballDy } game.nextBx game.nextBy

/-- The tick moves the ball, which is neither lost nor touches the paddle. -/
structure Breakout.Flies (game : Breakout) (now : BitVec 64) : Prop where
  playing : (game.gameOver || game.gameWon) = false
  due : ((now - game.lastTick).setWidth 32).slt 3 = false
  kept : game.nextBy < game.scrH
  free : (game.bounced now).onPaddle game.nextBx game.nextBy = false

/-- The wall that is touched sends the ball away from it. -/
def LeavesWallsStep (before : Breakout) (call : BreakoutCall) (after : Breakout) : Prop :=
  ∀ now, call = .tick now → before.Flies now →
    (before.TouchesLeft → 0 ≤ after.ballDx) ∧ (before.TouchesRight → after.ballDx ≤ 0)

/-- The ball does not touch a wall that it moves away from. -/
def MovesClearStep (before : Breakout) (call : BreakoutCall) (_ : Breakout) : Prop :=
  ∀ now, call = .tick now → before.Flies now →
    ¬(before.TouchesLeft ∧ 0 < before.ballDx) ∧ ¬(before.TouchesRight ∧ before.ballDx < 0)

/-- The ball is where the left wall has put it, and moves away from it by less than a pixel. -/
structure Breakout.Held (game : Breakout) : Prop where
  atWall : game.ballX = intToFx (ballSize / 2)
  away : 0 < game.ballDx
  slow : game.ballDx < fxOne

def NotHeldStep (before : Breakout) (call : BreakoutCall) (_ : Breakout) : Prop :=
  ∀ now, call = .tick now → before.Flies now → ¬before.Held

/-- Between two calls the ball is where a wall has put it or out of the reach of both. -/
structure Breakout.Placed (scrW : Int) (game : Breakout) : Prop where
  width : game.scrW = scrW
  left : game.ballX = intToFx (ballSize / 2) ∨ intToFx (ballSize / 2 + 1) ≤ game.ballX
  right : game.ballX ≤ intToFx (scrW - ballSize / 2)

/-! ### What a tick does to the ball -/

variable {game : Breakout} {now : BitVec 64}

theorem fxOne_eq : fxOne = 256 := rfl

theorem intToFx_eq (a : Int) : intToFx a = a * 256 := rfl

theorem ballSize_half : ballSize / 2 = 4 := rfl

theorem fxToInt_le_iff (a n : Int) : fxToInt a ≤ n ↔ a < intToFx (n + 1) := by
  rw [fxToInt, fxOne_eq, intToFx_eq]
  omega

theorem le_fxToInt_iff (a n : Int) : n ≤ fxToInt a ↔ intToFx n ≤ a := by
  rw [fxToInt, fxOne_eq, intToFx_eq]
  omega

theorem hitBricks_ball (game : Breakout) (bx bY : Int) :
    (game.hitBricks bx bY).ballX = game.ballX ∧ (game.hitBricks bx bY).ballDx = game.ballDx ∧
      (game.hitBricks bx bY).scrW = game.scrW := by
  rw [Breakout.hitBricks]
  split <;> exact ⟨rfl, rfl, rfl⟩

theorem bounce_eq (game : Breakout) (bx bY : Int) :
    game.bounce bx bY = { game with
      ballX := if bx ≥ game.scrW - ballSize / 2 then intToFx (game.scrW - ballSize / 2)
        else if bx ≤ ballSize / 2 then intToFx (ballSize / 2)
        else game.ballX
      ballDx := (if bx ≥ game.scrW - ballSize / 2 then -1 else 1) *
        ((if bx ≤ ballSize / 2 then -1 else 1) * game.ballDx)
      ballY := if bY ≤ ballSize / 2 then intToFx (ballSize / 2) else game.ballY
      ballDy := if bY ≤ ballSize / 2 then -game.ballDy else game.ballDy } := by
  rw [Breakout.bounce]
  by_cases left : bx ≤ ballSize / 2 <;> by_cases right : bx ≥ game.scrW - ballSize / 2 <;>
    by_cases top : bY ≤ ballSize / 2 <;> simp [left, right, top]

theorem breakout_key_eq (game : Breakout) (key : Int) :
    ∃ paddleX, game.key key = { game with paddleX } := by
  rw [Breakout.key]
  split
  · exact ⟨game.paddleX, rfl⟩
  · exact ⟨_, rfl⟩

/-- A tick does nothing, loses the ball, throws it back from the paddle or lets it fly. -/
theorem breakout_tick_cases (game : Breakout) (now : BitVec 64) :
    (¬game.Flies now ∧ (game.tick now).1 = game) ∨
      (¬game.Flies now ∧ (game.tick now).1 = (game.bounced now).lose) ∨
      (¬game.Flies now ∧ (game.tick now).1 =
        ((game.bounced now).bouncePaddle game.nextBx).hitBricks game.nextBx game.nextBy) ∨
      (game.Flies now ∧ (game.tick now).1 =
        (game.bounced now).hitBricks game.nextBx game.nextBy) := by
  rw [Breakout.tick]
  split
  next done =>
    exact .inl ⟨fun flies => Bool.false_ne_true (flies.playing.symm.trans done), rfl⟩
  split
  next early => exact .inl ⟨fun flies => Bool.false_ne_true (flies.due.symm.trans early), rfl⟩
  next playing late =>
    have height : (game.bounced now).scrH = game.scrH := by
      rw [Breakout.bounced, bounce_eq]
    refine .inr ?_
    dsimp only
    split
    next lost =>
      refine .inl ⟨fun flies => ?_, rfl⟩
      have lost : game.nextBy ≥ (game.bounced now).scrH := lost
      exact absurd flies.kept (not_lt.mpr (height ▸ lost))
    next kept =>
      have kept : ¬game.nextBy ≥ (game.bounced now).scrH := kept
      rw [height] at kept
      cases free : (game.bounced now).onPaddle game.nextBx game.nextBy with
      | true =>
          refine .inr (.inl ⟨fun flies => Bool.false_ne_true (flies.free.symm.trans free), ?_⟩)
          exact congrArg (Breakout.hitBricks · game.nextBx game.nextBy) (if_pos free)
      | false =>
          have flies : game.Flies now := ⟨Bool.eq_false_of_not_eq_true playing,
            Bool.eq_false_of_not_eq_true late, not_le.mp kept, free⟩
          refine .inr (.inr ⟨flies, ?_⟩)
          exact congrArg (Breakout.hitBricks · game.nextBx game.nextBy)
            (if_neg (Bool.not_eq_true _ ▸ free))

theorem tick_of_flies (flies : game.Flies now) :
    (game.tick now).1 = (game.bounced now).hitBricks game.nextBx game.nextBy := by
  rcases breakout_tick_cases game now with ⟨still, _⟩ | ⟨lost, _⟩ | ⟨thrown, _⟩ | ⟨_, run⟩
  · exact absurd flies still
  · exact absurd flies lost
  · exact absurd flies thrown
  · exact run

/-- The velocity of a ball that flies. -/
theorem flies_ballDx (flies : game.Flies now) :
    (game.tick now).1.ballDx = (if game.nextBx ≥ game.scrW - ballSize / 2 then -1 else 1) *
      ((if game.nextBx ≤ ballSize / 2 then -1 else 1) * game.ballDx) := by
  rw [tick_of_flies flies, (hitBricks_ball _ _ _).2.1, Breakout.bounced, bounce_eq]

theorem leavesWalls_iff {call : BreakoutCall} {after : Breakout}
    (stepped : game.step call = some after) :
    LeavesWallsStep game call after ↔ MovesClearStep game call after := by
  refine forall_congr' fun now => forall_congr' fun same => forall_congr' fun flies => ?_
  subst same
  obtain rfl := Option.some.inj stepped
  rw [flies_ballDx flies, Breakout.TouchesLeft, Breakout.TouchesRight]
  by_cases left : game.nextBx ≤ ballSize / 2 <;>
    by_cases right : game.nextBx ≥ game.scrW - ballSize / 2 <;> simp [left, right]
  all_goals omega

/-! ### Targets that are wide enough for the two walls -/

variable {scrW : Int}

theorem movesClear_iff_notHeld (placed : game.Placed scrW) (call : BreakoutCall)
    (after : Breakout) : MovesClearStep game call after ↔ NotHeldStep game call after := by
  refine forall_congr' fun now => forall_congr' fun same => forall_congr' fun flies => ?_
  obtain ⟨rfl, left, right⟩ := placed
  have touchesLeft : game.TouchesLeft ↔ game.ballX + game.ballDx < intToFx (ballSize / 2 + 1) :=
    fxToInt_le_iff _ _
  have touchesRight : game.TouchesRight ↔
      intToFx (game.scrW - ballSize / 2) ≤ game.ballX + game.ballDx := le_fxToInt_iff _ _
  rw [touchesLeft, touchesRight]
  simp only [intToFx_eq, ballSize_half] at left right ⊢
  constructor
  · rintro ⟨clear, _⟩ ⟨atWall, away, slow⟩
    rw [intToFx_eq, ballSize_half] at atWall
    rw [fxOne_eq] at slow
    omega
  · intro free
    refine ⟨fun ⟨touches, away⟩ => free ⟨?_, away, ?_⟩, fun ⟨touches, back⟩ => ?_⟩
    · rw [intToFx_eq, ballSize_half]
      omega
    · rw [fxOne_eq]
      omega
    · omega

theorem bounced_placed (wide : 10 ≤ scrW) (placed : game.Placed scrW) (now : BitVec 64) :
    (game.bounced now).Placed scrW := by
  obtain ⟨rfl, left, right⟩ := placed
  have touchesLeft := fxToInt_le_iff (game.ballX + game.ballDx) (ballSize / 2)
  have touchesRight := le_fxToInt_iff (game.ballX + game.ballDx) (game.scrW - ballSize / 2)
  rw [Breakout.bounced, bounce_eq]
  refine ⟨rfl, ?_, ?_⟩ <;> dsimp only
  · split
    next atRight =>
      simp only [intToFx_eq, ballSize_half]
      omega
    split
    next atLeft => exact .inl rfl
    next away => exact .inr (not_lt.mp (touchesLeft.not.mp away))
  · split
    next atRight => exact le_rfl
    next before =>
      have short := touchesRight.not.mp before
      split
      next atLeft =>
        simp only [intToFx_eq, ballSize_half]
        omega
      next away => exact (not_le.mp short).le

theorem resetBall_placed (game : Breakout) (wide : 10 ≤ game.scrW) :
    game.resetBall.Placed game.scrW := by
  have middle : game.scrW.tdiv 2 = game.scrW / 2 := Int.tdiv_eq_ediv_of_nonneg (by omega)
  refine ⟨rfl, .inr ?_, ?_⟩ <;>
    simp only [Breakout.resetBall, middle, intToFx_eq, ballSize_half] <;> omega

theorem lose_placed (wide : 10 ≤ scrW) (placed : game.Placed scrW) : game.lose.Placed scrW := by
  obtain ⟨rfl, left, right⟩ := placed
  rw [Breakout.lose]
  dsimp only
  split
  · exact ⟨rfl, left, right⟩
  · exact resetBall_placed { game with lives := game.lives - 1 } wide

theorem hitBricks_placed (placed : game.Placed scrW) (bx bY : Int) :
    (game.hitBricks bx bY).Placed scrW := by
  obtain ⟨ballX, _, width⟩ := hitBricks_ball game bx bY
  exact ⟨width.trans placed.width, ballX ▸ placed.left, ballX ▸ placed.right⟩

theorem step_placed (wide : 10 ≤ scrW) (placed : game.Placed scrW) {call : BreakoutCall}
    {after : Breakout} (stepped : game.step call = some after) : after.Placed scrW := by
  cases call with
  | key key =>
      obtain rfl := Option.some.inj stepped
      obtain ⟨paddleX, pressed⟩ := breakout_key_eq game key
      rw [pressed]
      exact ⟨placed.width, placed.left, placed.right⟩
  | tick now =>
      obtain rfl := Option.some.inj stepped
      have bounced : (game.bounced now).Placed scrW := bounced_placed wide placed now
      rcases breakout_tick_cases game now with ⟨_, run⟩ | ⟨_, run⟩ | ⟨_, run⟩ | ⟨_, run⟩ <;>
        rw [run]
      · exact placed
      · exact lose_placed wide bounced
      · have thrown : ((game.bounced now).bouncePaddle game.nextBx).Placed scrW :=
          ⟨bounced.width, bounced.left, bounced.right⟩
        exact hitBricks_placed thrown _ _
      · exact hitBricks_placed bounced _ _

/-- The ball leaves the side walls exactly when it never touches one that it moves away from,
and between walls that are not closer than 10 pixels exactly when it is never held. -/
theorem breakout_leaves_walls_iff (scrW scrH : Int) (now : BitVec 64)
    (calls : List BreakoutCall) :
    (Transition.EveryStep Breakout.step LeavesWallsStep (breakoutInit scrW scrH now) calls ↔
      Transition.EveryStep Breakout.step MovesClearStep (breakoutInit scrW scrH now) calls) ∧
    (10 ≤ scrW →
      (Transition.EveryStep Breakout.step LeavesWallsStep (breakoutInit scrW scrH now) calls ↔
        Transition.EveryStep Breakout.step NotHeldStep (breakoutInit scrW scrH now) calls)) := by
  constructor
  · refine @Transition.everyStep_iff_of_promise _ _ Breakout.step (fun _ => True) _ _ _ ?_ _
      trivial _ (Transition.everyStep_trivial _ calls)
    exact fun before call after _ stepped _ => ⟨leavesWalls_iff stepped, fun _ => trivial⟩
  · intro wide
    refine Transition.everyStep_iff_of_promise ?_ (resetBall_placed _ wide)
      (Transition.everyStep_trivial _ calls)
    intro before call after placed stepped _
    refine ⟨?_, fun _ => step_placed wide placed stepped⟩
    exact (leavesWalls_iff stepped).trans (movesClear_iff_notHeld placed call after)

/-! ### Free flight -/

/-- The next move reaches no wall and no brick, and does not go down to the paddle. -/
structure Breakout.Airborne (game : Breakout) : Prop where
  left : ¬game.TouchesLeft
  right : ¬game.TouchesRight
  below : brickOffsetY + brickRows * (brickH + brickGap) < game.nextBy
  above : game.nextBy < game.scrH
  paddle : game.ballDy ≤ 0 ∨ game.nextBy < game.paddleY - ballSize / 2

/-- The ball after so many moves, one in each period of three ticks of the timer. -/
def Breakout.flown (game : Breakout) (n : Nat) : Breakout :=
  { game with
    lastTick := game.lastTick + BitVec.ofNat 64 (3 * n)
    ballX := game.ballX + n * game.ballDx
    ballY := game.ballY + n * game.ballDy }

def ticksAfter (last : BitVec 64) (n : Nat) : List BreakoutCall :=
  (List.range n).map fun i => .tick (last + BitVec.ofNat 64 (3 * (i + 1)))

theorem hitBricks_of_below {bx bY : Int}
    (below : brickOffsetY + brickRows * (brickH + brickGap) < bY) :
    game.hitBricks bx bY = game := by
  rw [Breakout.hitBricks]
  split
  next r c found =>
    have chosen := List.find?_some found
    have hit : game.hitsBrick bx bY r c = true := chosen
    have reaches : bY - ballSize / 2 ≤ brickOffsetY + r * (brickH + brickGap) + brickH :=
      of_decide_eq_true (Bool.and_eq_true_iff.mp hit).2
    have inRows : r < brickRows := by
      obtain ⟨row, inRange, listed⟩ := List.mem_flatMap.mp (List.mem_of_find?_eq_some found)
      obtain ⟨_, _, same⟩ := List.mem_map.mp listed
      exact (Prod.mk.inj same).1 ▸ List.mem_range.mp inRange
    rw [ballSize_half] at reaches
    simp only [brickOffsetY, brickH, brickGap, brickRows] at below reaches inRows
    omega
  next => rfl

/-- A tick when the time has come. -/
theorem airborne_tick (game : Breakout) (now : BitVec 64)
    (playing : (game.gameOver || game.gameWon) = false)
    (due : ((now - game.lastTick).setWidth 32).slt 3 = false) (airborne : game.Airborne) :
    (game.tick now).1 = { game with
      lastTick := now, ballX := game.ballX + game.ballDx, ballY := game.ballY + game.ballDy } := by
  obtain ⟨left, right, below, above, paddle⟩ := airborne
  have top : ¬game.nextBy ≤ ballSize / 2 := by
    rw [ballSize_half]
    simp only [brickOffsetY, brickH, brickGap, brickRows] at below
    omega
  have moved : game.bounced now = { game with
      lastTick := now, ballX := game.ballX + game.ballDx, ballY := game.ballY + game.ballDy } := by
    have left : ¬game.nextBx ≤ ballSize / 2 := left
    have right : ¬game.nextBx ≥ game.scrW - ballSize / 2 := right
    rw [Breakout.bounced, bounce_eq]
    simp only [left, right, top, if_false, one_mul]
  have free : (game.bounced now).onPaddle game.nextBx game.nextBy = false := by
    rw [moved, Breakout.onPaddle]
    rcases paddle with up | high
    · have still : decide (game.ballDy > 0) = false := decide_eq_false (not_lt.mpr up)
      simp only [still, Bool.false_and]
    · have short : decide (game.nextBy ≥ game.paddleY - ballSize / 2) = false :=
        decide_eq_false (not_le.mpr high)
      simp only [short, Bool.and_false, Bool.false_and]
  rw [tick_of_flies ⟨playing, due, above, free⟩, hitBricks_of_below below, moved]

theorem period (last : BitVec 64) (n : Nat) :
    last + BitVec.ofNat 64 (3 * (n + 1)) - (last + BitVec.ofNat 64 (3 * n)) = 3 := by
  rw [Nat.mul_succ, BitVec.ofNat_add, ← BitVec.add_assoc, BitVec.add_comm, BitVec.add_sub_cancel]
  rfl

theorem exec_flight (n : Nat) (playing : (game.gameOver || game.gameWon) = false)
    (airborne : ∀ i < n, (game.flown i).Airborne) :
    Transition.exec Breakout.step game (ticksAfter game.lastTick n) = some (game.flown n) := by
  induction n with
  | zero => simp [ticksAfter, Breakout.flown]
  | succ n ih =>
      rw [ticksAfter, List.range_succ, List.map_append, Transition.exec_append_iff]
      refine ⟨game.flown n, ih fun i below => airborne i (below.trans n.lt_succ_self), ?_⟩
      have due : ((game.lastTick + BitVec.ofNat 64 (3 * (n + 1)) -
          (game.flown n).lastTick).setWidth 32).slt 3 = false := by
        rw [Breakout.flown, period]
        decide
      have run := airborne_tick (game.flown n) _ playing due (airborne n n.lt_succ_self)
      have further (start step : Int) : start + n * step + step = start + (n + 1 : Nat) * step := by
        rw [Nat.cast_succ, add_one_mul, add_assoc]
      rw [List.map_singleton, Transition.exec, Breakout.step, run, Breakout.flown, further, further]
      rfl

/-! ### A ball that is held -/

/-- A game in the window of the desktop. -/
def windowGame (ballX ballY ballDx ballDy paddleX : Int) (bricks : List (List Bool))
    (score bricksLeft : Int) (lastTick : BitVec 64) : Breakout :=
  { breakoutInit 620 440 0 with
    ballX, ballY, ballDx, ballDy, paddleX, bricks, score, bricksLeft, lastTick }

/-- The moves of a ball that flies, and the tick after them. -/
theorem window_flight {ballX ballY ballDx ballDy paddleX score bricksLeft : Int}
    {bricks : List (List Bool)} {lastTick : BitVec 64} (n : Nat)
    (clear : ∀ i < n, 1280 ≤ ballX + i * ballDx + ballDx ∧ ballX + i * ballDx + ballDx < 157696 ∧
      36096 ≤ ballY + i * ballDy + ballDy ∧ ballY + i * ballDy + ballDy < 112640 ∧
      (ballDy ≤ 0 ∨ ballY + i * ballDy + ballDy < 101376)) :
    Transition.exec Breakout.step
        (windowGame ballX ballY ballDx ballDy paddleX bricks score bricksLeft lastTick)
        (ticksAfter lastTick (n + 1)) =
      some (Breakout.tick (windowGame (ballX + n * ballDx) (ballY + n * ballDy) ballDx ballDy
        paddleX bricks score bricksLeft (lastTick + BitVec.ofNat 64 (3 * n)))
          (lastTick + BitVec.ofNat 64 (3 * (n + 1)))).1 := by
  rw [ticksAfter, List.range_succ, List.map_append, Transition.exec_append_iff]
  refine ⟨_, exec_flight n rfl fun i below => ?_, rfl⟩
  obtain ⟨left, right, below, above, paddle⟩ := clear i below
  exact {
    left := fun touches => absurd ((fxToInt_le_iff _ _).mp touches) (not_lt.mpr left)
    right := fun touches => absurd ((le_fxToInt_iff _ _).mp touches) (not_le.mpr right)
    below := (le_fxToInt_iff _ 141).mpr below
    above := not_le.mp fun lost => absurd ((le_fxToInt_iff _ _).mp lost) (not_le.mpr above)
    paddle := paddle.imp_right fun high =>
      not_le.mp fun low => absurd ((le_fxToInt_iff _ _).mp low) (not_le.mpr high) }

/-- To the right with the paddle, and back to the left end and one step to the right once the ball
has come back from it. -/
def heldCalls : List BreakoutCall :=
  List.replicate 17 (.key keyRight) ++ (ticksAfter 0 120 ++ (ticksAfter 360 33 ++
    (ticksAfter 459 95 ++ (List.replicate 51 (.key keyLeft) ++ [.key keyRight] ++
      (ticksAfter 744 128 ++ (ticksAfter 1128 128 ++ ticksAfter 1512 83))))))

def fullBricks : List (List Bool) := List.replicate 5 (List.replicate 10 true)

def oneBroken : List (List Bool) := fullBricks.modify 4 (·.set 8 false)

def twoBroken : List (List Bool) := oneBroken.modify 4 (·.set 3 false)

theorem exec_heldCalls : Transition.exec Breakout.step (breakoutInit 620 440 0) heldCalls =
    some (windowGame 1024 58880 115 (-512) 8 twoBroken 20 48 1761) := by
  have aims : Transition.exec Breakout.step (breakoutInit 620 440 0)
      (List.replicate 17 (.key keyRight)) =
        some (windowGame 79360 97280 512 (-512) 406 fullBricks 0 50 0) := by decide +kernel
  have breaks : Transition.exec Breakout.step
      (windowGame 79360 97280 512 (-512) 406 fullBricks 0 50 0) (ticksAfter 0 120) =
        some (windowGame 140800 35840 512 512 406 oneBroken 10 49 360) :=
    (window_flight 119 (by omega)).trans (by decide +kernel)
  have turns : Transition.exec Breakout.step
      (windowGame 140800 35840 512 512 406 oneBroken 10 49 360) (ticksAfter 360 33) =
        some (windowGame 157696 52736 (-512) 512 406 oneBroken 10 49 459) :=
    (window_flight 32 (by omega)).trans (by decide +kernel)
  have comesBack : Transition.exec Breakout.step
      (windowGame 157696 52736 (-512) 512 406 oneBroken 10 49 459) (ticksAfter 459 95) =
        some (windowGame 109056 101376 (-384) (-512) 406 oneBroken 10 49 744) :=
    (window_flight 94 (by omega)).trans (by decide +kernel)
  have aimsAgain : Transition.exec Breakout.step
      (windowGame 109056 101376 (-384) (-512) 406 oneBroken 10 49 744)
      (List.replicate 51 (.key keyLeft) ++ [.key keyRight]) =
        some (windowGame 109056 101376 (-384) (-512) 8 oneBroken 10 49 744) := by decide +kernel
  have breaksAgain : Transition.exec Breakout.step
      (windowGame 109056 101376 (-384) (-512) 8 oneBroken 10 49 744) (ticksAfter 744 128) =
        some (windowGame 59904 35840 (-384) 512 8 twoBroken 20 48 1128) :=
    (window_flight 127 (by omega)).trans (by decide +kernel)
  have slows : Transition.exec Breakout.step
      (windowGame 59904 35840 (-384) 512 8 twoBroken 20 48 1128) (ticksAfter 1128 128) =
        some (windowGame 10752 101376 (-115) (-512) 8 twoBroken 20 48 1512) :=
    (window_flight 127 (by omega)).trans (by decide +kernel)
  have touches : Transition.exec Breakout.step
      (windowGame 10752 101376 (-115) (-512) 8 twoBroken 20 48 1512) (ticksAfter 1512 83) =
        some (windowGame 1024 58880 115 (-512) 8 twoBroken 20 48 1761) :=
    (window_flight 82 (by omega)).trans (by decide +kernel)
  simp only [heldCalls, Transition.exec_append_iff]
  exact ⟨_, aims, _, breaks, _, turns, _, comesBack, _,
    Transition.exec_append_iff.mp aimsAgain, _, breaksAgain, _, slows, touches⟩

/-- The wall turns the ball, which has moved away from it by less than a pixel, back to itself. -/
theorem breakout_ball_held : ¬Transition.EveryStep Breakout.step LeavesWallsStep
    (breakoutInit 620 440 0) (heldCalls ++ [.tick 1764]) := by
  intro leaves
  have last := leaves.snoc exec_heldCalls rfl
  have flies : (windowGame 1024 58880 115 (-512) 8 twoBroken 20 48 1761).Flies 1764 :=
    ⟨by decide, by decide, by decide, by decide⟩
  have touches : (windowGame 1024 58880 115 (-512) 8 twoBroken 20 48 1761).nextBx ≤
      ballSize / 2 := by
    decide
  exact absurd ((last 1764 rfl flies).1 touches) (by decide +kernel)

end DragoonKernel
