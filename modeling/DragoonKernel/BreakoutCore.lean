import DragoonKernel.VirtioKbdCore

/-!
Executable model of `games/breakout.c`. The values of an `int` are integers here, and its
positions are fractions of a pixel with eight bits behind the point.
-/

namespace DragoonKernel

def fxShift : Nat := 8
def fxOne : Int := 2 ^ fxShift
def fxToInt (a : Int) : Int := a / fxOne
def intToFx (a : Int) : Int := a * fxOne

def brickCols : Nat := 10
def brickRows : Nat := 5
def brickW : Int := 58
def brickH : Int := 16
def brickGap : Int := 4
def brickOffsetY : Int := 40

def paddleH : Int := 12
def paddleSpeed : Int := 8
def ballSize : Int := 8

structure Breakout where
  bricks : List (List Bool)
  paddleX : Int
  paddleW : Int
  ballX : Int
  ballY : Int
  ballDx : Int
  ballDy : Int
  score : Int
  lives : Int
  gameOver : Bool
  gameWon : Bool
  bricksLeft : Int
  lastTick : BitVec 64
  scrW : Int
  scrH : Int
  paddleY : Int
  brickOffsetX : Int
deriving DecidableEq

def Breakout.resetBall (game : Breakout) : Breakout :=
  { game with
    ballX := intToFx (game.scrW.tdiv 2)
    ballY := intToFx (game.paddleY - 20)
    ballDx := fxOne * 2
    ballDy := -(fxOne * 2) }

/-- The arguments are the size of the render target and the time. -/
def breakoutInit (scrW scrH : Int) (now : BitVec 64) : Breakout :=
  let paddleW : Int := 80
  Breakout.resetBall {
    bricks := List.replicate brickRows (List.replicate brickCols true)
    paddleX := (scrW - paddleW).tdiv 2
    paddleW := paddleW
    ballX := 0
    ballY := 0
    ballDx := 0
    ballDy := 0
    score := 0
    lives := 3
    gameOver := false
    gameWon := false
    bricksLeft := brickRows * brickCols
    lastTick := now
    scrW := scrW
    scrH := scrH
    paddleY := scrH - 40
    brickOffsetX := (scrW - brickCols * (brickW + brickGap) + brickGap).tdiv 2 }

def Breakout.key (game : Breakout) (key : Int) : Breakout :=
  if game.gameOver || game.gameWon then game
  else
    let paddleX := game.paddleX
    let paddleX :=
      if (key = keyLeft ∨ key = ascii 'a' ∨ key = ascii 'A') ∧ paddleX > 0 then
        if paddleX - paddleSpeed < 0 then 0 else paddleX - paddleSpeed
      else paddleX
    let paddleX :=
      if (key = keyRight ∨ key = ascii 'd' ∨ key = ascii 'D') ∧
          paddleX < game.scrW - game.paddleW then
        if paddleX + paddleSpeed > game.scrW - game.paddleW then game.scrW - game.paddleW
        else paddleX + paddleSpeed
      else paddleX
    { game with paddleX }

/-- The three `if`s of the walls. -/
def Breakout.bounce (game : Breakout) (bx bY : Int) : Breakout :=
  let game := if bx ≤ ballSize / 2 then
    { game with ballX := intToFx (ballSize / 2), ballDx := -game.ballDx } else game
  let game := if bx ≥ game.scrW - ballSize / 2 then
    { game with ballX := intToFx (game.scrW - ballSize / 2), ballDx := -game.ballDx } else game
  if bY ≤ ballSize / 2 then
    { game with ballY := intToFx (ballSize / 2), ballDy := -game.ballDy } else game

def Breakout.lose (game : Breakout) : Breakout :=
  let game := { game with lives := game.lives - 1 }
  if game.lives ≤ 0 then { game with gameOver := true } else game.resetBall

def Breakout.onPaddle (game : Breakout) (bx bY : Int) : Bool :=
  game.ballDy > 0 && bY ≥ game.paddleY - ballSize / 2 && bY < game.paddleY + paddleH &&
    bx ≥ game.paddleX && bx ≤ game.paddleX + game.paddleW

def Breakout.bouncePaddle (game : Breakout) (bx : Int) : Breakout :=
  let hitPos := bx - game.paddleX - game.paddleW.tdiv 2
  let ballDx := (hitPos * fxOne * 3).tdiv (game.paddleW.tdiv 2)
  let ballDx := if ballDx > fxOne * 3 then fxOne * 3 else ballDx
  let ballDx := if ballDx < -(fxOne * 3) then -(fxOne * 3) else ballDx
  { game with ballDy := -game.ballDy, ballDx, ballY := intToFx (game.paddleY - ballSize / 2) }

def Breakout.brick (game : Breakout) (r c : Nat) : Bool := (game.bricks.getD r []).getD c false

def Breakout.hitsBrick (game : Breakout) (bx bY : Int) (r c : Nat) : Bool :=
  let brkX := game.brickOffsetX + c * (brickW + brickGap)
  let brkY := brickOffsetY + r * (brickH + brickGap)
  game.brick r c && bx + ballSize / 2 ≥ brkX && bx - ballSize / 2 ≤ brkX + brickW &&
    bY + ballSize / 2 ≥ brkY && bY - ballSize / 2 ≤ brkY + brickH

/-- The rows and columns in the order of the loops. -/
def brickPlaces : List (Nat × Nat) :=
  (List.range brickRows).flatMap fun r => (List.range brickCols).map fun c => (r, c)

def Breakout.breakBrick (game : Breakout) (r c : Nat) : Breakout :=
  let bricksLeft := game.bricksLeft - 1
  { game with
    bricks := game.bricks.modify r (·.set c false)
    bricksLeft
    score := game.score + (brickRows - r) * 10
    ballDy := -game.ballDy
    gameWon := if bricksLeft ≤ 0 then true else game.gameWon }

/-- The loops return at the first brick that is hit. -/
def Breakout.hitBricks (game : Breakout) (bx bY : Int) : Breakout :=
  match brickPlaces.find? fun (r, c) => game.hitsBrick bx bY r c with
  | some (r, c) => game.breakBrick r c
  | none => game

def Breakout.tick (game : Breakout) (now : BitVec 64) : Breakout × Int :=
  if game.gameOver || game.gameWon then (game, 0)
  else if ((now - game.lastTick).setWidth 32).slt 3 then (game, 0)
  else
    let game := { game with
      lastTick := now
      ballX := game.ballX + game.ballDx
      ballY := game.ballY + game.ballDy }
    let bx := fxToInt game.ballX
    let bY := fxToInt game.ballY
    let game := game.bounce bx bY
    if bY ≥ game.scrH then (game.lose, 1)
    else
      let game := if game.onPaddle bx bY then game.bouncePaddle bx else game
      (game.hitBricks bx bY, 1)

inductive BreakoutCall where
  | key (key : Int)
  | tick (now : BitVec 64)

def Breakout.step (game : Breakout) : BreakoutCall → Option Breakout
  | .key key => some (game.key key)
  | .tick now => some (game.tick now).1

end DragoonKernel
