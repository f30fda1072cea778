import DragoonKernel.Library.Grid
import DragoonKernel.VirtioKbdCore

/-!
Executable model of `games/snake.c`. A call that writes outside of `snake_x` and `snake_y` fails.
-/

namespace DragoonKernel

def gridW : Nat := 38

def gridH : Nat := 28

def maxSnake : Nat := gridW * gridH

inductive Dir where
  | up
  | down
  | left
  | right
deriving DecidableEq

structure Snake where
  rngState : BitVec 32
  snakeX : Nat → Int
  snakeY : Nat → Int
  snakeLen : Nat
  dir : Dir
  foodX : Int
  foodY : Int
  score : BitVec 32
  gameOver : Bool
  lastTick : BitVec 64
  tickInterval : BitVec 32

/-- The variables before `snake_init`. -/
def Snake.cleared : Snake where
  rngState := 0
  snakeX _ := 0
  snakeY _ := 0
  snakeLen := 0
  dir := .up
  foodX := 0
  foodY := 0
  score := 0
  gameOver := false
  lastTick := 0
  tickInterval := 0

/-- The next state of the generator and the number it gives. -/
def rngNext (rngState : BitVec 32) : BitVec 32 × Nat :=
  let rngState := rngState * 1103515245 + 12345
  (rngState, ((rngState >>> 16) &&& 0x7FFF).toNat)

/-- Whether one of the first `snakeLen` cells is here. -/
def Snake.occupies (snake : Snake) (x y : Int) : Bool :=
  (List.range snake.snakeLen).any fun i => snake.snakeX i == x && snake.snakeY i == y

/-- The loop of `place_food` with the attempts that are left. -/
def placeFoodFrom : Nat → Snake → Snake
  | 0, snake => snake
  | attempts + 1, snake =>
      let (rngState, x) := rngNext snake.rngState
      let (rngState, y) := rngNext rngState
      let fx : Int := (x % gridW : Nat)
      let fy : Int := (y % gridH : Nat)
      if !snake.occupies fx fy then { snake with rngState, foodX := fx, foodY := fy }
      else placeFoodFrom attempts { snake with rngState }

def Snake.placeFood (snake : Snake) : Snake := placeFoodFrom 1000 snake

def Snake.put (i : Nat) (x y : Int) (snake : Snake) : Option Snake :=
  if i < maxSnake then
    some { snake with
      snakeX := Function.update snake.snakeX i x, snakeY := Function.update snake.snakeY i y }
  else none

/-- `seed` and `now` are the two readings of the timer. -/
def Snake.init (snake : Snake) (seed now : BitVec 64) : Option Snake := do
  let snake := { snake with rngState := seed.setWidth 32, snakeLen := 3 }
  let snake ← loopUp (fun i => Snake.put i (gridW / 2 - i) (gridH / 2)) 3 snake
  return Snake.placeFood { snake with
    dir := .right, score := 0, gameOver := false, tickInterval := 12, lastTick := now }

def Snake.key (snake : Snake) (key : Int) : Snake :=
  if !snake.gameOver then
    let dir := if key = keyUp ∧ snake.dir ≠ .down then .up else snake.dir
    let dir := if key = keyDown ∧ dir ≠ .up then .down else dir
    let dir := if key = keyLeft ∧ dir ≠ .right then .left else dir
    let dir := if key = keyRight ∧ dir ≠ .left then .right else dir
    { snake with dir }
  else snake

/-- `nx` and `ny` of `snake_tick`. -/
def Snake.ahead (snake : Snake) : Int × Int :=
  let nx := snake.snakeX 0
  let ny := snake.snakeY 0
  match snake.dir with
  | .up => (nx, ny - 1)
  | .down => (nx, ny + 1)
  | .left => (nx - 1, ny)
  | .right => (nx + 1, ny)

/-- `for (i = count; i > 0; i--)` each cell takes the place of the one before it. -/
def Snake.shift (count : Nat) (snake : Snake) : Option Snake :=
  loopDown (fun i snake => snake.put i (snake.snakeX (i - 1)) (snake.snakeY (i - 1))) count snake

def Snake.advance (snake : Snake) (nx ny : Int) : Option Snake := do
  let ate := nx = snake.foodX ∧ ny = snake.foodY
  let snake ←
    if ¬ate then snake.shift (snake.snakeLen - 1)
    else do
      let snake ←
        if snake.snakeLen < maxSnake then do
          let snake ← snake.shift snake.snakeLen
          pure { snake with snakeLen := snake.snakeLen + 1 }
        else some snake
      pure (Snake.placeFood { snake with score := snake.score + 10 })
  snake.put 0 nx ny

def Snake.tick (snake : Snake) (now : BitVec 64) : Option (Snake × Int) :=
  if snake.gameOver then some (snake, 0)
  else if ((now - snake.lastTick).setWidth 32).slt snake.tickInterval then some (snake, 0)
  else
    let snake := { snake with lastTick := now }
    let (nx, ny) := snake.ahead
    if nx < 0 ∨ nx ≥ gridW ∨ ny < 0 ∨ ny ≥ gridH then some ({ snake with gameOver := true }, 1)
    else if snake.occupies nx ny then some ({ snake with gameOver := true }, 1)
    else do
      let snake ← snake.advance nx ny
      return (snake, 1)

inductive SnakeCall where
  | key (key : Int)
  | tick (now : BitVec 64)

def Snake.step (snake : Snake) : SnakeCall → Option Snake
  | .key key => some (snake.key key)
  | .tick now => do
      let (snake, _) ← snake.tick now
      return snake

end DragoonKernel
