import DragoonKernel.SnakePath

/-!
The snake over whole runs: its cells are the last places of its head, and the score counts the
food that it ate.
-/

namespace DragoonKernel

variable {snake next : Snake}

/-- The tick moves the head. -/
def Snake.Moves (snake : Snake) (now : BitVec 64) : Prop :=
  snake.Due now ∧ InGrid snake.ahead ∧ snake.ahead ∉ snake.cells

instance decidableMoves (snake : Snake) (now : BitVec 64) : Decidable (snake.Moves now) :=
  inferInstanceAs (Decidable ((_ ∧ _) ∧ ((_ ∧ _) ∧ _ ∧ _) ∧ ¬_))

/-- A run with the places of the head, the last one first, and the food eaten. -/
structure SnakeRun where
  snake : Snake
  trail : List (Int × Int)
  eaten : Nat

def SnakeRun.follow (run : SnakeRun) : SnakeCall → SnakeRun
  | .tick now =>
      if run.snake.Moves now then
        { run with
          trail := run.snake.ahead :: run.trail
          eaten := if run.snake.ahead = run.snake.food then run.eaten + 1 else run.eaten }
      else run
  | .key _ => run

def SnakeRun.step (run : SnakeRun) (call : SnakeCall) : Option SnakeRun :=
  (run.snake.step call).map fun snake => { run.follow call with snake }

/-- The cells that the snake starts on are the first part of the trail. -/
def SnakeRun.start (snake : Snake) : SnakeRun := ⟨snake, startCells, 0⟩

structure SnakeRun.Trailed (run : SnakeRun) : Prop where
  simple : run.snake.SimplePath
  cells : run.snake.cells = run.trail.take run.snake.snakeLen
  covered : run.snake.snakeLen ≤ run.trail.length
  connected : run.trail.IsChain Adjacent
  length : run.snake.snakeLen = 3 + run.eaten
  score : run.snake.score = BitVec.ofNat 32 (10 * run.eaten)

theorem put_score {i : Nat} {x y : Int} (stored : snake.put i x y = some next) :
    next.score = snake.score := by
  rw [Snake.put] at stored
  split at stored
  next => obtain rfl := Option.some.inj stored; rfl
  next => cases stored

theorem advance_score (snake : Snake) (short : snake.snakeLen < maxSnake) {nx ny : Int}
    (advanced : snake.advance nx ny = some next) :
    next.score = if (nx, ny) = snake.food then snake.score + 10 else snake.score := by
  rw [Snake.advance] at advanced
  by_cases food : (nx, ny) = snake.food
  · have ate : nx = snake.foodX ∧ ny = snake.foodY := Prod.mk.inj food
    obtain ⟨xs, ys, run, _⟩ := shift_some short snake
    obtain ⟨rngState, placing⟩ := placeFood_eq { snake with
      snakeX := xs, snakeY := ys, snakeLen := snake.snakeLen + 1, score := snake.score + 10 }
    rw [if_neg (not_not.mpr ate), if_pos short, run] at advanced
    rw [if_pos food]
    simp only [Option.bind_eq_bind, Option.pure_def, Option.bind_some] at advanced
    rw [put_score advanced]
    exact congrArg Snake.score placing
  · have hungry : ¬(nx = snake.foodX ∧ ny = snake.foodY) := fun ate =>
      food (Prod.ext ate.1 ate.2)
    obtain ⟨xs, ys, run, _⟩ := shift_some (show snake.snakeLen - 1 < maxSnake by omega) snake
    rw [if_pos hungry, run] at advanced
    simp only [Option.bind_eq_bind, Option.bind_some] at advanced
    rw [if_neg food]
    exact (put_score advanced).trans rfl

theorem tick_trails (simple : snake.SimplePath) (now : BitVec 64) :
    ∃ next changed, snake.tick now = some (next, changed) ∧ next.SimplePath ∧
      if snake.Moves now then
        snake.Advances snake.ahead next ∧
          next.score = if snake.ahead = snake.food then snake.score + 10 else snake.score
      else next.cells = snake.cells ∧ next.snakeLen = snake.snakeLen ∧
        next.score = snake.score := by
  obtain ⟨next, changed, run, outcome⟩ := tick_advances simple now
  refine ⟨next, changed, run, ?_⟩
  rcases outcome with ⟨idle, rfl⟩ | ⟨due, blocked, rfl⟩ | ⟨due, inGrid, free, advances⟩
  · rw [if_neg fun moves => idle moves.1]
    exact ⟨simple, rfl, rfl, rfl⟩
  · rw [if_neg fun moves => blocked.elim (· moves.2.1) moves.2.2]
    exact ⟨⟨simple.long, simple.short, simple.path⟩, rfl, rfl, rfl⟩
  · rw [if_pos ⟨due, inGrid, free⟩]
    refine ⟨advances.simple, advances, ?_⟩
    have path : IsPath (snake.ahead :: snake.cells) :=
      simple.path.cons (head_cells simple.long).1 (ahead_adjacent snake) inGrid free
    have room : snake.snakeLen < maxSnake := by
      have bound := path.length_le
      rw [List.length_cons, Snake.cells, List.length_map, List.length_range] at bound
      exact bound
    rcases tick_cases snake now with ⟨idle, _⟩ | ⟨_, blocked, _⟩ | ⟨_, _, _, ticked⟩
    · exact absurd due idle
    · exact absurd free (blocked.elim (absurd inGrid) (fun bitten => not_not.mpr bitten))
    · rw [run] at ticked
      obtain ⟨moved, advanced, same⟩ := Option.map_eq_some_iff.mp ticked.symm
      obtain rfl : moved = next := (Prod.mk.inj same).1
      exact advance_score { snake with lastTick := now } room advanced

theorem SnakeRun.Trailed.head {run : SnakeRun} (trailed : run.Trailed) :
    run.trail.head? = some (run.snake.cellAt 0) := by
  have long := trailed.simple.long
  have some : run.snake.snakeLen ≠ 0 := by omega
  have first := (head_cells long).1
  rw [trailed.cells, List.head?_take, if_neg some] at first
  exact first

theorem SnakeRun.Trailed.connect {run : SnakeRun} (trailed : run.Trailed) :
    (run.snake.ahead :: run.trail).IsChain Adjacent :=
  trailed.connected.cons fun cell first => by
    rw [trailed.head] at first
    exact Option.some.inj first ▸ ahead_adjacent run.snake

/-- The head goes on and the tail goes. -/
theorem SnakeRun.Trailed.shortened {run : SnakeRun} (trailed : run.Trailed) :
    run.snake.ahead :: run.snake.cells.dropLast =
      (run.snake.ahead :: run.trail).take run.snake.snakeLen := by
  have long := trailed.simple.long
  have covered := trailed.covered
  obtain ⟨n, length⟩ : ∃ n, run.snake.snakeLen = n + 1 := ⟨run.snake.snakeLen - 1, by omega⟩
  have inside : n + 1 ≤ run.trail.length := length ▸ covered
  rw [trailed.cells, length, List.take_succ_cons, List.dropLast_eq_take, List.length_take,
    Nat.min_eq_left inside, Nat.add_sub_cancel, List.take_take, Nat.min_eq_left (Nat.le_succ n)]

theorem snake_step_trailed {run : SnakeRun} (trailed : run.Trailed) (call : SnakeCall) :
    ∃ next, run.step call = some next ∧ next.Trailed := by
  cases call with
  | key key =>
      obtain ⟨dir, turned⟩ := key_eq run.snake key
      refine ⟨{ run with snake := run.snake.key key }, rfl, ?_⟩
      rw [turned]
      exact ⟨⟨trailed.simple.long, trailed.simple.short, trailed.simple.path⟩, trailed.cells,
        trailed.covered, trailed.connected, trailed.length, trailed.score⟩
  | tick now =>
      obtain ⟨next, changed, ticked, simple, outcome⟩ := tick_trails trailed.simple now
      have stepped : run.step (.tick now) = some { run.follow (.tick now) with snake := next } := by
        simp [SnakeRun.step, Snake.step, ticked]
      have covered := trailed.covered
      refine ⟨_, stepped, ?_⟩
      rw [SnakeRun.follow]
      split at outcome
      next moves =>
        obtain ⟨advances, score⟩ := outcome
        rw [if_pos moves]
        by_cases food : run.snake.ahead = run.snake.food
        · have grown := advances.eats food
          rw [if_pos food] at score
          exact {
            simple
            cells := by
              rw [grown.cells, grown.length, List.take_succ_cons, ← trailed.cells]
            covered := by
              rw [grown.length, List.length_cons]
              omega
            connected := trailed.connect
            length := by
              rw [grown.length, trailed.length, if_pos food, Nat.add_assoc]
            score := by
              rw [score, trailed.score, if_pos food, Nat.mul_add, BitVec.ofNat_add]
              rfl }
        · have moved := advances.moves food
          rw [if_neg food] at score
          exact {
            simple
            cells := by
              rw [moved.cells, moved.length, trailed.shortened]
            covered := by
              rw [moved.length, List.length_cons]
              omega
            connected := trailed.connect
            length := by
              rw [moved.length, trailed.length, if_neg food]
            score := by
              rw [score, trailed.score, if_neg food] }
      next rests =>
        obtain ⟨cells, length, score⟩ := outcome
        rw [if_neg rests]
        exact {
          simple
          cells := by rw [cells, length, trailed.cells]
          covered := by rw [length]; exact covered
          connected := trailed.connected
          length := by rw [length, trailed.length]
          score := by rw [score, trailed.score] }

theorem init_score {start : Snake} {seed now : BitVec 64} (init : snake.init seed now = some start) :
    start.score = 0 := by
  obtain ⟨xs, ys, run, _⟩ :=
    placeStart_some { snake with rngState := seed.setWidth 32, snakeLen := 3 }
  rw [Snake.init, run] at init
  obtain rfl := Option.some.inj init
  obtain ⟨rngState, placing⟩ := placeFood_eq { snake with
    rngState := seed.setWidth 32, snakeX := xs, snakeY := ys, snakeLen := 3, dir := .right
    score := 0, gameOver := false, tickInterval := 12, lastTick := now }
  exact congrArg Snake.score placing

theorem snakeInit_trailed (snake : Snake) (seed now : BitVec 64) :
    ∃ start, snake.init seed now = some start ∧ (SnakeRun.start start).Trailed := by
  obtain ⟨start, run, simple⟩ := init_simplePath snake seed now
  obtain ⟨ready, run', cells, length, _⟩ := init_places snake seed now
  obtain ⟨rngState, placing⟩ := placeFood_eq ready
  obtain rfl : start = ready.placeFood := Option.some.inj (run.symm.trans run')
  have sameLength : ready.placeFood.snakeLen = 3 := by rw [placing]; exact length
  have sameCells : ready.placeFood.cells = startCells := by rw [placing]; exact cells
  exact ⟨_, run, {
    simple
    cells := by
      change ready.placeFood.cells = startCells.take ready.placeFood.snakeLen
      rw [sameCells, sameLength]
      rfl
    covered := sameLength.le
    connected := startCells_isPath.adjacent
    length := sameLength
    score := init_score run }⟩

/-- In every run the snake lies on the last places of its head, it has three cells and one for
each piece of food, and each piece of food scores ten. -/
theorem snake_trails (snake : Snake) (seed now : BitVec 64) (calls : List SnakeCall) :
    ∃ start, snake.init seed now = some start ∧
      Transition.RunsThrough SnakeRun.step SnakeRun.Trailed (.start start) calls := by
  obtain ⟨start, run, trailed⟩ := snakeInit_trailed snake seed now
  exact ⟨start, run, Transition.runsThrough_of_invariant (fun _ trailed => trailed)
    (fun _ call trailed => snake_step_trailed trailed call) trailed calls⟩

end DragoonKernel
