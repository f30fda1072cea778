import DragoonKernel.SnakeCore
import DragoonKernel.Library.Transition
import Mathlib.Data.List.Chain
import Mathlib.Data.Int.Interval
import Mathlib.Data.Finset.Prod

/-!
The snake as a path: what keys and ticks make of its cells.
-/

namespace DragoonKernel

def Snake.cellAt (snake : Snake) (i : Nat) : Int × Int := (snake.snakeX i, snake.snakeY i)

/-- The cells from the head to the tail. -/
def Snake.cells (snake : Snake) : List (Int × Int) :=
  (List.range snake.snakeLen).map snake.cellAt

def InGrid (cell : Int × Int) : Prop :=
  (0 ≤ cell.1 ∧ cell.1 < gridW) ∧ 0 ≤ cell.2 ∧ cell.2 < gridH

/-- One step to a side or one step up or down. -/
def Adjacent (a b : Int × Int) : Prop :=
  (a.2 = b.2 ∧ (a.1 = b.1 + 1 ∨ b.1 = a.1 + 1)) ∨ (a.1 = b.1 ∧ (a.2 = b.2 + 1 ∨ b.2 = a.2 + 1))

structure IsPath (cells : List (Int × Int)) : Prop where
  inGrid : ∀ cell ∈ cells, InGrid cell
  distinct : cells.Nodup
  adjacent : cells.IsChain Adjacent

structure Snake.SimplePath (snake : Snake) : Prop where
  long : 3 ≤ snake.snakeLen
  short : snake.snakeLen ≤ maxSnake
  path : IsPath snake.cells

/-- Whether a tick at this time moves the snake or ends the game. -/
def Snake.Due (snake : Snake) (now : BitVec 64) : Prop :=
  snake.gameOver = false ∧ ((now - snake.lastTick).setWidth 32).slt snake.tickInterval = false

def Snake.food (snake : Snake) : Int × Int := (snake.foodX, snake.foodY)

/-- The cells that so many attempts of `place_food` draw. -/
def drawsFrom : Nat → BitVec 32 → List (Int × Int)
  | 0, _ => []
  | attempts + 1, rngState =>
      let (rngState, x) := rngNext rngState
      let (rngState, y) := rngNext rngState
      (((x % gridW : Nat) : Int), ((y % gridH : Nat) : Int)) :: drawsFrom attempts rngState

/-- The first cell drawn that is not on the snake, or else the food stays. -/
def Snake.foodFrom (snake : Snake) (attempts : Nat) : Int × Int :=
  ((drawsFrom attempts snake.rngState).find? (· ∉ snake.cells)).getD snake.food

def Snake.placedFood (snake : Snake) : Int × Int := snake.foodFrom 1000

/-- These are the cells and the food now, and the direction and the game are as before. -/
structure Snake.Becomes (snake next : Snake) (length : Nat) (food : Int × Int)
    (cells : List (Int × Int)) : Prop where
  length : next.snakeLen = length
  cells : next.cells = cells
  food : next.food = food
  dir : next.dir = snake.dir
  going : next.gameOver = snake.gameOver

/-- What `advance` makes of a snake whose head can go to this cell. -/
structure Snake.Advances (snake : Snake) (cell : Int × Int) (next : Snake) : Prop where
  simple : next.SimplePath
  eats : cell = snake.food →
    snake.Becomes next (snake.snakeLen + 1) snake.placedFood (cell :: snake.cells)
  moves : cell ≠ snake.food →
    snake.Becomes next snake.snakeLen snake.food (cell :: snake.cells.dropLast)

/-- A tick that does not end the game moves the snake by one cell. It grows if it finds food
there, and else the tail goes. -/
structure Snake.TickMoves (snake : Snake) (now : BitVec 64) (next : Snake) : Prop where
  eats : snake.Due now → next.gameOver = false → snake.ahead = (snake.foodX, snake.foodY) →
    next.cells = snake.ahead :: snake.cells
  moves : snake.Due now → next.gameOver = false → snake.ahead ≠ (snake.foodX, snake.foodY) →
    next.cells = snake.ahead :: snake.cells.dropLast
  waits : ¬snake.Due now → next = snake
  ends : next.gameOver = true → next.cells = snake.cells

/-! ### Paths -/

theorem IsPath.cons {cells : List (Int × Int)} {head neck : Int × Int} (path : IsPath cells)
    (starts : cells.head? = some neck) (near : Adjacent head neck) (inGrid : InGrid head)
    (free : head ∉ cells) : IsPath (head :: cells) where
  inGrid := List.forall_mem_cons.mpr ⟨inGrid, path.inGrid⟩
  distinct := path.distinct.cons free
  adjacent := path.adjacent.cons fun cell first => by
    rw [starts] at first
    exact Option.some.inj first ▸ near

theorem IsPath.dropLast {cells : List (Int × Int)} (path : IsPath cells) :
    IsPath cells.dropLast where
  inGrid cell listed := path.inGrid cell (List.mem_of_mem_dropLast listed)
  distinct := path.distinct.sublist (List.dropLast_sublist cells)
  adjacent := path.adjacent.dropLast

theorem IsPath.length_le {cells : List (Int × Int)} (path : IsPath cells) :
    cells.length ≤ maxSnake := by
  have within : cells.toFinset ⊆ Finset.Ico 0 (gridW : Int) ×ˢ Finset.Ico 0 (gridH : Int) := by
    intro cell listed
    have inGrid := path.inGrid cell (List.mem_toFinset.mp listed)
    rw [Finset.mem_product, Finset.mem_Ico, Finset.mem_Ico]
    exact inGrid
  calc cells.length
      = cells.toFinset.card := (List.toFinset_card_of_nodup path.distinct).symm
    _ ≤ (Finset.Ico 0 (gridW : Int) ×ˢ Finset.Ico 0 (gridH : Int)).card :=
        Finset.card_le_card within
    _ = maxSnake := by
        rw [Finset.card_product, Int.card_Ico, Int.card_Ico]
        rfl

theorem ahead_adjacent (snake : Snake) : Adjacent snake.ahead (snake.cellAt 0) := by
  cases direction : snake.dir <;> simp [Snake.ahead, Snake.cellAt, direction, Adjacent]

/-! ### The arrays -/

variable {snake next : Snake}

theorem occupies_iff {x y : Int} : snake.occupies x y = true ↔ (x, y) ∈ snake.cells := by
  simp only [Snake.occupies, Snake.cells, Snake.cellAt, List.any_eq_true, List.mem_map,
    List.mem_range, Bool.and_eq_true, beq_iff_eq, Prod.mk.injEq]

theorem cells_eq_cons {n : Nat} {head : Int × Int} (length : next.snakeLen = n + 1)
    (first : next.cellAt 0 = head) (rest : ∀ i < n, next.cellAt (i + 1) = snake.cellAt i) :
    next.cells = head :: (List.range n).map snake.cellAt := by
  rw [Snake.cells, length, List.range_succ_eq_map, List.map_cons, first, List.map_map]
  congr 1
  exact List.map_congr_left fun i listed => rest i (List.mem_range.mp listed)

theorem cells_dropLast (snake : Snake) :
    snake.cells.dropLast = (List.range (snake.snakeLen - 1)).map snake.cellAt := by
  rw [Snake.cells]
  cases snake.snakeLen with
  | zero => rfl
  | succ n =>
      rw [List.range_succ, List.map_append, List.map_singleton, List.dropLast_concat,
        Nat.add_sub_cancel]

theorem put_some {i : Nat} (inside : i < maxSnake) (x y : Int) (snake : Snake) :
    ∃ xs ys, snake.put i x y = some { snake with snakeX := xs, snakeY := ys } ∧
      ∀ j, (xs j, ys j) = if j = i then (x, y) else snake.cellAt j := by
  refine ⟨_, _, if_pos inside, fun j => ?_⟩
  rw [Function.update_apply, Function.update_apply]
  split <;> rfl

theorem shift_some {count : Nat} (inside : count < maxSnake) (snake : Snake) :
    ∃ xs ys, snake.shift count = some { snake with snakeX := xs, snakeY := ys } ∧
      ∀ j, (xs j, ys j) = if 0 < j ∧ j ≤ count then snake.cellAt (j - 1) else snake.cellAt j := by
  -- the cells above `i` have moved
  let holds (i : Nat) (state : Snake) : Prop :=
    ∃ xs ys, state = { snake with snakeX := xs, snakeY := ys } ∧
      ∀ j, (xs j, ys j) = if i < j ∧ j ≤ count then snake.cellAt (j - 1) else snake.cellAt j
  have start : holds count snake :=
    ⟨snake.snakeX, snake.snakeY, rfl, fun j => (if_neg (by omega)).symm⟩
  have turn : ∀ i < count, ∀ state, holds (i + 1) state →
      ∃ next, state.put (i + 1) (state.snakeX i) (state.snakeY i) = some next ∧ holds i next := by
    rintro i below _ ⟨xs, ys, rfl, moved⟩
    obtain ⟨xs', ys', run, cells⟩ := put_some (show i + 1 < maxSnake by omega) (xs i) (ys i)
      { snake with snakeX := xs, snakeY := ys }
    refine ⟨_, run, xs', ys', rfl, fun j => ?_⟩
    rw [cells]
    by_cases here : j = i + 1
    · rw [if_pos here, moved, if_neg (by omega), if_pos (by omega), here, Nat.add_sub_cancel]
    · rw [if_neg here, Snake.cellAt, moved]
      exact if_congr (by omega) rfl rfl
  have loop : ∃ final, snake.shift count = some final ∧ holds 0 final := loopDown_holds start turn
  obtain ⟨_, run, xs, ys, rfl, moved⟩ := loop
  exact ⟨xs, ys, run, moved⟩

theorem occupies_eq (snake : Snake) (x y : Int) :
    snake.occupies x y = decide ((x, y) ∈ snake.cells) :=
  Bool.eq_iff_iff.mpr (occupies_iff.trans decide_eq_true_iff.symm)

theorem placeFoodFrom_eq (attempts : Nat) (snake : Snake) :
    ∃ rngState, placeFoodFrom attempts snake = { snake with
      rngState
      foodX := (snake.foodFrom attempts).1
      foodY := (snake.foodFrom attempts).2 } := by
  induction attempts generalizing snake with
  | zero => exact ⟨snake.rngState, rfl⟩
  | succ attempts ih =>
      rw [placeFoodFrom, Snake.foodFrom, drawsFrom]
      rcases rngNext snake.rngState with ⟨first, x⟩
      dsimp only
      rcases rngNext first with ⟨second, y⟩
      dsimp only
      rw [occupies_eq, List.find?_cons]
      by_cases taken : (((x % gridW : Nat) : Int), ((y % gridH : Nat) : Int)) ∈ snake.cells
      · obtain ⟨rngState, rest⟩ := ih { snake with rngState := second }
        refine ⟨rngState, ?_⟩
        simp only [taken, decide_true, decide_false, not_true_eq_false, Bool.not_true,
          Bool.false_eq_true, if_false]
        exact rest
      · refine ⟨second, ?_⟩
        simp only [taken, decide_true, decide_false, not_false_eq_true, Bool.not_false,
          if_true]
        rfl

theorem placeFood_eq (snake : Snake) :
    ∃ rngState, snake.placeFood =
      { snake with rngState, foodX := snake.placedFood.1, foodY := snake.placedFood.2 } :=
  placeFoodFrom_eq 1000 snake

/-! ### The calls -/

theorem forall_tick_iff {now : BitVec 64} {law : BitVec 64 → Prop} :
    (∀ now', SnakeCall.tick now = .tick now' → law now') ↔ law now := by
  constructor
  · exact fun all => all now rfl
  · intro holds now' same
    exact SnakeCall.tick.inj same ▸ holds

theorem forall_tick_of_key (key : Int) (law : BitVec 64 → Prop) :
    ∀ now, SnakeCall.key key = .tick now → law now := by
  intro now same
  cases same

/-- The head of a snake that has cells, and what is left of it without the tail. -/
theorem head_cells (long : 3 ≤ snake.snakeLen) :
    snake.cells.head? = some (snake.cellAt 0) ∧
      snake.cells.dropLast.head? = some (snake.cellAt 0) := by
  obtain ⟨n, length⟩ : ∃ n, snake.snakeLen = n + 1 + 1 := ⟨snake.snakeLen - 2, by omega⟩
  rw [cells_dropLast, Snake.cells, length, Nat.add_sub_cancel, List.range_succ_eq_map,
    List.range_succ_eq_map]
  exact ⟨rfl, rfl⟩

/-- The head is written before cells that have made room for it. -/
theorem put_head {n : Nat} (base : Snake) (length : base.snakeLen = n + 1)
    (moved : ∀ i < n, base.cellAt (i + 1) = snake.cellAt i) (nx ny : Int) :
    ∃ next, base.put 0 nx ny = some next ∧
      base.Becomes next base.snakeLen base.food ((nx, ny) :: (List.range n).map snake.cellAt) := by
  obtain ⟨xs, ys, run, cells⟩ := put_some (show 0 < maxSnake by decide) nx ny base
  refine ⟨_, run, rfl, cells_eq_cons length ((cells 0).trans (if_pos rfl)) ?_, rfl, rfl, rfl⟩
  intro i below
  exact (cells (i + 1)).trans ((if_neg (Nat.succ_ne_zero i)).trans (moved i below))

theorem advance_moves (positive : 0 < snake.snakeLen) (short : snake.snakeLen ≤ maxSnake)
    {nx ny : Int} (hungry : (nx, ny) ≠ snake.food) :
    ∃ next, snake.advance nx ny = some next ∧
      snake.Becomes next snake.snakeLen snake.food ((nx, ny) :: snake.cells.dropLast) := by
  have notAte : ¬(nx = snake.foodX ∧ ny = snake.foodY) := fun ate => hungry (Prod.ext ate.1 ate.2)
  have length : snake.snakeLen = snake.snakeLen - 1 + 1 := (Nat.sub_add_cancel positive).symm
  obtain ⟨xs, ys, run, moved⟩ := shift_some (show snake.snakeLen - 1 < maxSnake by omega) snake
  have shifted : ∀ i < snake.snakeLen - 1, (xs (i + 1), ys (i + 1)) = snake.cellAt i := by
    intro i below
    rw [moved, if_pos (by omega), Nat.add_sub_cancel]
  obtain ⟨next, put, length, cells, food, dir, going⟩ :=
    put_head { snake with snakeX := xs, snakeY := ys } length shifted nx ny
  rw [Snake.advance, if_pos notAte, run, cells_dropLast]
  exact ⟨next, put, length, cells, food, dir, going⟩

/-- The food is placed while the first two cells are both at the old head. -/
theorem advance_eats (positive : 0 < snake.snakeLen) (short : snake.snakeLen < maxSnake)
    {nx ny : Int} (eats : (nx, ny) = snake.food) :
    ∃ next, snake.advance nx ny = some next ∧
      snake.Becomes next (snake.snakeLen + 1) snake.placedFood ((nx, ny) :: snake.cells) := by
  have ate : nx = snake.foodX ∧ ny = snake.foodY := Prod.mk.inj eats
  obtain ⟨xs, ys, run, moved⟩ := shift_some short snake
  have shifted : ∀ i < snake.snakeLen, (xs (i + 1), ys (i + 1)) = snake.cellAt i := by
    intro i below
    rw [moved, if_pos (by omega), Nat.add_sub_cancel]
  let grown : Snake := { snake with
    snakeX := xs, snakeY := ys, snakeLen := snake.snakeLen + 1, score := snake.score + 10 }
  have same : ∀ cell, cell ∈ grown.cells ↔ cell ∈ snake.cells := by
    have first : (xs 0, ys 0) = snake.cellAt 0 := (moved 0).trans (if_neg (by omega))
    have cells : grown.cells = snake.cellAt 0 :: snake.cells := cells_eq_cons rfl first shifted
    have head : snake.cellAt 0 ∈ snake.cells := List.mem_map_of_mem (List.mem_range.mpr positive)
    intro cell
    rw [cells, List.mem_cons, or_iff_right_of_imp (fun here => here ▸ head)]
  have placed : grown.placedFood = snake.placedFood := by
    simp only [Snake.placedFood, Snake.foodFrom, same]
    rfl
  obtain ⟨rngState, placing⟩ := placeFood_eq grown
  rw [placed] at placing
  obtain ⟨next, put, length, cells, food, dir, going⟩ :=
    put_head { grown with
      rngState, foodX := snake.placedFood.1, foodY := snake.placedFood.2 } rfl shifted nx ny
  rw [Snake.advance, if_neg (not_not.mpr ate), if_pos short, run]
  refine ⟨next, ?_, length, cells, food, dir, going⟩
  rw [← put, ← placing]
  rfl

def startCells : List (Int × Int) := [(19, 14), (18, 14), (17, 14)]

theorem startCells_isPath : IsPath startCells where
  inGrid := by simp [startCells, InGrid, gridW, gridH]
  distinct := by decide
  adjacent := by simp [startCells, Adjacent]

theorem placeStart_some (snake : Snake) :
    ∃ xs ys, loopUp (fun i => Snake.put i (gridW / 2 - i) (gridH / 2)) 3 snake =
        some { snake with snakeX := xs, snakeY := ys } ∧
      ∀ j < 3, (xs j, ys j) = ((19 : Int) - j, 14) := by
  let holds (i : Nat) (state : Snake) : Prop :=
    ∃ xs ys, state = { snake with snakeX := xs, snakeY := ys } ∧
      ∀ j < i, (xs j, ys j) = ((19 : Int) - j, 14)
  have start : holds 0 snake :=
    ⟨snake.snakeX, snake.snakeY, rfl, fun j below => absurd below (Nat.not_lt_zero j)⟩
  have turn : ∀ i < 3, ∀ state, holds i state →
      ∃ next, state.put i (gridW / 2 - i) (gridH / 2) = some next ∧ holds (i + 1) next := by
    rintro i below _ ⟨xs, ys, rfl, placed⟩
    obtain ⟨xs', ys', run, cells⟩ := put_some (show i < maxSnake from below.trans (by decide))
      ((gridW : Int) / 2 - i) ((gridH : Int) / 2) { snake with snakeX := xs, snakeY := ys }
    refine ⟨_, run, xs', ys', rfl, fun j earlier => ?_⟩
    rw [cells]
    split
    next here => rw [here]; rfl
    next before => exact placed j (by omega)
  have loop : ∃ final, loopUp (fun i => Snake.put i (gridW / 2 - i) (gridH / 2)) 3 snake =
      some final ∧ holds 3 final := loopUp_holds start turn
  obtain ⟨_, run, xs, ys, rfl, placed⟩ := loop
  exact ⟨xs, ys, run, placed⟩

/-- `snake_init` places the first food on a board with the three cells it starts from. -/
theorem init_places (snake : Snake) (seed now : BitVec 64) :
    ∃ ready : Snake, snake.init seed now = some ready.placeFood ∧
      ready.cells = startCells ∧ ready.snakeLen = 3 ∧ ready.rngState = seed.setWidth 32 ∧
        ready.dir = .right ∧ ready.gameOver = false := by
  let seeded : Snake := { snake with rngState := seed.setWidth 32, snakeLen := 3 }
  obtain ⟨xs, ys, run, placed⟩ := placeStart_some seeded
  let ready : Snake := { seeded with
    snakeX := xs, snakeY := ys, dir := .right, score := 0, gameOver := false, tickInterval := 12
    lastTick := now }
  have cells : ready.cells = startCells := by
    have three : ready.cells = [(xs 0, ys 0), (xs 1, ys 1), (xs 2, ys 2)] := rfl
    rw [three, placed 0 (by decide), placed 1 (by decide), placed 2 (by decide)]
    rfl
  refine ⟨ready, ?_, cells, rfl, rfl, rfl, rfl⟩
  rw [Snake.init, run]
  rfl

theorem init_simplePath (snake : Snake) (seed now : BitVec 64) :
    ∃ start, snake.init seed now = some start ∧ start.SimplePath := by
  obtain ⟨ready, run, cells, length, _⟩ := init_places snake seed now
  obtain ⟨rngState, placing⟩ := placeFood_eq ready
  refine ⟨ready.placeFood, run, ?_⟩
  rw [placing]
  exact ⟨length.ge, length.trans_le (by decide), cells.symm ▸ startCells_isPath⟩

theorem key_eq (snake : Snake) (key : Int) : ∃ dir, snake.key key = { snake with dir } := by
  rw [Snake.key]
  split
  · exact ⟨_, rfl⟩
  · exact ⟨snake.dir, rfl⟩

theorem key_simplePath (simple : snake.SimplePath) (key : Int) : (snake.key key).SimplePath := by
  obtain ⟨dir, pressed⟩ := key_eq snake key
  rw [pressed]
  exact ⟨simple.long, simple.short, simple.path⟩

theorem tickMoves_of_idle {now : BitVec 64} (idle : ¬snake.Due now) :
    snake.TickMoves now snake where
  eats due := absurd due idle
  moves due := absurd due idle
  waits _ := rfl
  ends _ := rfl

theorem tickMoves_of_lost {now : BitVec 64} (due : snake.Due now) (lost : next.gameOver = true)
    (same : next.cells = snake.cells) : snake.TickMoves now next where
  eats _ going := absurd (going.symm.trans lost) Bool.false_ne_true
  moves _ going := absurd (going.symm.trans lost) Bool.false_ne_true
  waits idle := absurd due idle
  ends _ := same

/-- A free cell of the grid next to the head can become the head. -/
theorem advance_simplePath (simple : snake.SimplePath) {nx ny : Int}
    (inGrid : InGrid (nx, ny)) (near : Adjacent (nx, ny) (snake.cellAt 0))
    (free : (nx, ny) ∉ snake.cells) :
    ∃ next, snake.advance nx ny = some next ∧ snake.Advances (nx, ny) next := by
  obtain ⟨long, short, path⟩ := simple
  have positive : 0 < snake.snakeLen := Nat.zero_lt_of_lt long
  obtain ⟨head, shorterHead⟩ := head_cells long
  have grown : IsPath ((nx, ny) :: snake.cells) := path.cons head near inGrid free
  by_cases food : (nx, ny) = snake.food
  · -- a path in the grid has no room for more than `maxSnake` cells
    have room : snake.snakeLen < maxSnake := by
      have bound := grown.length_le
      rw [List.length_cons, Snake.cells, List.length_map, List.length_range] at bound
      exact bound
    obtain ⟨next, run, becomes⟩ := advance_eats positive room food
    refine ⟨next, run, ⟨?_, ?_, ?_⟩, fun _ => becomes, fun hungry => absurd food hungry⟩
    · rw [becomes.length]
      omega
    · rw [becomes.length]
      exact room
    · rw [becomes.cells]
      exact grown
  · obtain ⟨next, run, becomes⟩ := advance_moves positive short food
    refine ⟨next, run, ⟨?_, ?_, ?_⟩, fun ate => absurd ate food, fun _ => becomes⟩
    · rw [becomes.length]
      exact long
    · rw [becomes.length]
      exact short
    · rw [becomes.cells]
      exact path.dropLast.cons shorterHead near inGrid fun listed =>
        free (List.mem_of_mem_dropLast listed)

/-- A tick comes too early, ends the game or moves the snake to the cell ahead. -/
theorem tick_cases (snake : Snake) (now : BitVec 64) :
    (¬snake.Due now ∧ snake.tick now = some (snake, 0)) ∨
      (snake.Due now ∧ (¬InGrid snake.ahead ∨ snake.ahead ∈ snake.cells) ∧
        snake.tick now = some ({ snake with lastTick := now, gameOver := true }, 1)) ∨
      (snake.Due now ∧ InGrid snake.ahead ∧ snake.ahead ∉ snake.cells ∧
        snake.tick now = (Snake.advance { snake with lastTick := now }
          snake.ahead.1 snake.ahead.2).map (·, 1)) := by
  rw [Snake.tick]
  split
  next lost => exact .inl ⟨fun due => Bool.false_ne_true (due.1.symm.trans lost), rfl⟩
  split
  next early => exact .inl ⟨fun due => Bool.false_ne_true (due.2.symm.trans early), rfl⟩
  next running late =>
    have due : snake.Due now :=
      ⟨Bool.eq_false_of_not_eq_true running, Bool.eq_false_of_not_eq_true late⟩
    have ahead : Snake.ahead { snake with lastTick := now } = snake.ahead := rfl
    refine .inr ?_
    dsimp only
    rw [ahead]
    rcases snake.ahead with ⟨nx, ny⟩
    dsimp only
    split
    next outside =>
      refine .inl ⟨due, .inl fun inGrid => ?_, rfl⟩
      obtain ⟨⟨_, _⟩, _, _⟩ := inGrid
      dsimp only at *
      omega
    split
    next bitten => exact .inl ⟨due, .inr (occupies_iff.mp bitten), rfl⟩
    next inside free =>
      refine .inr ⟨due, ⟨by dsimp only; omega, by dsimp only; omega⟩,
        fun listed => free (occupies_iff.mpr listed), ?_⟩
      cases Snake.advance { snake with lastTick := now } nx ny with
      | none => rfl
      | some next => rfl

/-- What a tick makes of a simple path. -/
theorem tick_advances (simple : snake.SimplePath) (now : BitVec 64) :
    ∃ next changed, snake.tick now = some (next, changed) ∧
      ((¬snake.Due now ∧ next = snake) ∨
        (snake.Due now ∧ (¬InGrid snake.ahead ∨ snake.ahead ∈ snake.cells) ∧
          next = { snake with lastTick := now, gameOver := true }) ∨
        (snake.Due now ∧ InGrid snake.ahead ∧ snake.ahead ∉ snake.cells ∧
          snake.Advances snake.ahead next)) := by
  rcases tick_cases snake now with ⟨idle, run⟩ | ⟨due, blocked, run⟩ | ⟨due, inGrid, free, run⟩
  · exact ⟨snake, 0, run, .inl ⟨idle, rfl⟩⟩
  · exact ⟨_, 1, run, .inr (.inl ⟨due, blocked, rfl⟩)⟩
  · have timed : Snake.SimplePath { snake with lastTick := now } :=
      ⟨simple.long, simple.short, simple.path⟩
    have near : Adjacent snake.ahead (snake.cellAt 0) := ahead_adjacent snake
    revert run inGrid free near
    rcases snake.ahead with ⟨nx, ny⟩
    intro inGrid free run near
    obtain ⟨next, advanced, path, eats, moves⟩ := advance_simplePath timed inGrid near free
    refine ⟨next, 1, by rw [run, advanced]; rfl, .inr (.inr ⟨due, inGrid, free, path, ?_, ?_⟩)⟩
    · intro food
      obtain ⟨length, cells, food, dir, going⟩ := eats food
      exact ⟨length, cells, food, dir, going⟩
    · intro hungry
      obtain ⟨length, cells, food, dir, going⟩ := moves hungry
      exact ⟨length, cells, food, dir, going⟩

theorem Snake.Advances.going {cell : Int × Int} (advances : snake.Advances cell next) :
    next.gameOver = snake.gameOver := by
  by_cases food : cell = snake.food
  · exact (advances.eats food).going
  · exact (advances.moves food).going

theorem Snake.Advances.dir {cell : Int × Int} (advances : snake.Advances cell next) :
    next.dir = snake.dir := by
  by_cases food : cell = snake.food
  · exact (advances.eats food).dir
  · exact (advances.moves food).dir

theorem tick_simplePath (simple : snake.SimplePath) (now : BitVec 64) :
    ∃ next changed, snake.tick now = some (next, changed) ∧ next.SimplePath ∧
      snake.TickMoves now next := by
  obtain ⟨next, changed, run, outcome⟩ := tick_advances simple now
  refine ⟨next, changed, run, ?_⟩
  rcases outcome with ⟨idle, rfl⟩ | ⟨due, _, rfl⟩ | ⟨due, _, _, advances⟩
  · exact ⟨simple, tickMoves_of_idle idle⟩
  · exact ⟨⟨simple.long, simple.short, simple.path⟩, tickMoves_of_lost due rfl rfl⟩
  · refine ⟨advances.simple, ?_⟩
    have still : next.gameOver = false := advances.going.trans due.1
    exact {
      eats := fun _ _ ate => (advances.eats ate).cells
      moves := fun _ _ hungry => (advances.moves hungry).cells
      waits := fun idle => absurd due idle
      ends := fun ended => absurd (still.symm.trans ended) Bool.false_ne_true }

/-- From `snake_init` on no call fails, whatever the seed, the keys and the time, the snake is a
simple path after each, and each tick moves it by one cell, leaves it or ends the game. -/
theorem snake_simplePath (snake : Snake) (seed now : BitVec 64) (calls : List SnakeCall) :
    ∃ start, snake.init seed now = some start ∧
      Transition.RunsThrough Snake.step Snake.SimplePath start calls ∧
        Transition.EveryStep Snake.step
          (fun before call after => ∀ now, call = .tick now → before.TickMoves now after)
          start calls := by
  obtain ⟨start, run, simple⟩ := init_simplePath snake seed now
  refine ⟨start, run, Transition.runsThrough_of_invariant (fun _ simple => simple) ?_ simple calls,
    Transition.everyStep_of_invariant ?_ simple calls⟩
  · intro snake call simple
    cases call with
    | key key => exact ⟨_, rfl, key_simplePath simple key⟩
    | tick now =>
        obtain ⟨next, changed, run, after, _⟩ := tick_simplePath simple now
        exact ⟨next, by rw [Snake.step, run]; rfl, after⟩
  · intro snake call next simple stepped
    cases call with
    | key key =>
        obtain rfl := Option.some.inj stepped
        exact ⟨key_simplePath simple key, forall_tick_of_key key _⟩
    | tick now =>
        obtain ⟨next', changed, run, after, law⟩ := tick_simplePath simple now
        rw [Snake.step, run] at stepped
        obtain rfl := Option.some.inj stepped
        exact ⟨after, forall_tick_iff.mpr law⟩

end DragoonKernel
