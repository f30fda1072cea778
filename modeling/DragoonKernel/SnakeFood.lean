import DragoonKernel.SnakePath

/-!
Where `place_food` puts the food. It is called before the head is written, so that the cells
it avoids are those of the snake before the tick.
-/

namespace DragoonKernel

/-- Some attempt of `place_food` draws a cell that is none of these. -/
def FindsFood (rngState : BitVec 32) (cells : List (Int × Int)) : Prop :=
  ∃ cell ∈ drawsFrom 1000 rngState, cell ∉ cells

/-- A free cell is drawn before the cell of the food is drawn again. -/
def Snake.DrawsAnother (snake : Snake) : Prop :=
  ∃ earlier cell later, drawsFrom 1000 snake.rngState = earlier ++ cell :: later ∧
    cell ∉ snake.cells ∧ snake.food ∉ earlier ++ [cell]

/-- The tick moves the head to the food. -/
structure Snake.Eats (snake : Snake) (now : BitVec 64) : Prop where
  due : snake.Due now
  inGrid : InGrid snake.ahead
  free : snake.ahead ∉ snake.cells
  food : snake.ahead = snake.food

def FindsFoodStep (before : Snake) (call : SnakeCall) (_ : Snake) : Prop :=
  ∀ now, call = .tick now → before.Eats now → FindsFood before.rngState before.cells

def DrawsAnotherStep (before : Snake) (call : SnakeCall) (_ : Snake) : Prop :=
  ∀ now, call = .tick now → before.Eats now → before.DrawsAnother

def FoodClearStep (_ : Snake) (call : SnakeCall) (after : Snake) : Prop :=
  ∀ now, call = .tick now → after.gameOver = false → after.food ∉ after.cells

structure Snake.FoodFree (snake : Snake) : Prop where
  simple : snake.SimplePath
  clear : snake.food ∉ snake.cells

variable {snake next : Snake}

theorem find?_ne_some_iff {α : Type} {free : α → Bool} {draws : List α} {taken : α}
    (found : ∃ draw ∈ draws, free draw = true) (untaken : free taken = true) :
    draws.find? free ≠ some taken ↔
      ∃ earlier draw later, draws = earlier ++ draw :: later ∧ free draw = true ∧
        taken ∉ earlier ++ [draw] := by
  constructor
  · intro other
    obtain ⟨draw, first⟩ := Option.isSome_iff_exists.mp (List.find?_isSome.mpr found)
    obtain ⟨freeDraw, earlier, later, split, skipped⟩ := List.find?_eq_some_iff_append.mp first
    refine ⟨earlier, draw, later, split, freeDraw, fun listed => ?_⟩
    rcases List.mem_append.mp listed with before | last
    · exact absurd untaken (by simpa using skipped taken before)
    · exact other (List.mem_singleton.mp last ▸ first)
  · rintro ⟨earlier, draw, later, rfl, freeDraw, missing⟩ first
    have drawn : ((earlier ++ [draw]).find? free).isSome = true :=
      List.find?_isSome.mpr ⟨draw, List.mem_append_right _ List.mem_cons_self, freeDraw⟩
    rw [List.append_cons, List.find?_append, Option.or_of_isSome drawn] at first
    exact missing (List.mem_of_find?_eq_some first)

theorem FindsFood.find? {rngState : BitVec 32} {cells : List (Int × Int)}
    (finds : FindsFood rngState cells) :
    ∃ cell, (drawsFrom 1000 rngState).find? (· ∉ cells) = some cell ∧ cell ∉ cells := by
  obtain ⟨cell, drawn, free⟩ := finds
  have drawable : ((drawsFrom 1000 rngState).find? (· ∉ cells)).isSome = true :=
    List.find?_isSome.mpr ⟨cell, drawn, decide_eq_true free⟩
  obtain ⟨first, found⟩ := Option.isSome_iff_exists.mp drawable
  have chosen := List.find?_some found
  exact ⟨first, found, of_decide_eq_true chosen⟩

theorem placedFood_free (finds : FindsFood snake.rngState snake.cells) :
    snake.placedFood ∉ snake.cells := by
  obtain ⟨cell, found, free⟩ := finds.find?
  rw [Snake.placedFood, Snake.foodFrom, found]
  exact free

theorem placedFood_ne_food_iff (finds : FindsFood snake.rngState snake.cells)
    (clear : snake.food ∉ snake.cells) : snake.placedFood ≠ snake.food ↔ snake.DrawsAnother := by
  have elsewhere : snake.placedFood ≠ snake.food ↔
      (drawsFrom 1000 snake.rngState).find? (· ∉ snake.cells) ≠ some snake.food := by
    obtain ⟨cell, found, _⟩ := finds.find?
    rw [Snake.placedFood, Snake.foodFrom, found, Option.getD_some, ne_eq, ne_eq,
      Option.some.injEq]
  have drawn : ∃ cell ∈ drawsFrom 1000 snake.rngState, decide (cell ∉ snake.cells) = true := by
    obtain ⟨cell, listed, free⟩ := finds
    exact ⟨cell, listed, decide_eq_true free⟩
  rw [elsewhere, find?_ne_some_iff drawn (decide_eq_true clear)]
  simp only [decide_eq_true_eq]
  rfl

/-! ### Ticks -/

theorem key_foodFree (free : snake.FoodFree) (key : Int) : (snake.key key).FoodFree := by
  have simple := key_simplePath free.simple key
  obtain ⟨dir, pressed⟩ := key_eq snake key
  rw [pressed] at simple ⊢
  exact ⟨simple, free.clear⟩

/-- The food is clear of the new head exactly when it is not put back to where it was. -/
theorem advances_clear_iff (free : snake.FoodFree)
    (advances : snake.Advances snake.ahead next)
    (finds : snake.ahead = snake.food → FindsFood snake.rngState snake.cells) :
    next.food ∉ next.cells ↔ (snake.ahead = snake.food → snake.DrawsAnother) := by
  by_cases eats : snake.ahead = snake.food
  · obtain ⟨_, cells, food, _, _⟩ := advances.eats eats
    have missed : snake.placedFood ∉ snake.cells := placedFood_free (finds eats)
    have elsewhere := placedFood_ne_food_iff (finds eats) free.clear
    rw [cells, food, List.mem_cons, or_iff_left missed, forall_prop_of_true eats, eats]
    exact elsewhere
  · obtain ⟨_, cells, food, _, _⟩ := advances.moves eats
    rw [cells, food, List.mem_cons, not_or]
    exact iff_of_true
      ⟨Ne.symm eats, fun listed => free.clear (List.mem_of_mem_dropLast listed)⟩
      fun ate => absurd ate eats

/-- One step of the run, whatever the call. -/
theorem step_foodClear {call : SnakeCall} (free : snake.FoodFree)
    (stepped : snake.step call = some next) (finds : FindsFoodStep snake call next) :
    (FoodClearStep snake call next ↔ DrawsAnotherStep snake call next) ∧
      (DrawsAnotherStep snake call next → next.FoodFree) := by
  cases call with
  | key key =>
      obtain rfl := Option.some.inj stepped
      exact ⟨iff_of_true (forall_tick_of_key key _) (forall_tick_of_key key _),
        fun _ => key_foodFree free key⟩
  | tick now =>
      obtain ⟨after, changed, run, outcome⟩ := tick_advances free.simple now
      rw [Snake.step, run] at stepped
      obtain rfl := Option.some.inj stepped
      rw [FoodClearStep, DrawsAnotherStep, forall_tick_iff, forall_tick_iff]
      rw [FindsFoodStep, forall_tick_iff] at finds
      rcases outcome with ⟨idle, rfl⟩ | ⟨due, blocked, rfl⟩ | ⟨due, inGrid, unbitten, advances⟩
      · exact ⟨iff_of_true (fun _ => free.clear) fun eats => absurd eats.due idle, fun _ => free⟩
      · have misses : ¬snake.Eats now := fun eats =>
          blocked.elim (fun outside => outside eats.inGrid) fun bitten => eats.free bitten
        refine ⟨iff_of_true (fun going => absurd going.symm Bool.false_ne_true)
          fun eats => absurd eats misses, fun _ => ⟨?_, free.clear⟩⟩
        exact ⟨free.simple.long, free.simple.short, free.simple.path⟩
      · have eats_iff : snake.Eats now ↔ snake.ahead = snake.food :=
          ⟨fun eats => eats.food, fun food => ⟨due, inGrid, unbitten, food⟩⟩
        rw [eats_iff] at finds ⊢
        have clear := advances_clear_iff free advances finds
        have going : after.gameOver = false := advances.going.trans due.1
        rw [forall_prop_of_true going]
        exact ⟨clear, fun another => ⟨advances.simple, clear.mpr another⟩⟩

theorem init_foodFree {start : Snake} {seed now : BitVec 64}
    (finds : FindsFood (seed.setWidth 32) startCells) (run : snake.init seed now = some start) :
    start.FoodFree := by
  obtain ⟨ready, placed, cells, length, rngState, _⟩ := init_places snake seed now
  obtain ⟨start', run', simple⟩ := init_simplePath snake seed now
  obtain rfl := Option.some.inj (run'.symm.trans run)
  obtain rfl := Option.some.inj (placed.symm.trans run)
  refine ⟨simple, ?_⟩
  have missed : ready.placedFood ∉ ready.cells := placedFood_free (rngState ▸ cells ▸ finds)
  obtain ⟨_, placing⟩ := placeFood_eq ready
  rw [placing]
  exact missed

/-- When `place_food` finds a cell each time, the food is clear of the snake after each tick
exactly when a free cell is drawn before the eaten one at each tick that eats. -/
theorem snake_food_clear_iff (snake start : Snake) (seed now : BitVec 64) (calls : List SnakeCall)
    (init : snake.init seed now = some start)
    (first : FindsFood (seed.setWidth 32) startCells)
    (places : Transition.EveryStep Snake.step FindsFoodStep start calls) :
    Transition.EveryStep Snake.step FoodClearStep start calls ↔
      Transition.EveryStep Snake.step DrawsAnotherStep start calls := by
  refine Transition.everyStep_iff_of_promise ?_ (init_foodFree first init) places
  exact fun before call after free stepped finds => step_foodClear free stepped finds

/-- The food starts in front of the head, and the draw that replaces it is the same cell. -/
theorem start_eaten : (Snake.cleared.init 5045681 5045681).map
    (fun start => (start.rngState, start.cells)) = some (4027489815, startCells) := by
  decide +kernel

theorem after_eaten : ((Snake.cleared.init 5045681 5045681).bind (·.step (.tick 5045693))).map
    (fun after => (after.gameOver, after.food, after.cells)) =
      some (false, (20, 14), (20, 14) :: startCells) := by
  decide +kernel

theorem eaten_finds {rngState : BitVec 32} (drawn : (20, 14) ∈ drawsFrom 1000 rngState) :
    FindsFood rngState startCells := ⟨(20, 14), drawn, by decide⟩

/-- The start of that run, and that its one tick finds a cell for the food. -/
theorem eaten_places : ∃ start, Snake.cleared.init 5045681 5045681 = some start ∧
    FindsFood (BitVec.setWidth 32 (5045681 : BitVec 64)) startCells ∧
      Transition.EveryStep Snake.step FindsFoodStep start [.tick 5045693] := by
  obtain ⟨start, init, fields⟩ := Option.map_eq_some_iff.mp start_eaten
  obtain ⟨rngState, cells⟩ := Prod.mk.inj fields
  refine ⟨start, init, eaten_finds (by decide +kernel), fun _ _ => ⟨fun _ _ _ => ?_, trivial⟩⟩
  rw [rngState, cells]
  exact eaten_finds (by decide +kernel)

theorem snake_food_clear_iff_eaten : ∃ start, Snake.cleared.init 5045681 5045681 = some start ∧
    (Transition.EveryStep Snake.step FoodClearStep start [.tick 5045693] ↔
      Transition.EveryStep Snake.step DrawsAnotherStep start [.tick 5045693]) := by
  obtain ⟨start, init, first, places⟩ := eaten_places
  exact ⟨start, init, snake_food_clear_iff _ start _ _ [.tick 5045693] init first places⟩

theorem snake_food_under_head : ∃ start, Snake.cleared.init 5045681 5045681 = some start ∧
    FindsFood (BitVec.setWidth 32 (5045681 : BitVec 64)) startCells ∧
      Transition.EveryStep Snake.step FindsFoodStep start [.tick 5045693] ∧
        ¬Transition.EveryStep Snake.step FoodClearStep start [.tick 5045693] := by
  obtain ⟨start, init, first, places⟩ := eaten_places
  refine ⟨start, init, first, places, fun clear => ?_⟩
  obtain ⟨after, run, fields⟩ := Option.map_eq_some_iff.mp after_eaten
  rw [init, Option.bind_some] at run
  obtain ⟨going, last⟩ := Prod.mk.inj fields
  obtain ⟨food, cells⟩ := Prod.mk.inj last
  refine (clear after run).1 5045693 rfl going ?_
  rw [food, cells]
  exact List.mem_cons_self

end DragoonKernel
