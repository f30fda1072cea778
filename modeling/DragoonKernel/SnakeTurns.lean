import DragoonKernel.SnakePath

/-!
What the keys between two moves make of the direction. The guard of `snake_key` compares with
the direction that was asked for last, and the snake has not moved that way yet.
-/

namespace DragoonKernel

def Dir.opposite : Dir → Dir
  | .up => .down
  | .down => .up
  | .left => .right
  | .right => .left

def Dir.move : Dir → Int × Int → Int × Int
  | .up, (x, y) => (x, y - 1)
  | .down, (x, y) => (x, y + 1)
  | .left, (x, y) => (x - 1, y)
  | .right, (x, y) => (x + 1, y)

/-- At a right angle. -/
def Dir.Across (dir heading : Dir) : Prop := dir ≠ heading ∧ dir ≠ heading.opposite

instance Dir.decidableAcross (dir heading : Dir) : Decidable (dir.Across heading) :=
  inferInstanceAs (Decidable (_ ∧ _))

/-- A key that asks for a direction, which has an effect unless it is the opposite one. -/
def Dir.turn (dir asked : Dir) : Dir := if dir = asked.opposite then dir else asked

def keyDir (key : Int) : Option Dir :=
  if key = keyUp then some .up
  else if key = keyDown then some .down
  else if key = keyLeft then some .left
  else if key = keyRight then some .right
  else none

/-- The first direction asked for after the last one at a right angle is the way back. -/
def TurnsBack (heading : Dir) (asked : List Dir) : Prop :=
  ∃ first turn rest, asked = first ++ turn :: heading.opposite :: rest ∧ turn.Across heading ∧
    ∀ dir ∈ rest, ¬dir.Across heading

/-- The snake, the direction of its last move and the directions asked for since then. -/
structure SnakeHistory where
  snake : Snake
  heading : Dir
  asked : List Dir

def SnakeHistory.start (snake : Snake) : SnakeHistory where
  snake := snake
  heading := .right
  asked := []

instance Snake.decidableDue (snake : Snake) (now : BitVec 64) : Decidable (snake.Due now) :=
  inferInstanceAs (Decidable (_ ∧ _))

/-- What is known after a call that leaves this snake. -/
def SnakeHistory.record (history : SnakeHistory) (call : SnakeCall) (snake : Snake) :
    SnakeHistory :=
  match call with
  | .key key => { history with snake, asked := history.asked ++ (keyDir key).toList }
  | .tick now =>
      if history.snake.Due now ∧ snake.gameOver = false then
        { snake, heading := history.snake.dir, asked := [] }
      else { history with snake }

def SnakeHistory.step (history : SnakeHistory) (call : SnakeCall) : Option SnakeHistory :=
  (history.snake.step call).map (history.record call)

def ClearsNeckStep (before : SnakeHistory) (call : SnakeCall) (_ : SnakeHistory) : Prop :=
  ∀ now, call = .tick now → before.snake.Due now → before.snake.ahead ≠ before.snake.cellAt 1

def NoTurnBackStep (before : SnakeHistory) (call : SnakeCall) (_ : SnakeHistory) : Prop :=
  ∀ now, call = .tick now → before.snake.Due now → ¬TurnsBack before.heading before.asked

structure SnakeHistory.Consistent (history : SnakeHistory) : Prop where
  simple : history.snake.SimplePath
  moved : history.snake.cellAt 0 = history.heading.move (history.snake.cellAt 1)
  asked : history.snake.gameOver = false →
    history.snake.dir = history.asked.foldl Dir.turn history.heading

/-! ### Directions -/

theorem turn_eq_opposite_iff (heading dir asked : Dir) :
    dir.turn asked = heading.opposite ↔
      (asked = heading.opposite ∧ dir.Across heading) ∨
        (dir = heading.opposite ∧ ¬asked.Across heading) := by
  cases heading <;> cases dir <;> cases asked <;> decide

theorem turn_across_iff (heading dir asked : Dir) :
    (dir.turn asked).Across heading ↔ asked.Across heading := by
  cases heading <;> cases dir <;> cases asked <;> decide

theorem move_move_eq_iff (heading dir : Dir) (cell : Int × Int) :
    dir.move (heading.move cell) = cell ↔ dir = heading.opposite := by
  obtain ⟨x, y⟩ := cell
  cases heading <;> cases dir <;> simp [Dir.move, Dir.opposite] <;> omega

theorem turnsBack_snoc_iff (heading last : Dir) (asked : List Dir) :
    TurnsBack heading (asked ++ [last]) ↔
      (last = heading.opposite ∧ ∃ first turn, asked = first ++ [turn] ∧ turn.Across heading) ∨
        (TurnsBack heading asked ∧ ¬last.Across heading) := by
  constructor
  · rintro ⟨first, turn, rest, split, across, straight⟩
    rcases List.eq_nil_or_concat' rest with rfl | ⟨earlier, dir, rfl⟩
    · have ends : asked ++ [last] = (first ++ [turn]) ++ [heading.opposite] := by
        rw [split, List.append_assoc]
        rfl
      obtain ⟨rfl, same⟩ := List.append_inj' ends rfl
      exact .inl ⟨List.singleton_inj.mp same, first, turn, rfl, across⟩
    · have ends : asked ++ [last] = (first ++ turn :: heading.opposite :: earlier) ++ [dir] := by
        rw [split, List.append_assoc]
        rfl
      obtain ⟨rfl, same⟩ := List.append_inj' ends rfl
      obtain rfl := List.singleton_inj.mp same
      refine .inr ⟨⟨first, turn, earlier, rfl, across, fun dir listed => ?_⟩, ?_⟩
      · exact straight dir (List.mem_append_left _ listed)
      · exact straight last (List.mem_append_right _ List.mem_cons_self)
  · rintro (⟨rfl, first, turn, rfl, across⟩ | ⟨⟨first, turn, rest, rfl, across, straight⟩, ahead⟩)
    · refine ⟨first, turn, [], ?_, across, fun dir listed => absurd listed List.not_mem_nil⟩
      rw [List.append_assoc]
      rfl
    · refine ⟨first, turn, rest ++ [last], ?_, across, ?_⟩
      · rw [List.append_assoc]
        rfl
      · intro dir listed
        rcases List.mem_append.mp listed with earlier | here
        · exact straight dir earlier
        · exact List.mem_singleton.mp here ▸ ahead

theorem asked_across_iff (heading : Dir) (asked : List Dir) :
    (asked.foldl Dir.turn heading).Across heading ↔
      ∃ first turn, asked = first ++ [turn] ∧ turn.Across heading := by
  induction asked using List.reverseRecOn with
  | nil =>
      refine iff_of_false (fun across => across.1 rfl) ?_
      rintro ⟨first, turn, empty, _⟩
      exact List.append_ne_nil_of_right_ne_nil first (List.cons_ne_nil turn []) empty.symm
  | append_singleton asked last ih =>
      rw [List.foldl_append, List.foldl_cons, List.foldl_nil, turn_across_iff]
      constructor
      · exact fun across => ⟨asked, last, rfl, across⟩
      · rintro ⟨first, turn, ends, across⟩
        obtain ⟨_, same⟩ := List.append_inj' ends rfl
        exact List.singleton_inj.mp same ▸ across

theorem asked_eq_opposite_iff (heading : Dir) (asked : List Dir) :
    asked.foldl Dir.turn heading = heading.opposite ↔ TurnsBack heading asked := by
  induction asked using List.reverseRecOn with
  | nil =>
      refine iff_of_false (by cases heading <;> decide) ?_
      rintro ⟨first, turn, rest, empty, _⟩
      exact List.append_ne_nil_of_right_ne_nil first (List.cons_ne_nil turn _) empty.symm
  | append_singleton asked last ih =>
      rw [List.foldl_append, List.foldl_cons, List.foldl_nil, turn_eq_opposite_iff,
        asked_across_iff, ih, turnsBack_snoc_iff]

/-! ### Calls -/

variable {snake next : Snake}

theorem ahead_eq (snake : Snake) : snake.ahead = snake.dir.move (snake.cellAt 0) := by
  cases direction : snake.dir <;> simp only [Snake.ahead, direction] <;> rfl

theorem key_dir (snake : Snake) (key : Int) (going : snake.gameOver = false) :
    (snake.key key).dir = (keyDir key).toList.foldl Dir.turn snake.dir := by
  rw [Snake.key, if_pos (by rw [going]; rfl), keyDir]
  dsimp only
  -- the key is at most one of the four
  by_cases up : key = keyUp
  · cases snake.dir <;> simp [up, keyUp, keyDown, keyLeft, keyRight, Dir.turn, Dir.opposite]
  by_cases down : key = keyDown
  · cases snake.dir <;> simp [down, keyUp, keyDown, keyLeft, keyRight, Dir.turn, Dir.opposite]
  by_cases left : key = keyLeft
  · cases snake.dir <;> simp [left, keyUp, keyDown, keyLeft, keyRight, Dir.turn, Dir.opposite]
  by_cases right : key = keyRight
  · cases snake.dir <;> simp [right, keyUp, keyDown, keyLeft, keyRight, Dir.turn, Dir.opposite]
  · simp [up, down, left, right]

/-- The first two cells once the head is in front of these cells. -/
theorem moved_cells {cell head : Int × Int} {rest : List (Int × Int)} (long : 3 ≤ next.snakeLen)
    (cells : next.cells = cell :: rest) (first : rest.head? = some head) :
    next.cellAt 0 = cell ∧ next.cellAt 1 = head := by
  obtain ⟨n, length⟩ : ∃ n, next.snakeLen = n + 1 + 1 := ⟨next.snakeLen - 2, by omega⟩
  rw [Snake.cells, length, List.range_succ_eq_map, List.range_succ_eq_map] at cells
  obtain ⟨here, behind⟩ := List.cons.inj cells
  rw [← behind] at first
  exact ⟨here, Option.some.inj first⟩

theorem advances_moved (simple : snake.SimplePath) (advances : snake.Advances snake.ahead next) :
    next.cellAt 0 = snake.ahead ∧ next.cellAt 1 = snake.cellAt 0 := by
  obtain ⟨head, shorterHead⟩ := head_cells simple.long
  by_cases food : snake.ahead = snake.food
  · exact moved_cells advances.simple.long (advances.eats food).cells head
  · exact moved_cells advances.simple.long (advances.moves food).cells shorterHead

variable {history after : SnakeHistory}

/-- Straight after a move the way back is the cell of the neck, and no other direction is. -/
theorem ahead_ne_neck_iff (consistent : history.Consistent)
    (going : history.snake.gameOver = false) :
    history.snake.ahead ≠ history.snake.cellAt 1 ↔ ¬TurnsBack history.heading history.asked := by
  rw [ahead_eq, consistent.moved, ne_eq, move_move_eq_iff, consistent.asked going,
    asked_eq_opposite_iff]

theorem step_consistent (consistent : history.Consistent) (call : SnakeCall) :
    ∃ after, history.step call = some after ∧ after.Consistent := by
  obtain ⟨simple, moved, asked⟩ := consistent
  cases call with
  | key key =>
      refine ⟨_, rfl, ?_⟩
      have simple' := key_simplePath simple key
      have turned := key_dir history.snake key
      obtain ⟨dir, pressed⟩ := key_eq history.snake key
      rw [pressed] at simple' turned ⊢
      refine ⟨simple', moved, fun going => ?_⟩
      have folded :
          dir = (history.asked ++ (keyDir key).toList).foldl Dir.turn history.heading := by
        rw [List.foldl_append, ← asked going]
        exact turned going
      exact folded
  | tick now =>
      obtain ⟨next, changed, run, outcome⟩ := tick_advances simple now
      refine ⟨_, by rw [SnakeHistory.step, Snake.step, run]; rfl, ?_⟩
      rw [SnakeHistory.record]
      rcases outcome with ⟨idle, rfl⟩ | ⟨due, _, rfl⟩ | ⟨due, _, _, advances⟩
      · rw [if_neg fun moves => idle moves.1]
        exact ⟨simple, moved, asked⟩
      · rw [if_neg fun moves => Bool.false_ne_true moves.2.symm]
        exact ⟨⟨simple.long, simple.short, simple.path⟩, moved,
          fun going => absurd going.symm Bool.false_ne_true⟩
      · rw [if_pos ⟨due, advances.going.trans due.1⟩]
        obtain ⟨head, neck⟩ := advances_moved simple advances
        refine ⟨advances.simple, ?_, fun _ => advances.dir⟩
        rw [head, neck, ahead_eq]

theorem consistent_of_step {call : SnakeCall} (consistent : history.Consistent)
    (stepped : history.step call = some after) : after.Consistent := by
  obtain ⟨after', stepped', kept⟩ := step_consistent consistent call
  exact Option.some.inj (stepped'.symm.trans stepped) ▸ kept

theorem init_consistent (snake : Snake) (seed now : BitVec 64) :
    ∃ start, snake.init seed now = some start ∧ (SnakeHistory.start start).Consistent := by
  obtain ⟨ready, placed, cells, length, _, dir, going⟩ := init_places snake seed now
  obtain ⟨start, run, simple⟩ := init_simplePath snake seed now
  obtain rfl := Option.some.inj (placed.symm.trans run)
  obtain ⟨rngState, placing⟩ := placeFood_eq ready
  refine ⟨ready.placeFood, run, simple, ?_, fun _ => ?_⟩
  · rw [Snake.cells, length] at cells
    obtain ⟨head, rest⟩ := List.cons.inj cells
    obtain ⟨neck, _⟩ := List.cons.inj rest
    have moved : ready.cellAt 0 = Dir.right.move (ready.cellAt 1) := by
      rw [head, neck]
      rfl
    rw [SnakeHistory.start, placing]
    exact moved
  · rw [SnakeHistory.start, placing]
    exact dir

theorem history_runs (snake : Snake) (seed now : BitVec 64) (calls : List SnakeCall) :
    ∃ start, snake.init seed now = some start ∧
      Transition.RunsThrough SnakeHistory.step SnakeHistory.Consistent (.start start) calls := by
  obtain ⟨start, run, consistent⟩ := init_consistent snake seed now
  exact ⟨start, run, Transition.runsThrough_of_invariant (fun _ consistent => consistent)
    (fun _ call consistent => step_consistent consistent call) consistent calls⟩

/-- The head is never sent to the second cell exactly when the keys before a move never turn
the snake at a right angle and then, at the next turn, back. -/
theorem snake_clears_neck_iff (snake : Snake) (seed now : BitVec 64) (calls : List SnakeCall) :
    ∃ start, snake.init seed now = some start ∧
      (Transition.EveryStep SnakeHistory.step ClearsNeckStep (.start start) calls ↔
        Transition.EveryStep SnakeHistory.step NoTurnBackStep (.start start) calls) := by
  obtain ⟨start, run, consistent⟩ := init_consistent snake seed now
  refine ⟨start, run, Transition.everyStep_iff_of_promise ?_ consistent
    (Transition.everyStep_trivial _ calls)⟩
  intro before call after consistent stepped _
  refine ⟨forall₂_congr fun now _ => forall_congr' fun due => ?_,
    fun _ => consistent_of_step consistent stepped⟩
  exact ahead_ne_neck_iff consistent due.1

/-- Two keys, and the tick would send the head to the neck. -/
theorem turned_back : ((Snake.cleared.init 0 0).bind fun start =>
    Transition.exec SnakeHistory.step (.start start) [.key keyUp, .key keyLeft]).map
      (fun history => (decide (history.snake.Due 12), history.snake.ahead,
        history.snake.cellAt 1)) = some (true, (18, 14), (18, 14)) := by
  decide +kernel

theorem snake_reverses : ∃ start, Snake.cleared.init 0 0 = some start ∧
    ¬Transition.EveryStep SnakeHistory.step ClearsNeckStep (.start start)
      [.key keyUp, .key keyLeft, .tick 12] := by
  obtain ⟨start, init, consistent⟩ := init_consistent Snake.cleared 0 0
  obtain ⟨history, keys, fields⟩ := Option.map_eq_some_iff.mp turned_back
  rw [init, Option.bind_some] at keys
  obtain ⟨due, cells⟩ := Prod.mk.inj fields
  obtain ⟨ahead, neck⟩ := Prod.mk.inj cells
  refine ⟨start, init, fun clears => ?_⟩
  have kept : history.Consistent := Transition.exec_invariant
    (fun _ _ _ consistent stepped => consistent_of_step consistent stepped) consistent keys
  obtain ⟨after, stepped, _⟩ := step_consistent kept (.tick 12)
  have last := Transition.EveryStep.snoc clears keys stepped
  exact last 12 rfl (of_decide_eq_true due) (ahead.trans neck.symm)

end DragoonKernel
