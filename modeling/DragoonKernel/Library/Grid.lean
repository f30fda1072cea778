import Mathlib.Logic.Function.Basic
import Mathlib.Data.List.Basic

/-!
Two-dimensional arrays with checked stores, and the loops that fill, copy and shift their rows.
A store outside of the array fails. The lemmas describe an array by its rows.
-/

universe u v

/-- The loop `for (i = 0; i < count; i++)`, which stops at a turn that fails. -/
def loopUp {State : Type v} (body : Nat → State → Option State) : Nat → State → Option State
  | 0, state => some state
  | i + 1, state => (loopUp body i state).bind (body i)

/-- The loop `for (i = count; i > 0; i--)`. -/
def loopDown {State : Type v} (body : Nat → State → Option State) : Nat → State → Option State
  | 0, state => some state
  | i + 1, state => (body (i + 1) state).bind (loopDown body i)

section Loops

variable {State : Type v} {body : Nat → State → Option State} {holds : Nat → State → Prop}
  {state : State} {count : Nat}

theorem loopUp_holds (start : holds 0 state)
    (turn : ∀ i < count, ∀ state, holds i state →
      ∃ next, body i state = some next ∧ holds (i + 1) next) :
    ∃ final, loopUp body count state = some final ∧ holds count final := by
  induction count with
  | zero => exact ⟨state, rfl, start⟩
  | succ i ih =>
      obtain ⟨middle, before, here⟩ := ih fun j below => turn j (Nat.lt_succ_of_lt below)
      obtain ⟨final, last, after⟩ := turn i (Nat.lt_succ_self i) middle here
      refine ⟨final, ?_, after⟩
      rw [loopUp, before, Option.bind_some, last]

theorem loopUp_keeps {holds : State → Prop} (start : holds state)
    (turn : ∀ i < count, ∀ state, holds state → ∃ next, body i state = some next ∧ holds next) :
    ∃ final, loopUp body count state = some final ∧ holds final := by
  let always (_ : Nat) : State → Prop := holds
  have kept : always 0 state := start
  exact loopUp_holds kept turn

theorem loopDown_holds (start : holds count state)
    (turn : ∀ i < count, ∀ state, holds (i + 1) state →
      ∃ next, body (i + 1) state = some next ∧ holds i next) :
    ∃ final, loopDown body count state = some final ∧ holds 0 final := by
  induction count generalizing state with
  | zero => exact ⟨state, rfl, start⟩
  | succ i ih =>
      obtain ⟨middle, first, here⟩ := turn i (Nat.lt_succ_self i) state start
      obtain ⟨final, rest, after⟩ := ih here fun j below => turn j (Nat.lt_succ_of_lt below)
      refine ⟨final, ?_, after⟩
      rw [loopDown, first, Option.bind_some, rest]

end Loops

structure Grid (rows cols : Nat) (Cell : Type u) where
  cell : Nat → Nat → Cell

namespace Grid

variable {rows cols : Nat} {Cell : Type u}

def store (grid : Grid rows cols Cell) (r c : Nat) (value : Cell) : Option (Grid rows cols Cell) :=
  if r < rows ∧ c < cols then
    some ⟨Function.update grid.cell r (Function.update (grid.cell r) c value)⟩
  else none

def row (grid : Grid rows cols Cell) (r : Nat) : List Cell := (List.range cols).map (grid.cell r)

def contents (grid : Grid rows cols Cell) : List (List Cell) := (List.range rows).map grid.row

/-- `for (c = 0; c < cols; c++) grid[r][c] = value;` where the value may depend on the grid. -/
def writeRow (value : Grid rows cols Cell → Nat → Cell) (r : Nat) (grid : Grid rows cols Cell) :
    Option (Grid rows cols Cell) :=
  loopUp (fun c grid => grid.store r c (value grid c)) cols grid

def fillRow (value : Cell) : Nat → Grid rows cols Cell → Option (Grid rows cols Cell) :=
  writeRow fun _ _ => value

def copyRow (src : Nat) : Nat → Grid rows cols Cell → Option (Grid rows cols Cell) :=
  writeRow fun grid => grid.cell src

variable {grid : Grid rows cols Cell}

theorem length_row (grid : Grid rows cols Cell) (r : Nat) : (grid.row r).length = cols := by
  rw [row, List.length_map, List.length_range]

theorem length_contents (grid : Grid rows cols Cell) : grid.contents.length = rows := by
  rw [contents, List.length_map, List.length_range]

theorem store_cell (grid : Grid rows cols Cell) {r c : Nat} (inside : r < rows) (fits : c < cols)
    (value : Cell) :
    ∃ next, grid.store r c value = some next ∧
      (∀ j, next.cell r j = if j = c then value else grid.cell r j) ∧
        ∀ i ≠ r, next.cell i = grid.cell i := by
  refine ⟨_, if_pos ⟨inside, fits⟩, fun j => ?_, fun i other => Function.update_of_ne other _ _⟩
  dsimp only
  rw [Function.update_self, Function.update_apply]

theorem store_row (grid : Grid rows cols Cell) {r c : Nat} (inside : r < rows) (fits : c < cols)
    (value : Cell) :
    ∃ next, grid.store r c value = some next ∧ next.row r = (grid.row r).set c value ∧
      ∀ i ≠ r, next.row i = grid.row i := by
  obtain ⟨next, stored, here, others⟩ := store_cell grid inside fits value
  refine ⟨next, stored, ?_, fun i other => by rw [row, others i other, row]⟩
  refine List.ext_getElem (by simp only [List.length_set, length_row]) fun j _ _ => ?_
  rw [List.getElem_set]
  simp only [row, List.getElem_map, List.getElem_range, here, eq_comm]

/-- Values that the row itself has no part in end up in it. -/
theorem writeRow_row {value : Grid rows cols Cell → Nat → Cell} {r : Nat} (inside : r < rows)
    (stable : ∀ other : Grid rows cols Cell, (∀ i ≠ r, other.cell i = grid.cell i) →
      value other = value grid) :
    ∃ next, writeRow value r grid = some next ∧ next.row r = (List.range cols).map (value grid) ∧
      ∀ i ≠ r, next.row i = grid.row i := by
  let holds (c : Nat) (next : Grid rows cols Cell) : Prop :=
    (∀ j < c, next.cell r j = value grid j) ∧ ∀ i ≠ r, next.cell i = grid.cell i
  have start : holds 0 grid := ⟨fun j below => absurd below (Nat.not_lt_zero j), fun _ _ => rfl⟩
  have turn : ∀ c < cols, ∀ state, holds c state →
      ∃ next, state.store r c (value state c) = some next ∧ holds (c + 1) next := by
    rintro c fits state ⟨written, others⟩
    obtain ⟨next, stored, here, apart⟩ := store_cell state inside fits (value state c)
    refine ⟨next, stored, fun j below => ?_, fun i other => (apart i other).trans (others i other)⟩
    rw [here, stable state others]
    split
    next same => rw [same]
    next earlier => exact written j (Nat.lt_of_le_of_ne (Nat.le_of_lt_succ below) earlier)
  obtain ⟨next, run, written, others⟩ := loopUp_holds start turn
  refine ⟨next, run, List.map_congr_left fun j listed => written j (List.mem_range.mp listed),
    fun i other => ?_⟩
  rw [row, others i other, row]

theorem fillRow_row (grid : Grid rows cols Cell) {r : Nat} (inside : r < rows) (value : Cell) :
    ∃ next, fillRow value r grid = some next ∧ next.row r = List.replicate cols value ∧
      ∀ i ≠ r, next.row i = grid.row i := by
  let values (_ : Grid rows cols Cell) (_ : Nat) : Cell := value
  have stable (other : Grid rows cols Cell) (_ : ∀ i ≠ r, other.cell i = grid.cell i) :
      values other = values grid := rfl
  obtain ⟨next, run, here, others⟩ := writeRow_row inside stable
  refine ⟨next, run, ?_, others⟩
  rw [here, List.map_const', List.length_range]

theorem copyRow_row (grid : Grid rows cols Cell) {src r : Nat} (inside : r < rows)
    (apart : src ≠ r) :
    ∃ next, copyRow src r grid = some next ∧ next.row r = grid.row src ∧
      ∀ i ≠ r, next.row i = grid.row i :=
  writeRow_row inside fun _ others => others src apart

/-- `for (r = 0; r < count; r++)` each row takes the next one. -/
def shiftUp (count : Nat) (grid : Grid rows cols Cell) : Option (Grid rows cols Cell) :=
  loopUp (fun r => copyRow (r + 1) r) count grid

/-- `for (r = count; r > 0; r--)` each row takes the one before it. -/
def shiftDown (count : Nat) (grid : Grid rows cols Cell) : Option (Grid rows cols Cell) :=
  loopDown (fun r => copyRow (r - 1) r) count grid

theorem shiftUp_row (grid : Grid rows cols Cell) {count : Nat} (inside : count < rows) :
    ∃ next, shiftUp count grid = some next ∧
      ∀ i, next.row i = if i < count then grid.row (i + 1) else grid.row i := by
  -- the rows from `r` on are still to be shifted
  let holds (r : Nat) (next : Grid rows cols Cell) : Prop :=
    ∀ i, next.row i = if i < r then grid.row (i + 1) else grid.row i
  have start : holds 0 grid := fun i => (if_neg (Nat.not_lt_zero i)).symm
  have turn : ∀ r < count, ∀ state, holds r state →
      ∃ next, copyRow (r + 1) r state = some next ∧ holds (r + 1) next := by
    intro r below state shifted
    obtain ⟨next, run, copied, others⟩ :=
      copyRow_row state (Nat.lt_trans below inside) (Nat.succ_ne_self r)
    refine ⟨next, run, fun i => ?_⟩
    by_cases here : i = r
    · rw [here, copied, shifted, if_neg (by omega), if_pos (Nat.lt_succ_self r)]
    · rw [others i here, shifted]
      exact if_congr (by omega) rfl rfl
  exact loopUp_holds start turn

theorem shiftDown_row (grid : Grid rows cols Cell) {count : Nat} (inside : count < rows) :
    ∃ next, shiftDown count grid = some next ∧
      ∀ i, next.row i = if 0 < i ∧ i ≤ count then grid.row (i - 1) else grid.row i := by
  -- the rows below `r` are still to be shifted
  let holds (r : Nat) (next : Grid rows cols Cell) : Prop :=
    ∀ i, next.row i = if r < i ∧ i ≤ count then grid.row (i - 1) else grid.row i
  have start : holds count grid := fun i => (if_neg (by omega)).symm
  have turn : ∀ r < count, ∀ state, holds (r + 1) state →
      ∃ next, copyRow r (r + 1) state = some next ∧ holds r next := by
    intro r below state shifted
    obtain ⟨next, run, copied, others⟩ :=
      copyRow_row state (show r + 1 < rows by omega) (Nat.succ_ne_self r).symm
    refine ⟨next, run, fun i => ?_⟩
    by_cases here : i = r + 1
    · rw [here, copied, shifted, if_neg (by omega), if_pos (by omega), Nat.add_sub_cancel]
    · rw [others i here, shifted]
      exact if_congr (by omega) rfl rfl
  exact loopDown_holds start turn

/-! ### All rows as a list -/

theorem getElem?_contents (grid : Grid rows cols Cell) (i : Nat) :
    grid.contents[i]? = if i < rows then some (grid.row i) else none := by
  rw [contents, List.getElem?_map]
  split
  next inside => rw [List.getElem?_range inside, Option.map_some]
  next outside =>
    rw [List.getElem?_eq_none (by rw [List.length_range]; exact Nat.not_lt.mp outside),
      Option.map_none]

theorem contents_eq_set {next : Grid rows cols Cell} {r : Nat} {line : List Cell}
    (inside : r < rows) (here : next.row r = line) (others : ∀ i ≠ r, next.row i = grid.row i) :
    next.contents = grid.contents.set r line := by
  refine List.ext_getElem? fun i => ?_
  rw [List.getElem?_set, length_contents, getElem?_contents, getElem?_contents]
  by_cases same : r = i
  · rw [if_pos same, ← same, here, if_pos inside]
  · rw [if_neg same, others i (Ne.symm same)]

/-- The rows move up and the last one is filled. -/
theorem scrollUp_contents (grid : Grid rows cols Cell) {last : Nat} (inside : rows = last + 1)
    (value : Cell) :
    ∃ next, (grid.shiftUp last).bind (fillRow value last) = some next ∧
      next.contents = grid.contents.tail ++ [List.replicate cols value] := by
  obtain ⟨middle, moved, shifted⟩ := shiftUp_row grid (show last < rows by omega)
  obtain ⟨next, filled, here, others⟩ :=
    fillRow_row middle (show last < rows by omega) value
  refine ⟨next, by rw [moved, Option.bind_some, filled], List.ext_getElem? fun i => ?_⟩
  rw [List.getElem?_append, List.length_tail, length_contents, List.getElem?_tail,
    getElem?_contents, getElem?_contents]
  rcases Nat.lt_trichotomy i last with before | same | after
  · rw [others i (Nat.ne_of_lt before), shifted, if_pos before, if_pos (by omega),
      if_pos (by omega), if_pos (by omega)]
  · rw [same, here, if_pos (by omega), if_neg (by omega), inside]
    simp
  · rw [if_neg (by omega), if_neg (by omega), List.getElem?_eq_none]
    rw [List.length_singleton]
    omega

/-- The rows above one move down over it and the first one is filled. -/
theorem dropRow_contents (grid : Grid rows cols Cell) {r : Nat} (inside : r < rows) (value : Cell) :
    ∃ next, (grid.shiftDown r).bind (fillRow value 0) = some next ∧
      next.contents = List.replicate cols value :: grid.contents.eraseIdx r := by
  obtain ⟨middle, moved, shifted⟩ := shiftDown_row grid inside
  obtain ⟨next, filled, here, others⟩ :=
    fillRow_row middle (Nat.zero_lt_of_lt inside) value
  refine ⟨next, by rw [moved, Option.bind_some, filled], List.ext_getElem? fun i => ?_⟩
  cases i with
  | zero => rw [getElem?_contents, here, if_pos (Nat.zero_lt_of_lt inside), List.getElem?_cons_zero]
  | succ i =>
      rw [getElem?_contents, others _ (Nat.succ_ne_zero i), shifted, List.getElem?_cons_succ,
        List.getElem?_eraseIdx, getElem?_contents, getElem?_contents]
      by_cases above : i < r
      · rw [if_pos above, if_pos (by omega), if_pos (by omega), if_pos (by omega), Nat.succ_sub_one]
      · rw [if_neg above, if_neg (show ¬(0 < i.succ ∧ i.succ ≤ r) by omega)]

theorem fillRows_contents (grid : Grid rows cols Cell) (value : Cell) :
    ∃ next, loopUp (fillRow value) rows grid = some next ∧
      next.contents = List.replicate rows (List.replicate cols value) := by
  let holds (r : Nat) (next : Grid rows cols Cell) : Prop :=
    ∀ i < r, next.row i = List.replicate cols value
  have start : holds 0 grid := fun i below => absurd below (Nat.not_lt_zero i)
  have turn : ∀ r < rows, ∀ state, holds r state →
      ∃ next, fillRow value r state = some next ∧ holds (r + 1) next := by
    intro r inside state filled
    obtain ⟨next, run, here, others⟩ := fillRow_row state inside value
    refine ⟨next, run, fun i below => ?_⟩
    by_cases same : i = r
    · rw [same, here]
    · rw [others i same, filled i (by omega)]
  obtain ⟨next, run, filled⟩ := loopUp_holds start turn
  refine ⟨next, run, List.eq_replicate_iff.mpr ⟨length_contents next, fun line listed => ?_⟩⟩
  obtain ⟨i, below, rfl⟩ := List.mem_map.mp listed
  exact filled i (List.mem_range.mp below)

end Grid

theorem List.rightpad_set {Cell : Type u} {n : Nat} {blank value : Cell} {l : List Cell}
    (room : l.length < n) :
    (l.rightpad n blank).set l.length value = (l ++ [value]).rightpad n blank := by
  obtain ⟨free, rfl⟩ := Nat.exists_eq_add_of_lt room
  have before : l.length + free + 1 - l.length = free + 1 := by omega
  have after : l.length + free + 1 - (l.length + 1) = free := by omega
  rw [rightpad, rightpad, set_append_right _ _ (Nat.le_refl _), length_append, length_singleton,
    Nat.sub_self, before, after, replicate_succ, set_cons_zero, append_assoc, singleton_append]
