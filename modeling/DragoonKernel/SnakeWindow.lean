import DragoonKernel.GpuSpec
import DragoonKernel.GpuText
import DragoonKernel.GuiCore
import DragoonKernel.SnakeDrawCore
import DragoonKernel.SnakeTrail

/-!
What the window of the snake shows: of each cell of the grid, the head, another part of the snake,
the food or nothing.
-/

namespace DragoonKernel

/-- A point of a cell, at least `margin` away from the points of other cells. -/
structure InCell (margin u v : Int) : Prop where
  left : margin ≤ u
  right : u < cellSize - margin
  top : margin ≤ v
  bottom : v < cellSize - margin

instance decidableInCell (margin u v : Int) : Decidable (InCell margin u v) :=
  decidable_of_iff (margin ≤ u ∧ u < cellSize - margin ∧ margin ≤ v ∧ v < cellSize - margin)
    ⟨fun ⟨left, right, top, bottom⟩ => ⟨left, right, top, bottom⟩,
      fun ⟨left, right, top, bottom⟩ => ⟨left, right, top, bottom⟩⟩

def Snake.headColor (snake : Snake) (cell : Int × Int) : BitVec 32 :=
  if cell = snake.cellAt 0 then colorGreen else colorDkgreen

/-- The colour of a point of a cell. -/
def Snake.cellPixel (snake : Snake) (cell : Int × Int) (u v : Int) : BitVec 32 :=
  if snake.occupies cell.1 cell.2 ∧ InCell 1 u v then snake.headColor cell
  else if cell = snake.food ∧ InCell 2 u v then colorRed
  else colorBlack

def cellX (tw : Int) (cell : Int × Int) (u : Int) : Int := snakeOffsetX tw + cell.1 * cellSize + u

def cellY (cell : Int × Int) (v : Int) : Int := snakeOffsetY + cell.2 * cellSize + v

/-- The box that the end of the game is announced in. -/
def InGameOver (tw th px py : Int) : Prop :=
  InRect (gameOverX tw - 16) (gameOverY th - 8) (9 * fontWidth + 32) (fontHeight + 16) px py

/-- The frame shows the grid, and a window of the size that the desktop gives the game has room for
all of it. -/
structure Snake.ShownBy (snake : Snake) (frame : Raster (BitVec 32)) : Prop where
  cells : ∀ cell u v, InCell 0 u v → InGrid cell →
    frame.Inside (cellX frame.w cell u) (cellY cell v) →
    (snake.gameOver = true → ¬InGameOver frame.w frame.h (cellX frame.w cell u) (cellY cell v)) →
    frame.pixel (cellX frame.w cell u) (cellY cell v) = snake.cellPixel cell u v
  whole : (appWindow .snake).w ≤ frame.w → (appWindow .snake).h ≤ frame.h →
    ∀ cell u v, InCell 0 u v → InGrid cell → frame.Inside (cellX frame.w cell u) (cellY cell v)

section Drawing

variable {target : Raster (BitVec 32)} {cell : Int × Int} {u v : Int}

theorem drawString_leaves {region : Int → Int → Prop} (font : Font) (target : Raster (BitVec 32))
    {x y : Int} (title : List (BitVec 8)) (fg bg : BitVec 32)
    (apart : ∀ px py, region px py → ¬InRect x y (fontWidth * title.length) fontHeight px py) :
    Raster.Leaves region target (gpuDrawString font target x y title fg bg) := by
  induction title generalizing target x with
  | nil => exact ⟨rfl, rfl, fun _ _ _ _ => rfl⟩
  | cons c rest ih =>
      rw [List.length_cons] at apart
      have char : Raster.Leaves region target (gpuDrawChar font target x y c fg bg) := by
        rw [gpuDrawChar_paint]
        refine target.paint_leaves fun px py within => if_neg ?_
        rintro ⟨left, right, top, bottom⟩
        refine apart px py within ⟨left, ?_, top, bottom⟩
        rw [fontWidth] at right ⊢
        omega
      refine char.trans (ih _ fun px py within => ?_)
      rintro ⟨left, right, top, bottom⟩
      refine apart px py within ⟨?_, ?_, top, bottom⟩
      · rw [fontWidth] at left
        omega
      · rw [fontWidth] at right ⊢
        omega

/-- A block of a cell has a point of another cell's block only if they are the same cell. -/
theorem inBlock_iff (tw : Int) {margin : Int} (thin : 0 ≤ margin) (cell other : Int × Int)
    (inCell : InCell 0 u v) :
    InRect (snakeOffsetX tw + other.1 * cellSize + margin)
        (snakeOffsetY + other.2 * cellSize + margin) (cellSize - 2 * margin)
        (cellSize - 2 * margin) (cellX tw cell u) (cellY cell v) ↔
      cell = other ∧ InCell margin u v := by
  obtain ⟨left, right, top, bottom⟩ := inCell
  obtain ⟨column, row⟩ := cell
  obtain ⟨otherColumn, otherRow⟩ := other
  simp only [cellX, cellY, cellSize] at right bottom ⊢
  constructor
  · rintro ⟨after, before, below, above⟩
    obtain rfl : column = otherColumn := by omega
    obtain rfl : row = otherRow := by omega
    exact ⟨rfl, by omega, by rw [cellSize]; omega, by omega, by rw [cellSize]; omega⟩
  · rintro ⟨same, after, before, below, above⟩
    obtain ⟨rfl, rfl⟩ := Prod.mk.inj same
    rw [cellSize] at before above
    exact ⟨by omega, by omega, by omega, by omega⟩

/-- What a fill leaves at a point of a cell. -/
theorem fillBlock_pixel (tw : Int) {margin : Int} (thin : 0 ≤ margin) (other : Int × Int)
    (inCell : InCell 0 u v) (color : BitVec 32)
    (inside : target.Inside (cellX tw cell u) (cellY cell v)) :
    (gpuFillRect target (snakeOffsetX tw + other.1 * cellSize + margin)
      (snakeOffsetY + other.2 * cellSize + margin) (cellSize - 2 * margin) (cellSize - 2 * margin)
      color).pixel (cellX tw cell u) (cellY cell v) =
      if cell = other ∧ InCell margin u v then color
      else target.pixel (cellX tw cell u) (cellY cell v) := by
  rw [gpuFillRect_paint, Raster.paint_pixel _ inside, Shade.solid]
  have block := inBlock_iff tw thin cell other inCell
  by_cases here : cell = other ∧ InCell margin u v
  · rw [if_pos (block.mpr here), if_pos here]
    rfl
  · rw [if_neg fun within => here (block.mp within), if_neg here]
    rfl

theorem cellAt_inj {snake : Snake} (distinct : snake.cells.Nodup) {i j : Nat}
    (first : i < snake.snakeLen) (second : j < snake.snakeLen)
    (same : snake.cellAt i = snake.cellAt j) : i = j :=
  List.inj_on_of_nodup_map distinct (List.mem_range.mpr first) (List.mem_range.mpr second) same

theorem inside_of_size {first second : Raster (BitVec 32)} {x y : Int} (inside : first.Inside x y)
    (size : second.w = first.w ∧ second.h = first.h) : second.Inside x y :=
  ⟨inside.left, size.1 ▸ inside.right, inside.top, size.2 ▸ inside.bottom⟩

theorem drawCells_succ (snake : Snake) (tw : Int) (count : Nat) (target : Raster (BitVec 32)) :
    snake.drawCells (snakeOffsetX tw) snakeOffsetY (count + 1) target =
      gpuFillRect (snake.drawCells (snakeOffsetX tw) snakeOffsetY count target)
        (snakeOffsetX tw + (snake.cellAt count).1 * cellSize + 1)
        (snakeOffsetY + (snake.cellAt count).2 * cellSize + 1) (cellSize - 2 * 1)
        (cellSize - 2 * 1) (if count = 0 then colorGreen else colorDkgreen) := by
  rw [Snake.drawCells, List.range_succ, List.foldl_append]
  rfl

theorem drawCells_size (snake : Snake) (tw : Int) (count : Nat) (target : Raster (BitVec 32)) :
    (snake.drawCells (snakeOffsetX tw) snakeOffsetY count target).w = target.w ∧
      (snake.drawCells (snakeOffsetX tw) snakeOffsetY count target).h = target.h := by
  induction count with
  | zero => exact ⟨rfl, rfl⟩
  | succ count ih =>
      rw [drawCells_succ, gpuFillRect_paint]
      exact ih

/-- The cells drawn so far are on top. -/
theorem drawCells_pixel {snake : Snake} (distinct : snake.cells.Nodup) (inCell : InCell 0 u v)
    (tw : Int) (inside : target.Inside (cellX tw cell u) (cellY cell v)) {count : Nat}
    (within : count ≤ snake.snakeLen) :
    (snake.drawCells (snakeOffsetX tw) snakeOffsetY count target).pixel (cellX tw cell u)
      (cellY cell v) =
      if cell ∈ (List.range count).map snake.cellAt ∧ InCell 1 u v then snake.headColor cell
      else target.pixel (cellX tw cell u) (cellY cell v) := by
  induction count with
  | zero => exact (if_neg fun drawn => List.not_mem_nil drawn.1).symm
  | succ count ih =>
      have before := ih (by omega)
      have still := inside_of_size inside (drawCells_size snake tw count target)
      rw [drawCells_succ, fillBlock_pixel tw Int.one_nonneg _ inCell _ still, before,
        List.range_succ, List.map_append, List.map_singleton]
      by_cases margin : InCell 1 u v
      · by_cases here : cell = snake.cellAt count
        · have top : cell = snake.cellAt count ∧ InCell 1 u v := ⟨here, margin⟩
          have drawn : cell ∈ (List.range count).map snake.cellAt ++ [snake.cellAt count] ∧
              InCell 1 u v :=
            ⟨List.mem_append_right _ (List.mem_singleton.mpr here), margin⟩
          rw [if_pos top, if_pos drawn, Snake.headColor]
          by_cases first : count = 0
          · rw [if_pos first, if_pos (here.trans (congrArg snake.cellAt first))]
          · have other : cell ≠ snake.cellAt 0 := fun head =>
              first (cellAt_inj distinct (by omega) (by omega) (here.symm.trans head))
            rw [if_neg first, if_neg other]
        · have listed : cell ∈ (List.range count).map snake.cellAt ++ [snake.cellAt count] ↔
              cell ∈ (List.range count).map snake.cellAt := by
            rw [List.mem_append, List.mem_singleton, or_iff_left here]
          simp only [here, listed, false_and, if_false]
      · simp only [margin, and_false, if_false]

theorem clear_pixel (color : BitVec 32) {x y : Int} (inside : target.Inside x y) :
    (gpuClear target color).pixel x y = color := by
  rw [gpuClear_paint, Raster.paint_pixel _ inside]
  rfl

/-- The border lies around the grid. -/
theorem border_leaves (target : Raster (BitVec 32)) (tw : Int) (color : BitVec 32)
    (inGrid : InGrid cell) (inCell : InCell 0 u v) :
    Raster.Leaves (fun px py => px = cellX tw cell u ∧ py = cellY cell v) target
      (gpuDrawRect target (snakeOffsetX tw - 1) (snakeOffsetY - 1) (gridW * cellSize + 2)
        (gridH * cellSize + 2) color) := by
  rw [gpuDrawRect_paint]
  refine target.paint_leaves fun px py place => if_neg ?_
  obtain ⟨rfl, rfl⟩ := place
  obtain ⟨⟨first, last⟩, top, bottom⟩ := inGrid
  obtain ⟨left, right, above, below⟩ := inCell
  simp only [inRect_iff, cellX, cellY, cellSize, gridW, gridH] at *
  omega

theorem text_leaves (font : Font) (target : Raster (BitVec 32)) (tw : Int) (inGrid : InGrid cell)
    (inCell : InCell 0 u v) (x : Int) (text : List (BitVec 8)) (fg bg : BitVec 32) :
    Raster.Leaves (fun px py => px = cellX tw cell u ∧ py = cellY cell v) target
      (gpuDrawString font target x 4 text fg bg) := by
  refine gpuDrawString_leaves font target x text fg bg fun px py place => .inr ?_
  obtain ⟨_, rfl⟩ := place
  obtain ⟨_, top, _⟩ := inGrid
  have above := inCell.top
  rw [cellY, snakeOffsetY, fontHeight, cellSize]
  omega

theorem drawString_size (font : Font) (target : Raster (BitVec 32)) (x y : Int)
    (title : List (BitVec 8)) (fg bg : BitVec 32) :
    (gpuDrawString font target x y title fg bg).w = target.w ∧
      (gpuDrawString font target x y title fg bg).h = target.h := by
  have nowhere : ∀ px py, False → ¬InRect x y (fontWidth * title.length) fontHeight px py :=
    fun _ _ absent => absent.elim
  exact ⟨(drawString_leaves font target title fg bg nowhere).w,
    (drawString_leaves font target title fg bg nowhere).h⟩

theorem fillRect_size (target : Raster (BitVec 32)) (x y w h : Int) (color : BitVec 32) :
    (gpuFillRect target x y w h color).w = target.w ∧
      (gpuFillRect target x y w h color).h = target.h := by
  rw [gpuFillRect_paint]
  exact ⟨rfl, rfl⟩

/-- The end of `snake_draw` when the game is over. -/
def drawGameOver (font : Font) (tw th : Int) (target : Raster (BitVec 32)) : Raster (BitVec 32) :=
  gpuDrawString font (gpuFillRect target (gameOverX tw - 16) (gameOverY th - 8)
    (9 * fontWidth + 32) (fontHeight + 16) colorDkred) (gameOverX tw) (gameOverY th)
    (cString "GAME OVER") colorWhite colorDkred

theorem drawGameOver_size (font : Font) (tw th : Int) (target : Raster (BitVec 32)) :
    (drawGameOver font tw th target).w = target.w ∧
      (drawGameOver font tw th target).h = target.h := by
  obtain ⟨w, h⟩ := fillRect_size target (gameOverX tw - 16) (gameOverY th - 8) (9 * fontWidth + 32)
    (fontHeight + 16) colorDkred
  rw [drawGameOver, (drawString_size ..).1, (drawString_size ..).2]
  exact ⟨w, h⟩

theorem drawGameOver_leaves (font : Font) (target : Raster (BitVec 32)) (tw th : Int) {x y : Int}
    (outside : ¬InGameOver tw th x y) :
    Raster.Leaves (fun px py => px = x ∧ py = y) target (drawGameOver font tw th target) := by
  refine (gpuFillRect_leaves target colorDkred ?_).trans (drawString_leaves font _ _ _ _ ?_)
  · rintro px py ⟨rfl, rfl⟩
    exact outside
  · rintro px py ⟨rfl, rfl⟩ ⟨left, right, top, bottom⟩
    have length : (cString "GAME OVER").length = 9 := rfl
    rw [length] at right
    refine outside ⟨by omega, ?_, by omega, ?_⟩
    · rw [fontWidth] at right ⊢
      omega
    · rw [fontHeight] at bottom ⊢
      omega

theorem snakeGrid_inside {tw th : Int} (wide : (appWindow .snake).w ≤ tw)
    (tall : (appWindow .snake).h ≤ th) (inGrid : InGrid cell) (inCell : InCell 0 u v) :
    (0 ≤ cellX tw cell u ∧ cellX tw cell u < tw) ∧ 0 ≤ cellY cell v ∧ cellY cell v < th := by
  obtain ⟨⟨first, last⟩, top, bottom⟩ := inGrid
  obtain ⟨left, right, above, below⟩ := inCell
  simp only [appWindow] at wide tall
  have half : snakeOffsetX tw = (tw - 608) / 2 := by
    rw [snakeOffsetX]
    exact Int.tdiv_eq_ediv_of_nonneg (by simp only [gridW, cellSize]; omega)
  simp only [cellX, cellY, half, snakeOffsetY, cellSize, gridW, gridH] at *
  omega

end Drawing

section Frames

variable {snake : Snake}

/-- The grid with its border, the food and the snake. -/
def Snake.grid (snake : Snake) (target : Raster (BitVec 32)) : Raster (BitVec 32) :=
  snake.drawCells (snakeOffsetX target.w) snakeOffsetY snake.snakeLen
    (gpuFillRect (gpuDrawRect (gpuClear target colorBlack) (snakeOffsetX target.w - 1)
      (snakeOffsetY - 1) (gridW * cellSize + 2) (gridH * cellSize + 2) colorGray)
      (snakeOffsetX target.w + snake.foodX * cellSize + 2)
      (snakeOffsetY + snake.foodY * cellSize + 2) (cellSize - 4) (cellSize - 4) colorRed)

theorem grid_size (snake : Snake) (target : Raster (BitVec 32)) :
    (snake.grid target).w = target.w ∧ (snake.grid target).h = target.h := by
  obtain ⟨w, h⟩ := drawCells_size snake target.w snake.snakeLen _
  rw [Snake.grid, w, h, gpuFillRect_paint, gpuDrawRect_paint, gpuClear_paint]
  exact ⟨rfl, rfl⟩

theorem grid_pixel (distinct : snake.cells.Nodup) (target : Raster (BitVec 32))
    {cell : Int × Int} {u v : Int} (inGrid : InGrid cell) (inCell : InCell 0 u v)
    (inside : target.Inside (cellX target.w cell u) (cellY cell v)) :
    (snake.grid target).pixel (cellX target.w cell u) (cellY cell v) =
      snake.cellPixel cell u v := by
  have size : (gpuClear target colorBlack).w = target.w ∧
      (gpuClear target colorBlack).h = target.h := by
    rw [gpuClear_paint]
    exact ⟨rfl, rfl⟩
  have border := border_leaves (gpuClear target colorBlack) target.w colorGray inGrid inCell
  have framed := border.pixels _ _ (inside_of_size inside size) ⟨rfl, rfl⟩
  rw [clear_pixel colorBlack inside] at framed
  have framedSize := And.intro (border.w.trans size.1) (border.h.trans size.2)
  have fed := fillBlock_pixel target.w (show (0 : Int) ≤ 2 by decide) snake.food inCell colorRed
    (inside_of_size inside framedSize)
  rw [framed] at fed
  have laid := fun x y w h => inside_of_size (inside_of_size inside framedSize)
    (fillRect_size _ x y w h colorRed)
  rw [Snake.grid, drawCells_pixel distinct inCell target.w (laid _ _ _ _) (Nat.le_refl _)]
  exact if_congr (and_congr_left' occupies_iff.symm) rfl fed

/-- The grid with the score above it. -/
def Snake.scored (font : Font) (snake : Snake) (target : Raster (BitVec 32)) :
    Raster (BitVec 32) :=
  gpuDrawString font (gpuDrawString font (snake.grid target) 8 4 (cString "SNAKE  Score:")
    colorWhite colorBlack) (8 + 14 * fontWidth) 4 (intText snake.score.toInt) colorYellow colorBlack

theorem scored_size (font : Font) (snake : Snake) (target : Raster (BitVec 32)) :
    (snake.scored font target).w = target.w ∧ (snake.scored font target).h = target.h := by
  rw [Snake.scored, (drawString_size ..).1, (drawString_size ..).1, (drawString_size ..).2,
    (drawString_size ..).2]
  exact grid_size snake target

theorem scored_pixel (font : Font) (distinct : snake.cells.Nodup) (target : Raster (BitVec 32))
    {cell : Int × Int} {u v : Int} (inGrid : InGrid cell) (inCell : InCell 0 u v)
    (inside : target.Inside (cellX target.w cell u) (cellY cell v)) :
    (snake.scored font target).pixel (cellX target.w cell u) (cellY cell v) =
      snake.cellPixel cell u v := by
  have heading := text_leaves font (snake.grid target) target.w inGrid inCell 8
    (cString "SNAKE  Score:") colorWhite colorBlack
  have scored := heading.trans (text_leaves font _ target.w inGrid inCell (8 + 14 * fontWidth)
    (intText snake.score.toInt) colorYellow colorBlack)
  have still := inside_of_size inside (grid_size snake target)
  exact (scored.pixels _ _ still ⟨rfl, rfl⟩).trans (grid_pixel distinct target inGrid inCell inside)

theorem snakeDraw_eq (font : Font) (target : Raster (BitVec 32))
    (proper : snake.score ≠ BitVec.intMin 32) :
    snakeDraw font snake target = some (if snake.gameOver then
      drawGameOver font target.w target.h (snake.scored font target)
      else snake.scored font target) := by
  rw [snakeDraw, gpuDrawInt_eq _ _ _ _ proper]
  rfl

/-- The frame of a snake that lies on distinct cells. -/
theorem snakeDraw_shows (font : Font) (target : Raster (BitVec 32)) (distinct : snake.cells.Nodup)
    (proper : snake.score ≠ BitVec.intMin 32) :
    ∃ frame, snakeDraw font snake target = some frame ∧ frame.w = target.w ∧ frame.h = target.h ∧
      snake.ShownBy frame := by
  obtain ⟨w, h⟩ := scored_size font snake target
  have whole : ∀ frame : Raster (BitVec 32), (appWindow .snake).w ≤ frame.w →
      (appWindow .snake).h ≤ frame.h → ∀ cell u v, InCell 0 u v → InGrid cell →
      frame.Inside (cellX frame.w cell u) (cellY cell v) := by
    intro frame wide tall cell u v inCell inGrid
    obtain ⟨⟨left, right⟩, top, bottom⟩ := snakeGrid_inside wide tall inGrid inCell
    exact ⟨left, right, top, bottom⟩
  rw [snakeDraw_eq font target proper]
  by_cases ended : snake.gameOver = true
  · obtain ⟨finalW, finalH⟩ := drawGameOver_size font target.w target.h (snake.scored font target)
    have sizes := And.intro (finalW.trans w) (finalH.trans h)
    rw [if_pos ended]
    refine ⟨_, rfl, sizes.1, sizes.2, fun cell u v inCell inGrid inside apart => ?_, whole _⟩
    rw [sizes.1, sizes.2] at apart
    rw [sizes.1] at inside ⊢
    have still := inside_of_size inside ⟨finalW.symm, finalH.symm⟩
    have drawn := drawGameOver_leaves font (snake.scored font target) target.w target.h (apart ended)
    exact (drawn.pixels _ _ still ⟨rfl, rfl⟩).trans (scored_pixel font distinct target inGrid inCell
      (inside_of_size still ⟨w.symm, h.symm⟩))
  · rw [if_neg ended]
    refine ⟨_, rfl, w, h, fun cell u v inCell inGrid inside _ => ?_, whole _⟩
    rw [w] at inside ⊢
    exact scored_pixel font distinct target inGrid inCell (inside_of_size inside ⟨w.symm, h.symm⟩)

theorem SnakeRun.Trailed.proper {run : SnakeRun} (trailed : run.Trailed) :
    run.snake.score ≠ BitVec.intMin 32 := by
  have few : 10 * run.eaten ≤ 10640 := by
    have short := trailed.simple.short
    rw [trailed.length, show maxSnake = 1064 from rfl] at short
    omega
  have highest : (BitVec.intMin 32).toNat = 2147483648 := by decide
  intro smallest
  have value := congrArg BitVec.toNat (trailed.score.symm.trans smallest)
  rw [BitVec.toNat_ofNat, Nat.mod_eq_of_lt (few.trans_lt (by decide)), highest] at value
  exact absurd (value ▸ few) (by decide)

/-- What a call of `snake_draw` leaves. -/
def SnakeRun.Drawn (font : Font) (target : Raster (BitVec 32)) (run : SnakeRun) : Prop :=
  ∃ frame, snakeDraw font run.snake target = some frame ∧ frame.w = target.w ∧
    frame.h = target.h ∧ run.snake.ShownBy frame

/-- In every run every frame shows the snake and its food. -/
theorem snake_windowShowsGame (font : Font) (target : Raster (BitVec 32)) (snake : Snake)
    (seed now : BitVec 64) (calls : List SnakeCall) :
    ∃ start, snake.init seed now = some start ∧
      Transition.RunsThrough SnakeRun.step (SnakeRun.Drawn font target) (.start start) calls := by
  obtain ⟨start, run, trailed⟩ := snakeInit_trailed snake seed now
  have drawn (run : SnakeRun) (trailed : run.Trailed) : run.Drawn font target :=
    snakeDraw_shows font target trailed.simple.path.distinct trailed.proper
  exact ⟨start, run, Transition.runsThrough_of_invariant drawn
    (fun _ call trailed => snake_step_trailed trailed call) trailed calls⟩

end Frames

end DragoonKernel
