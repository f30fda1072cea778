import DragoonKernel.GpuTextCore
import DragoonKernel.RaycasterCore
import DragoonKernel.SnakeCore

/-! Executable model of `snake_draw` of `games/snake.c`. -/

namespace DragoonKernel

def colorRed : BitVec 32 := 0x00FF0000
def colorGreen : BitVec 32 := 0x0000FF00
def colorYellow : BitVec 32 := 0x00FFFF00
def colorDkred : BitVec 32 := 0x00800000

/-- `CELL`. -/
def cellSize : Int := 16

def snakeOffsetX (tw : Int) : Int := (tw - gridW * cellSize).tdiv 2

def snakeOffsetY : Int := 24

/-- The first `count` turns of the loop over the snake. -/
def Snake.drawCells (snake : Snake) (offsetX offsetY : Int) (count : Nat)
    (target : Raster (BitVec 32)) : Raster (BitVec 32) :=
  (List.range count).foldl (fun target i =>
    let color := if i = 0 then colorGreen else colorDkgreen
    gpuFillRect target (offsetX + snake.snakeX i * cellSize + 1)
      (offsetY + snake.snakeY i * cellSize + 1) (cellSize - 2) (cellSize - 2) color) target

def gameOverX (tw : Int) : Int := (tw - 9 * fontWidth).tdiv 2

def gameOverY (th : Int) : Int := th.tdiv 2 - 8

def snakeDraw (font : Font) (snake : Snake) (target : Raster (BitVec 32)) :
    Option (Raster (BitVec 32)) :=
  let tw := target.w
  let th := target.h
  let offsetX := snakeOffsetX tw
  let offsetY := snakeOffsetY
  let target := gpuClear target colorBlack
  let target := gpuDrawRect target (offsetX - 1) (offsetY - 1) (gridW * cellSize + 2)
    (gridH * cellSize + 2) colorGray
  let target := gpuFillRect target (offsetX + snake.foodX * cellSize + 2)
    (offsetY + snake.foodY * cellSize + 2) (cellSize - 4) (cellSize - 4) colorRed
  let target := snake.drawCells offsetX offsetY snake.snakeLen target
  let target := gpuDrawString font target 8 4 (cString "SNAKE  Score:") colorWhite colorBlack
  (gpuDrawInt font target (8 + 14 * fontWidth) 4 snake.score colorYellow colorBlack).map
    fun target =>
      if snake.gameOver then
        let gx := gameOverX tw
        let gy := gameOverY th
        let target := gpuFillRect target (gx - 16) (gy - 8) (9 * fontWidth + 32) (fontHeight + 16)
          colorDkred
        gpuDrawString font target gx gy (cString "GAME OVER") colorWhite colorDkred
      else target

end DragoonKernel
