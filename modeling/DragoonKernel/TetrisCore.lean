import DragoonKernel.Library.Grid
import DragoonKernel.VirtioKbdCore

/-!
Executable model of `games/tetris.c`. A call fails when it writes outside of the board, when it
looks up a score that is not there, or when a loop is not through after the given number of turns.
-/

namespace DragoonKernel

def boardW : Nat := 10

def boardH : Nat := 20

abbrev Board := Grid boardH boardW (BitVec 8)

def pieces : List (List (BitVec 16)) := [
  [0x0F00, 0x2222, 0x00F0, 0x4444],
  [0x6600, 0x6600, 0x6600, 0x6600],
  [0x0E40, 0x4C40, 0x4E00, 0x4640],
  [0x06C0, 0x8C40, 0x6C00, 0x4620],
  [0x0C60, 0x4C80, 0xC600, 0x2640],
  [0x0E80, 0xC440, 0x2E00, 0x44C0],
  [0x0E20, 0x44C0, 0x8E00, 0xC440]]

/-- Cyan, yellow, magenta, green, red, blue and orange. -/
def pieceColors : List (BitVec 32) :=
  [0x0000FFFF, 0x00FFFF00, 0x00FF00FF, 0x0000FF00, 0x00FF0000, 0x000000FF, 0x00FF8000]

def lineScores : List (BitVec 32) := [0, 100, 300, 500, 800]

def rngStep (rngState : BitVec 32) : BitVec 32 := rngState * 1103515245 + 12345

def rngPiece (rngState : BitVec 32) : Nat × BitVec 32 :=
  (((rngStep rngState) >>> 16).toNat % 7, rngStep rngState)

def pieceBit (piece rot r c : Nat) : Bool :=
  let mask := (pieces.getD piece []).getD rot 0
  mask.getLsbD (15 - (r * 4 + c))

/-- Whether a cell of a piece may stand here. Above the board only the side walls count. -/
def Board.free (board : Board) (x y : Int) : Bool :=
  if x < 0 ∨ x ≥ boardW ∨ y ≥ boardH then false
  else !(y ≥ 0 && board.cell y.toNat x.toNat != 0)

def Board.fits (board : Board) (piece rot : Nat) (px py : Int) : Bool :=
  (List.range 4).all fun r => (List.range 4).all fun c =>
    !pieceBit piece rot r c || board.free (px + c) (py + r)

def lockCell (curPiece curRot : Nat) (curX curY : Int) (r c : Nat) (board : Board) :
    Option Board :=
  if pieceBit curPiece curRot r c then
    let bx := curX + c
    let row := curY + r
    if row ≥ 0 ∧ row < boardH ∧ bx ≥ 0 ∧ bx < boardW then
      board.store row.toNat bx.toNat (BitVec.ofNat 8 (curPiece + 1))
    else some board
  else some board

def Board.lockPiece (board : Board) (curPiece curRot : Nat) (curX curY : Int) : Option Board :=
  loopUp (fun r => loopUp (lockCell curPiece curRot curX curY r) 4) 4 board

def Board.rowFull (board : Board) (r : Nat) : Bool :=
  (List.range boardW).all fun c => board.cell r c != 0

/-- The outer loop of `clear_lines` from the row below the given number of rows. A full row is
looked at again after the rows above it have moved down. -/
def clearFrom : Nat → Nat → Board → Nat → Option (Board × Nat)
  | 0, _, _, _ => none
  | _ + 1, 0, board, cleared => some (board, cleared)
  | turns + 1, r + 1, board, cleared =>
      if board.rowFull r then do
        let board ← (board.shiftDown r).bind (Grid.fillRow 0 0)
        clearFrom turns (r + 1) board (cleared + 1)
      else clearFrom turns r board cleared

def clearTurns : Nat := boardH + boardH + 1

def Board.clearLines (board : Board) : Option (Board × Nat) := clearFrom clearTurns boardH board 0

structure Tetris where
  rngState : BitVec 32
  board : Board
  curPiece : Nat
  curRot : Nat
  curX : Int
  curY : Int
  nextPiece : Nat
  score : BitVec 32
  level : BitVec 32
  lines : BitVec 32
  gameOver : Bool
  lastDrop : BitVec 64
  dropInterval : BitVec 32

def Tetris.spawnPiece (game : Tetris) : Tetris :=
  let (nextPiece, rngState) := rngPiece game.rngState
  let game := { game with
    rngState, curPiece := game.nextPiece, nextPiece, curRot := 0, curX := boardW / 2 - 2
    curY := -1 }
  if !game.board.fits game.curPiece game.curRot game.curX game.curY then
    { game with gameOver := true }
  else game

/-- `seed` and `now` are the two readings of the timer. -/
def Tetris.init (game : Tetris) (seed now : BitVec 64) : Option Tetris := do
  let board ← loopUp (Grid.fillRow 0) boardH game.board
  let (nextPiece, rngState) := rngPiece (seed.setWidth 32)
  let game := Tetris.spawnPiece { game with
    rngState, board, nextPiece, score := 0, level := 1, lines := 0, gameOver := false
    dropInterval := 50 }
  return { game with lastDrop := now }

def dropTurns : Nat := boardH + 2

/-- The loop of `KEY_SPACE`. -/
def Board.hardDrop (board : Board) (piece rot : Nat) (x : Int) : Nat → Int → Option Int
  | 0, _ => none
  | turns + 1, y =>
      if board.fits piece rot x (y + 1) then board.hardDrop piece rot x turns (y + 1)
      else some y

def Tetris.key (game : Tetris) (key : Int) : Option Tetris :=
  let { board, curPiece, curRot, curX, curY, .. } := game
  if game.gameOver then some game
  else if key = keyLeft ∧ board.fits curPiece curRot (curX - 1) curY then
    some { game with curX := curX - 1 }
  else if key = keyRight ∧ board.fits curPiece curRot (curX + 1) curY then
    some { game with curX := curX + 1 }
  else if key = keyDown ∧ board.fits curPiece curRot curX (curY + 1) then
    some { game with curY := curY + 1 }
  else if key = keyUp then
    let newRot := (curRot + 1) % 4
    if board.fits curPiece newRot curX curY then some { game with curRot := newRot }
    else some game
  else if key = keySpace then do
    let curY ← board.hardDrop curPiece curRot curX dropTurns curY
    return { game with curY }
  else some game

/-- What `tetris_tick` does with the score when it has cleared lines. -/
def Tetris.addLines (game : Tetris) (cl : Nat) : Option Tetris :=
  if cl > 0 then do
    let points ← lineScores[cl]?
    let lines := game.lines + BitVec.ofNat 32 cl
    let level := 1 + lines.sdiv 10
    let interval := 50 - (level - 1) * 4
    return { game with
      score := game.score + points * game.level, lines, level
      dropInterval := if interval.slt 8 then 8 else interval }
  else some game

def Tetris.tick (game : Tetris) (now : BitVec 64) : Option (Tetris × Int) :=
  if game.gameOver then some (game, 0)
  else if ((now - game.lastDrop).setWidth 32).slt game.dropInterval then some (game, 0)
  else
    let game := { game with lastDrop := now }
    let { board, curPiece, curRot, curX, curY, .. } := game
    if board.fits curPiece curRot curX (curY + 1) then
      some ({ game with curY := curY + 1 }, 1)
    else do
      let locked ← board.lockPiece curPiece curRot curX curY
      let (board, cl) ← locked.clearLines
      let game ← Tetris.addLines { game with board } cl
      return (game.spawnPiece, 1)

inductive TetrisCall where
  | key (key : Int)
  | tick (now : BitVec 64)

def Tetris.step (game : Tetris) : TetrisCall → Option Tetris
  | .key key => game.key key
  | .tick now => do
      let (game, _) ← game.tick now
      return game

end DragoonKernel
