import Mathlib.Data.List.Range

/-!
Executable model of `games/raycaster.c`. Arithmetic is on the integers, and `fit` says what
becomes of a value that an `int` is to hold: `checked` has no result outside its range, and
`wrapped` keeps the low 32 bits.
-/

namespace DragoonKernel

def checked (value : Int) : Option Int :=
  if -2147483648 ≤ value ∧ value ≤ 2147483647 then some value else none

def wrapped (value : Int) : Option Int :=
  some ((value + 2147483648) % 4294967296 - 2147483648)

def fpOne : Int := 65536
def fpHalf : Int := fpOne / 2
def fpMul (a b : Int) : Int := a * b / fpOne
def fpDiv (a b : Int) : Int := (a * fpOne).tdiv b
def fpToInt (a : Int) : Int := a / fpOne
def intToFp (a : Int) : Int := a * fpOne
def fpAbs (x : Int) : Int := if x < 0 then -x else x

def sinTable : List Int := [
  0, 1608, 3216, 4821, 6424, 8022, 9616, 11204, 12785, 14359, 15924, 17479, 19024, 20557, 22078,
  23586, 25080, 26558, 28020, 29466, 30893, 32303, 33692, 35062, 36410, 37736, 39040, 40320,
  41576, 42806, 44011, 45190, 46341, 47464, 48559, 49624, 50660, 51665, 52639, 53581, 54491,
  55368, 56212, 57022, 57798, 58538, 59244, 59914, 60547, 61145, 61705, 62228, 62714, 63162,
  63572, 63944, 64277, 64571, 64827, 65043, 65220, 65358, 65457, 65516, 65536, 65516, 65457,
  65358, 65220, 65043, 64827, 64571, 64277, 63944, 63572, 63162, 62714, 62228, 61705, 61145,
  60547, 59914, 59244, 58538, 57798, 57022, 56212, 55368, 54491, 53581, 52639, 51665, 50660,
  49624, 48559, 47464, 46341, 45190, 44011, 42806, 41576, 40320, 39040, 37736, 36410, 35062,
  33692, 32303, 30893, 29466, 28020, 26558, 25080, 23586, 22078, 20557, 19024, 17479, 15924,
  14359, 12785, 11204, 9616, 8022, 6424, 4821, 3216, 1608, 0, -1608, -3216, -4821, -6424, -8022,
  -9616, -11204, -12785, -14359, -15924, -17479, -19024, -20557, -22078, -23586, -25080, -26558,
  -28020, -29466, -30893, -32303, -33692, -35062, -36410, -37736, -39040, -40320, -41576, -42806,
  -44011, -45190, -46341, -47464, -48559, -49624, -50660, -51665, -52639, -53581, -54491, -55368,
  -56212, -57022, -57798, -58538, -59244, -59914, -60547, -61145, -61705, -62228, -62714, -63162,
  -63572, -63944, -64277, -64571, -64827, -65043, -65220, -65358, -65457, -65516, -65536, -65516,
  -65457, -65358, -65220, -65043, -64827, -64571, -64277, -63944, -63572, -63162, -62714, -62228,
  -61705, -61145, -60547, -59914, -59244, -58538, -57798, -57022, -56212, -55368, -54491, -53581,
  -52639, -51665, -50660, -49624, -48559, -47464, -46341, -45190, -44011, -42806, -41576, -40320,
  -39040, -37736, -36410, -35062, -33692, -32303, -30893, -29466, -28020, -26558, -25080, -23586,
  -22078, -20557, -19024, -17479, -15924, -14359, -12785, -11204, -9616, -8022, -6424, -4821,
  -3216, -1608]

def fpSin (angle : Int) : Int := sinTable.getD (angle % 256).toNat 0
def fpCos (angle : Int) : Int := sinTable.getD ((angle + 64) % 256).toNat 0

def mapW : Int := 16
def mapH : Int := 16

def worldMap : List (List Nat) := [
  [1, 1, 1, 1, 1, 1, 1, 1, 1, 1, 1, 1, 1, 1, 1, 1],
  [1, 0, 0, 0, 0, 0, 0, 0, 0, 0, 0, 0, 0, 0, 0, 1],
  [1, 0, 0, 0, 0, 0, 0, 0, 0, 0, 0, 0, 0, 0, 0, 1],
  [1, 0, 0, 2, 2, 0, 0, 0, 0, 0, 3, 3, 3, 0, 0, 1],
  [1, 0, 0, 2, 0, 0, 0, 0, 0, 0, 0, 0, 3, 0, 0, 1],
  [1, 0, 0, 0, 0, 0, 0, 0, 0, 0, 0, 0, 0, 0, 0, 1],
  [1, 0, 0, 0, 0, 0, 4, 4, 4, 0, 0, 0, 0, 0, 0, 1],
  [1, 0, 0, 0, 0, 0, 4, 0, 4, 0, 0, 0, 0, 0, 0, 1],
  [1, 0, 0, 0, 0, 0, 4, 0, 4, 0, 0, 0, 0, 0, 0, 1],
  [1, 0, 0, 0, 0, 0, 4, 4, 4, 0, 0, 0, 0, 0, 0, 1],
  [1, 0, 0, 0, 0, 0, 0, 0, 0, 0, 0, 0, 0, 0, 0, 1],
  [1, 0, 0, 2, 0, 0, 0, 0, 0, 0, 0, 3, 0, 0, 0, 1],
  [1, 0, 0, 2, 2, 0, 0, 0, 0, 0, 3, 3, 0, 0, 0, 1],
  [1, 0, 0, 0, 0, 0, 0, 0, 0, 0, 0, 0, 0, 0, 0, 1],
  [1, 0, 0, 0, 0, 0, 0, 0, 0, 0, 0, 0, 0, 0, 0, 1],
  [1, 1, 1, 1, 1, 1, 1, 1, 1, 1, 1, 1, 1, 1, 1, 1]]

def mapCell (mapX mapY : Int) : Nat := (worldMap.getD mapY.toNat []).getD mapX.toNat 0

structure InsideMap (mapX mapY : Int) : Prop where
  left : 0 ≤ mapX
  right : mapX < mapW
  top : 0 ≤ mapY
  bottom : mapY < mapH

instance (mapX mapY : Int) : Decidable (InsideMap mapX mapY) :=
  decidable_of_iff (0 ≤ mapX ∧ mapX < mapW ∧ 0 ≤ mapY ∧ mapY < mapH)
    ⟨fun ⟨left, right, top, bottom⟩ => ⟨left, right, top, bottom⟩,
      fun ⟨left, right, top, bottom⟩ => ⟨left, right, top, bottom⟩⟩

def colorDkgray : BitVec 32 := 0x00404040
def colorDkgreen : BitVec 32 := 0x00008000

def wallColors : List (BitVec 32) := [0x00808080, 0x00FFFFFF, 0x00FF0000, 0x000000FF, 0x0000FF00]

structure Raycaster where
  playerX : Int
  playerY : Int
  playerAngle : Int
  moveSpeed : Int
  rotSpeed : Int
  deriving DecidableEq

def raycasterInit : Raycaster where
  playerX := intToFp 2 + fpHalf
  playerY := intToFp 2 + fpHalf
  playerAngle := 0
  moveSpeed := fpOne / 8
  rotSpeed := 3

def Raycaster.moveTo (rc : Raycaster) (nx ny : Int) : Raycaster :=
  if InsideMap (fpToInt nx) (fpToInt ny) ∧ mapCell (fpToInt nx) (fpToInt ny) = 0 then
    { rc with playerX := nx, playerY := ny }
  else rc

/-- The arrow keys are 128 to 131, the others are ASCII. -/
def raycasterKey (rc : Raycaster) (key : Int) : Raycaster :=
  let rc := if key = 130 ∨ key = 97 ∨ key = 65 then
    { rc with playerAngle := (rc.playerAngle - rc.rotSpeed) % 256 } else rc
  let rc := if key = 131 ∨ key = 100 ∨ key = 68 then
    { rc with playerAngle := (rc.playerAngle + rc.rotSpeed) % 256 } else rc
  let dx := fpMul (fpCos rc.playerAngle) rc.moveSpeed
  let dy := fpMul (fpSin rc.playerAngle) rc.moveSpeed
  let rc := if key = 128 ∨ key = 119 ∨ key = 87 then
    rc.moveTo (rc.playerX + dx) (rc.playerY + dy) else rc
  if key = 129 ∨ key = 115 ∨ key = 83 then rc.moveTo (rc.playerX - dx) (rc.playerY - dy) else rc

def Raycaster.step (rc : Raycaster) (key : Int) : Option Raycaster := some (raycasterKey rc key)

/-- The variables of the loop of `cast_rays`. `side` is 1 after a step in y. -/
structure Dda where
  sideDistX : Int
  sideDistY : Int
  mapX : Int
  mapY : Int
  hit : Bool
  side : Nat
  wallType : Nat

structure Ray where
  deltaDistX : Int
  deltaDistY : Int
  stepX : Int
  stepY : Int

section Cast

variable (fit : Int → Option Int)

def deltaDist (component : Int) : Option Int :=
  if component ≠ 0 then do
    let quotient ← fit (fpDiv fpOne component)
    fit (fpAbs quotient)
  else some 0x7FFFFFFF

def rayStep (component : Int) : Int := if component < 0 then -1 else 1

def sideDist (player cell component delta : Int) : Option Int :=
  if component < 0 then do
    let line ← fit (intToFp cell)
    let rest ← fit (player - line)
    fit (fpMul rest delta)
  else do
    let line ← fit (intToFp (cell + 1))
    let rest ← fit (line - player)
    fit (fpMul rest delta)

def Dda.advance (ray : Ray) (dda : Dda) : Option Dda :=
  if dda.sideDistX < dda.sideDistY then do
    let sideDistX ← fit (dda.sideDistX + ray.deltaDistX)
    let mapX ← fit (dda.mapX + ray.stepX)
    some { dda with sideDistX := sideDistX, mapX := mapX, side := 0 }
  else do
    let sideDistY ← fit (dda.sideDistY + ray.deltaDistY)
    let mapY ← fit (dda.mapY + ray.stepY)
    some { dda with sideDistY := sideDistY, mapY := mapY, side := 1 }

/-- The test of the cell, and whether the loop goes on. -/
def Dda.look (dda : Dda) : Dda :=
  if InsideMap dda.mapX dda.mapY then
    if mapCell dda.mapX dda.mapY ≠ 0 then
      { dda with hit := true, wallType := mapCell dda.mapX dda.mapY }
    else dda
  else { dda with hit := true }

def ddaLoop (ray : Ray) : Nat → Dda → Option Dda
  | 0, dda => some dda
  | steps + 1, dda => do
      let moved ← dda.advance fit ray
      if moved.look.hit then some moved.look else ddaLoop ray steps moved.look

structure WallColumn where
  drawStart : Int
  drawEnd : Int
  color : BitVec 32
  deriving DecidableEq

def clampDist (perpDist : Int) : Int := if perpDist < 256 then 256 else perpDist

def Dda.perpDist (ray : Ray) (dda : Dda) : Option Int :=
  if dda.side = 0 then fit (dda.sideDistX - ray.deltaDistX)
  else fit (dda.sideDistY - ray.deltaDistY)

/-- The part of `cast_rays` behind the loop, for a ray that has hit. -/
def drawColumn (playerAngle rayAngle scrH : Int) (ray : Ray) (dda : Dda) : Option WallColumn := do
  let perpDist ← dda.perpDist fit ray
  let cosDiff := fpCos ((rayAngle - playerAngle) % 256)
  let cosDiff := if cosDiff = 0 then 1 else cosDiff
  let perpDist ← fit (fpMul (clampDist perpDist) cosDiff)
  let height ← fit (intToFp scrH)
  let quotient ← fit (fpDiv height (clampDist perpDist))
  let lineHeight := if fpToInt quotient > scrH then scrH else fpToInt quotient
  let rest ← fit (scrH - lineHeight)
  let drawEnd ← fit (rest.tdiv 2 + lineHeight)
  let color := wallColors.getD (if dda.wallType < 5 then dda.wallType else 0) 0
  some {
    drawStart := rest.tdiv 2
    drawEnd := drawEnd
    color := if dda.side = 0 then color else color >>> 1 &&& 0x7F7F7F }

def fov : Int := 42

/-- One column of `cast_rays`. A ray that hits nothing draws nothing. -/
def castColumn (rc : Raycaster) (scrW scrH col : Int) : Option (Option WallColumn) := do
  let rayAngle := (rc.playerAngle - fov / 2 + col * fov / scrW) % 256
  let rayCos := fpCos rayAngle
  let raySin := fpSin rayAngle
  let mapX := fpToInt rc.playerX
  let mapY := fpToInt rc.playerY
  let deltaDistX ← deltaDist fit rayCos
  let deltaDistY ← deltaDist fit raySin
  let sideDistX ← sideDist fit rc.playerX mapX rayCos deltaDistX
  let sideDistY ← sideDist fit rc.playerY mapY raySin deltaDistY
  let ray : Ray := ⟨deltaDistX, deltaDistY, rayStep rayCos, rayStep raySin⟩
  let dda ← ddaLoop fit ray 64 ⟨sideDistX, sideDistY, mapX, mapY, false, 0, 1⟩
  if dda.hit then (drawColumn fit rc.playerAngle rayAngle scrH ray dda).map some else some none

end Cast

def rows (start stop : Int) : List Int :=
  (List.range (stop - start).toNat).map fun (i : Nat) => start + i

/-- The writes to the column, each with its row. -/
def WallColumn.writes (column : WallColumn) (scrH : Int) : List (Int × BitVec 32) :=
  (rows 0 column.drawStart).map (fun y => (y, colorDkgray)) ++
    ((rows column.drawStart column.drawEnd).filter fun y => y < scrH ∧ 0 ≤ y).map
      (fun y => (y, column.color)) ++
    (rows column.drawEnd scrH).map fun y => (y, colorDkgreen)

/-- The window of the game and the full screen. -/
inductive RenderTarget where
  | window
  | fullScreen

def RenderTarget.w : RenderTarget → Int
  | .window => 500
  | .fullScreen => 640

def RenderTarget.h : RenderTarget → Int
  | .window => 400
  | .fullScreen => 480

end DragoonKernel
