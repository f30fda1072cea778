import DragoonKernel.RaycasterColumns

/-!
Every ray of `cast_rays` comes to a wall. The loop takes one step towards the same two sides of
the map each time, whatever the distances that choose between them have become, and the map has
walls all around.
-/

namespace DragoonKernel

/-- The cells that the loop looks at. -/
def ddaCells (fit : Int → Option Int) (ray : Ray) : Nat → Dda → List (Int × Int)
  | 0, _ => []
  | steps + 1, dda =>
      match dda.advance fit ray with
      | none => []
      | some moved => (moved.mapX, moved.mapY) ::
          if moved.look.hit then [] else ddaCells fit ray steps moved.look

def Raycaster.rayAngle (rc : Raycaster) (scrW col : Int) : Int :=
  (rc.playerAngle - fov / 2 + col * fov / scrW) % 256

/-- The part of `cast_rays` before the loop. -/
def castStart (fit : Int → Option Int) (rc : Raycaster) (scrW col : Int) :
    Option (Ray × Dda) := do
  let rayCos := fpCos (rc.rayAngle scrW col)
  let raySin := fpSin (rc.rayAngle scrW col)
  let mapX := fpToInt rc.playerX
  let mapY := fpToInt rc.playerY
  let deltaDistX ← deltaDist fit rayCos
  let deltaDistY ← deltaDist fit raySin
  let sideDistX ← sideDist fit rc.playerX mapX rayCos deltaDistX
  let sideDistY ← sideDist fit rc.playerY mapY raySin deltaDistY
  return (⟨deltaDistX, deltaDistY, rayStep rayCos, rayStep raySin⟩,
    ⟨sideDistX, sideDistY, mapX, mapY, false, 0, 1⟩)

theorem castColumn_eq (fit : Int → Option Int) (rc : Raycaster) (scrW scrH col : Int) :
    castColumn fit rc scrW scrH col = (castStart fit rc scrW col).bind fun (ray, start) =>
      (ddaLoop fit ray 64 start).bind fun dda =>
        if dda.hit then
          (drawColumn fit rc.playerAngle (rc.rayAngle scrW col) scrH ray dda).map some
        else some none := by
  simp only [castColumn, castStart, Raycaster.rayAngle, Option.bind_eq_bind, Option.bind_assoc,
    Option.pure_def, Option.bind_some]

/-- The loop stops at a wall of the map, and has looked at no cell outside of the map before. -/
structure EndsAtWall (ray : Ray) (steps : Nat) (start final : Dda) : Prop where
  run : ddaLoop wrapped ray steps start = some final
  hit : final.hit = true
  inside : InsideMap final.mapX final.mapY
  wall : mapCell final.mapX final.mapY ≠ 0
  looks : ∀ cell ∈ ddaCells wrapped ray steps start, InsideMap cell.1 cell.2

/-- How far it is to the border in the direction of the step. -/
def toBorder (size step cell : Int) : Int := if step = 1 then size - 1 - cell else cell

theorem wrapped_of_small {value : Int} (low : -1 ≤ value) (high : value ≤ 16) :
    wrapped value = some value := by
  rw [wrapped, Option.some.injEq]
  omega

/-- The border of the map is a wall. -/
theorem free_inside {mapX mapY : Int} (free : Free mapX mapY) :
    (1 ≤ mapX ∧ mapX ≤ 14) ∧ 1 ≤ mapY ∧ mapY ≤ 14 := by
  obtain ⟨⟨left, right, top, bottom⟩, empty⟩ := free
  obtain ⟨x, rfl⟩ := Int.eq_ofNat_of_zero_le left
  obtain ⟨y, rfl⟩ := Int.eq_ofNat_of_zero_le top
  have border : ∀ x < 16, ∀ y < 16, mapCell (x : Nat) (y : Nat) = 0 →
      (1 ≤ x ∧ x ≤ 14) ∧ 1 ≤ y ∧ y ≤ 14 := by decide +kernel
  simp only [mapW, mapH] at right bottom
  have interior := border x (by omega) y (by omega) empty
  omega

/-- One step, whichever side is nearer. -/
theorem advance_wrapped {ray : Ray} {dda : Dda} (free : Free dda.mapX dda.mapY)
    (stepX : ray.stepX = 1 ∨ ray.stepX = -1) (stepY : ray.stepY = 1 ∨ ray.stepY = -1) :
    ∃ moved, dda.advance wrapped ray = some moved ∧ moved.hit = dda.hit ∧
      ((moved.mapX = dda.mapX + ray.stepX ∧ moved.mapY = dda.mapY) ∨
        (moved.mapX = dda.mapX ∧ moved.mapY = dda.mapY + ray.stepY)) := by
  obtain ⟨⟨left, right⟩, top, bottom⟩ := free_inside free
  have acrossX : wrapped (dda.mapX + ray.stepX) = some (dda.mapX + ray.stepX) :=
    wrapped_of_small (by omega) (by omega)
  have acrossY : wrapped (dda.mapY + ray.stepY) = some (dda.mapY + ray.stepY) :=
    wrapped_of_small (by omega) (by omega)
  rw [Dda.advance]
  split
  · rw [acrossX]
    exact ⟨_, rfl, rfl, .inl ⟨rfl, rfl⟩⟩
  · rw [acrossY]
    exact ⟨_, rfl, rfl, .inr ⟨rfl, rfl⟩⟩

/-- The loop has more steps than there are cells up to the borders ahead. -/
theorem ddaLoop_endsAtWall {ray : Ray} (stepX : ray.stepX = 1 ∨ ray.stepX = -1)
    (stepY : ray.stepY = 1 ∨ ray.stepY = -1) {steps : Nat} {dda : Dda}
    (free : Free dda.mapX dda.mapY) (missed : dda.hit = false)
    (enough : toBorder mapW ray.stepX dda.mapX + toBorder mapH ray.stepY dda.mapY ≤ steps) :
    ∃ final, EndsAtWall ray steps dda final := by
  induction steps generalizing dda with
  | zero =>
      have inside := free_inside free
      simp only [toBorder, mapW, mapH] at enough
      split at enough <;> split at enough <;> omega
  | succ steps ih =>
      obtain ⟨moved, moves, kept, crossed⟩ := advance_wrapped free stepX stepY
      have within := free_inside free
      have inside : InsideMap moved.mapX moved.mapY := by
        have sizes : mapW = 16 ∧ mapH = 16 := ⟨rfl, rfl⟩
        exact ⟨by omega, by omega, by omega, by omega⟩
      by_cases empty : mapCell moved.mapX moved.mapY = 0
      · have looked : moved.look = moved := look_of_free ⟨inside, empty⟩
        have missed : moved.hit = false := kept.trans missed
        have nearer : toBorder mapW ray.stepX moved.mapX + toBorder mapH ray.stepY moved.mapY ≤
            steps := by
          simp only [toBorder] at enough ⊢
          push_cast at enough
          split at enough <;> split at enough <;> omega
        obtain ⟨final, run, hit, inside', wall, looks⟩ := ih ⟨inside, empty⟩ missed nearer
        refine ⟨final, ?_, hit, inside', wall, ?_⟩
        · rw [ddaLoop, moves, Option.bind_eq_bind, Option.bind_some, looked, missed,
            if_neg Bool.false_ne_true, run]
        · simp only [ddaCells, moves, looked, missed, Bool.false_eq_true, if_false]
          exact List.forall_mem_cons.mpr ⟨inside, looks⟩
      · have looked : moved.look =
            { moved with hit := true, wallType := mapCell moved.mapX moved.mapY } := by
          rw [Dda.look, if_pos inside, if_pos empty]
        refine ⟨moved.look, ?_, ?_, ?_, ?_, ?_⟩
        · rw [ddaLoop, moves, Option.bind_eq_bind, Option.bind_some, looked, if_pos rfl]
        · rw [looked]
        · rw [looked]
          exact inside
        · rw [looked]
          exact empty
        · simp only [ddaCells, moves, looked, if_true]
          exact List.forall_mem_cons.mpr ⟨inside, fun cell none => absurd none List.not_mem_nil⟩

theorem deltaDist_wrapped (component : Int) : ∃ dist, deltaDist wrapped component = some dist := by
  rw [deltaDist]
  split <;> exact ⟨_, rfl⟩

theorem sideDist_wrapped (player cell component delta : Int) :
    ∃ dist, sideDist wrapped player cell component delta = some dist := by
  rw [sideDist]
  split <;> exact ⟨_, rfl⟩

theorem castStart_wrapped (rc : Raycaster) (scrW col : Int) :
    ∃ ray start, castStart wrapped rc scrW col = some (ray, start) ∧
      (ray.stepX = 1 ∨ ray.stepX = -1) ∧ (ray.stepY = 1 ∨ ray.stepY = -1) ∧
        start.mapX = fpToInt rc.playerX ∧ start.mapY = fpToInt rc.playerY ∧
          start.hit = false := by
  let rayCos := fpCos (rc.rayAngle scrW col)
  let raySin := fpSin (rc.rayAngle scrW col)
  obtain ⟨deltaDistX, deltaX⟩ := deltaDist_wrapped rayCos
  obtain ⟨deltaDistY, deltaY⟩ := deltaDist_wrapped raySin
  obtain ⟨sideDistX, sideX⟩ :=
    sideDist_wrapped rc.playerX (fpToInt rc.playerX) rayCos deltaDistX
  obtain ⟨sideDistY, sideY⟩ :=
    sideDist_wrapped rc.playerY (fpToInt rc.playerY) raySin deltaDistY
  refine ⟨⟨deltaDistX, deltaDistY, rayStep rayCos, rayStep raySin⟩,
    ⟨sideDistX, sideDistY, fpToInt rc.playerX, fpToInt rc.playerY, false, 0, 1⟩, ?_,
    rayStep_eq rayCos, rayStep_eq raySin, rfl, rfl, rfl⟩
  simp only [castStart, Option.bind_eq_bind]
  rw [deltaX, Option.bind_some, deltaY, Option.bind_some, sideX, Option.bind_some, sideY]
  rfl

theorem drawColumn_wrapped (playerAngle rayAngle scrH : Int) (ray : Ray) (dda : Dda) :
    ∃ column, drawColumn wrapped playerAngle rayAngle scrH ray dda = some column := by
  obtain ⟨perpDist, found⟩ : ∃ perpDist, dda.perpDist wrapped ray = some perpDist := by
    rw [Dda.perpDist]
    split <;> exact ⟨_, rfl⟩
  rw [drawColumn, found]
  exact ⟨_, rfl⟩

/-- From an empty cell every ray ends at a wall of the map, and its column is drawn. -/
theorem cast_ray_hits (rc : Raycaster) (standing : rc.Standing) (scrW scrH col : Int) :
    ∃ ray start final column, castStart wrapped rc scrW col = some (ray, start) ∧
      EndsAtWall ray 64 start final ∧
        castColumn wrapped rc scrW scrH col = some (some column) := by
  obtain ⟨ray, start, started, stepX, stepY, mapX, mapY, missed⟩ := castStart_wrapped rc scrW col
  have free : Free start.mapX start.mapY := mapX.symm ▸ mapY.symm ▸ standing
  have enough : toBorder mapW ray.stepX start.mapX + toBorder mapH ray.stepY start.mapY ≤
      (64 : Nat) := by
    have inside := free_inside free
    simp only [toBorder, mapW, mapH]
    split <;> split <;> omega
  obtain ⟨final, ends⟩ := ddaLoop_endsAtWall stepX stepY free missed enough
  obtain ⟨column, drawn⟩ := drawColumn_wrapped rc.playerAngle (rc.rayAngle scrW col) scrH ray final
  refine ⟨ray, start, final, column, started, ends, ?_⟩
  rw [castColumn_eq, started, Option.bind_some]
  dsimp only
  rw [ends.run, Option.bind_some, if_pos ends.hit, drawn, Option.map_some]

theorem cast_ray_hits_init : ∃ ray start final column,
    castStart wrapped raycasterInit 500 249 = some (ray, start) ∧ EndsAtWall ray 64 start final ∧
      castColumn wrapped raycasterInit 500 400 249 = some (some column) :=
  cast_ray_hits raycasterInit ⟨by decide, by decide⟩ 500 400 249

end DragoonKernel
