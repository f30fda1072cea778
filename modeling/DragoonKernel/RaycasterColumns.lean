import DragoonKernel.RaycasterSpec

/-!
The columns of `cast_rays` stay in the window exactly while the view is clear. In every state
that the keys lead to, the player stands in a free cell.
-/

namespace DragoonKernel

theorem fpCos_emod_sub (angle other : Int) : fpCos (angle % 256 - other) = fpCos (angle - other) := by
  rw [← fpCos_emod, Int.emod_sub_emod, fpCos_emod]

theorem far_of_le {scrH cosDiff dist : Int} (tall : scrH ≤ 480) (inView : 57022 ≤ cosDiff)
    (away : 1200 ≤ dist) : Far scrH cosDiff dist := by
  have product : 1200 * 57022 ≤ max dist 256 * cosDiff :=
    mul_le_mul (by omega) inView (by decide) (by omega)
  simp only [Far, fpOne]
  omega

theorem perCell_of_abs {component : Int} (whole : |component| = 65536) :
    perCell component = 65536 := by
  rw [perCell, whole, if_neg (by rintro rfl; cases whole)]
  decide

theorem lineDist_zero (position : Int) :
    32767 ≤ lineDist position 0 ∧ 2147483647 < lineDist position 0 + perCell 0 := by
  have ahead := @toLine_pos position 0 le_rfl
  have long : perCell 0 = 2147483647 := by decide
  have away : 32767 ≤ lineDist position 0 := by
    rw [lineDist, long]
    simp only [fpOne]
    omega
  exact ⟨away, by omega⟩

theorem rayStep_eq (component : Int) : rayStep component = 1 ∨ rayStep component = -1 := by
  rw [rayStep]
  split
  · exact .inr rfl
  · exact .inl rfl

/-- A run of free cells ends before the border of the map. -/
theorem free_run_x_short {mapX mapY component : Int} {count : Nat} (inside : InsideMap mapX mapY)
    (along : ∀ index < count, Free (mapX + ((index : Nat) + 1) * rayStep component) mapY) :
    count < 16 := by
  by_contra long
  obtain ⟨⟨left, right, -, -⟩, -⟩ := along 15 (by omega)
  obtain ⟨startLeft, startRight, -, -⟩ := inside
  simp only [mapW] at right startRight
  rcases rayStep_eq component with forth | back
  · rw [forth] at right
    omega
  · rw [back] at left
    omega

theorem free_run_y_short {mapX mapY component : Int} {count : Nat} (inside : InsideMap mapX mapY)
    (along : ∀ index < count, Free mapX (mapY + ((index : Nat) + 1) * rayStep component)) :
    count < 16 := by
  by_contra long
  obtain ⟨⟨-, -, top, bottom⟩, -⟩ := along 15 (by omega)
  obtain ⟨-, -, startTop, startBottom⟩ := inside
  simp only [mapH] at bottom startBottom
  rcases rayStep_eq component with forth | back
  · rw [forth] at bottom
    omega
  · rw [back] at top
    omega

section Ray

variable {rc : Raycaster} {scrH rayAngle : Int}

def Raycaster.RayClears (rc : Raycaster) (scrH rayAngle : Int) : Prop :=
  (rayWalk (fpCos rayAngle) (fpSin rayAngle)).Clears
    (Far scrH (fpCos (rayAngle - rc.playerAngle))) 64 (lineDist rc.playerX (fpCos rayAngle))
    (lineDist rc.playerY (fpSin rayAngle)) (fpToInt rc.playerX) (fpToInt rc.playerY)

theorem rayClears_iff_of_slanted (tall : scrH ≤ 480)
    (inView : 57022 ≤ fpCos (rayAngle - rc.playerAngle)) (slantX : fpCos rayAngle ≠ 0)
    (slantY : fpSin rayAngle ≠ 0) : rc.RayClears scrH rayAngle ↔ rc.RayClear scrH rayAngle := by
  have lineX := perCell_bounds (component_cos rayAngle)
  have lineY := perCell_bounds (component_sin rayAngle)
  have shortX := perCell_le (component_cos rayAngle) slantX
  have shortY := perCell_le (component_sin rayAngle) slantY
  have distX := lineDist_bounds rc.playerX (component_cos rayAngle)
  have distY := lineDist_bounds rc.playerY (component_sin rayAngle)
  have away : ∀ dist, 1200 ≤ dist → Far scrH (fpCos (rayAngle - rc.playerAngle)) dist :=
    fun _ => far_of_le tall inView
  have walk := @GridWalk.clears_iff_of_apart (rayWalk (fpCos rayAngle) (fpSin rayAngle)) _ _ _
    (fpToInt rc.playerX) (fpToInt rc.playerY) _ away 62
    ⟨by show 0 ≤ perCell _; omega, by show _ + _ * perCell _ ≤ 2147483647; omega⟩
    ⟨by show 0 ≤ perCell _; omega, by show _ + _ * perCell _ ≤ 2147483647; omega⟩
    (by show 1200 ≤ perCell _; omega) (by show 1200 ≤ perCell _; omega) distX.1 distY.1
  rw [Raycaster.RayClears, walk]
  constructor
  · rintro ⟨line, corner⟩
    exact ⟨line, corner, fun zero => absurd zero slantX, fun zero => absurd zero slantY⟩
  · rintro ⟨line, corner, -, -⟩
    exact ⟨line, corner⟩

theorem rayClears_iff_of_cos (tall : scrH ≤ 480)
    (inView : 57022 ≤ fpCos (rayAngle - rc.playerAngle))
    (inside : InsideMap (fpToInt rc.playerX) (fpToInt rc.playerY)) (zero : fpCos rayAngle = 0) :
    rc.RayClears scrH rayAngle ↔ rc.RayClear scrH rayAngle := by
  have whole := abs_sin_of_cos zero
  have lineY := perCell_of_abs whole
  have away : ∀ dist, 1200 ≤ dist → Far scrH (fpCos (rayAngle - rc.playerAngle)) dist :=
    fun _ => far_of_le tall inView
  obtain ⟨distant, blocked⟩ := lineDist_zero rc.playerX
  have distY := lineDist_bounds rc.playerY (component_sin rayAngle)
  have slantY : fpSin rayAngle ≠ 0 := by
    intro both
    rw [both] at whole
    cases whole
  rw [lineY] at distY
  have walk := @GridWalk.clears_iff_of_blockedX (rayWalk (fpCos rayAngle) (fpSin rayAngle))
    (Far scrH (fpCos (rayAngle - rc.playerAngle))) _ (lineDist rc.playerY (fpSin rayAngle))
    (fpToInt rc.playerX) (fpToInt rc.playerY) (zero ▸ blocked) 64
  rw [Raycaster.RayClears, walk]
  simp only [rayWalk, lineY, zero]
  constructor
  · intro ahead
    obtain ⟨⟨first, -⟩, stop⟩ := ahead 0 (by decide) fun index below =>
      absurd below (Nat.not_lt_zero _)
    simp only [Nat.cast_zero, zero_mul, add_zero, zero_add, one_mul] at first stop
    refine ⟨?_, ?_, fun _ count along => ?_, fun both => absurd both slantY⟩
    · rw [zero, min_eq_right first]
      intro wall
      rw [GridWalk.FirstStop, if_neg (not_lt.mpr first)] at wall
      exact stop wall
    · intro _ _
      rw [zero]
      exact away _ (by omega)
    · exact (ahead count (by have short := free_run_y_short inside along; omega) along).1.1
  · rintro ⟨line, corner, alongY, -⟩ count bound along
    have reached := alongY zero count along
    refine ⟨⟨reached, by omega⟩, fun wall => ?_⟩
    cases count with
    | zero =>
        simp only [Nat.cast_zero, zero_mul, add_zero, zero_add, one_mul] at reached wall ⊢
        rw [zero, min_eq_right reached] at line
        refine line ?_
        rw [GridWalk.FirstStop, if_neg (not_lt.mpr reached)]
        exact wall
    | succ count => exact away _ (by push_cast; omega)

theorem rayClears_iff_of_sin (tall : scrH ≤ 480)
    (inView : 57022 ≤ fpCos (rayAngle - rc.playerAngle))
    (inside : InsideMap (fpToInt rc.playerX) (fpToInt rc.playerY)) (zero : fpSin rayAngle = 0) :
    rc.RayClears scrH rayAngle ↔ rc.RayClear scrH rayAngle := by
  have whole := abs_cos_of_sin zero
  have lineX := perCell_of_abs whole
  have away : ∀ dist, 1200 ≤ dist → Far scrH (fpCos (rayAngle - rc.playerAngle)) dist :=
    fun _ => far_of_le tall inView
  obtain ⟨distant, blocked⟩ := lineDist_zero rc.playerY
  have distX := lineDist_bounds rc.playerX (component_cos rayAngle)
  have slantX : fpCos rayAngle ≠ 0 := by
    intro both
    rw [both] at whole
    cases whole
  rw [lineX] at distX
  have walk := @GridWalk.clears_iff_of_blockedY (rayWalk (fpCos rayAngle) (fpSin rayAngle))
    (Far scrH (fpCos (rayAngle - rc.playerAngle))) (lineDist rc.playerX (fpCos rayAngle)) _
    (fpToInt rc.playerX) (fpToInt rc.playerY) (zero ▸ blocked) 64
  rw [Raycaster.RayClears, walk]
  simp only [rayWalk, lineX, zero]
  constructor
  · intro ahead
    obtain ⟨⟨first, -⟩, stop⟩ := ahead 0 (by decide) fun index below =>
      absurd below (Nat.not_lt_zero _)
    simp only [Nat.cast_zero, zero_mul, add_zero, zero_add, one_mul] at first stop
    refine ⟨?_, ?_, fun both => absurd both slantX, fun _ count along => ?_⟩
    · rw [zero, min_eq_left first.le]
      intro wall
      rw [GridWalk.FirstStop, if_pos first] at wall
      exact stop wall
    · intro _ _
      rw [zero]
      exact away _ (by omega)
    · exact (ahead count (by have short := free_run_x_short inside along; omega) along).1.1
  · rintro ⟨line, corner, -, alongX⟩ count bound along
    have reached := alongX zero count along
    refine ⟨⟨reached, by omega⟩, fun wall => ?_⟩
    cases count with
    | zero =>
        simp only [Nat.cast_zero, zero_mul, add_zero, zero_add, one_mul] at reached wall ⊢
        rw [zero, min_eq_left reached.le] at line
        refine line ?_
        rw [GridWalk.FirstStop, if_pos reached]
        exact wall
    | succ count => exact away _ (by push_cast; omega)

theorem rayClears_iff (tall : scrH ≤ 480) (inView : 57022 ≤ fpCos (rayAngle - rc.playerAngle))
    (inside : InsideMap (fpToInt rc.playerX) (fpToInt rc.playerY)) :
    rc.RayClears scrH rayAngle ↔ rc.RayClear scrH rayAngle := by
  by_cases slantX : fpCos rayAngle = 0
  · exact rayClears_iff_of_cos tall inView inside slantX
  by_cases slantY : fpSin rayAngle = 0
  · exact rayClears_iff_of_sin tall inView inside slantY
  exact rayClears_iff_of_slanted tall inView slantX slantY

end Ray

theorem drawn_iff_loopEnds {ray : Ray} {draw : Dda → Option WallColumn} {good : WallColumn → Prop}
    {steps : Nat} {dda : Dda} :
    (∃ drawn, ((ddaLoop checked ray steps dda).bind fun final =>
        if final.hit = true then Option.map some (draw final) else some none) = some drawn ∧
      ∀ column ∈ drawn, good column) ↔
      LoopEnds ray (fun final => ∃ column, draw final = some column ∧ good column) steps dda := by
  rw [LoopEnds]
  cases ddaLoop checked ray steps dda with
  | none => simp
  | some final =>
      by_cases hit : final.hit = true
      · cases drawn : draw final <;> simp [hit, drawn]
      · simp [hit]

theorem view_bounds {scrW col : Int} (low : 0 ≤ col) (high : col < scrW) :
    0 ≤ col * fov / scrW ∧ col * fov / scrW < 42 := by
  simp only [fov]
  exact ⟨Int.ediv_nonneg (by omega) (by omega), Int.ediv_lt_of_lt_mul (by omega) (by omega)⟩

theorem ray_inView (playerAngle : Int) {scrW col : Int} (low : 0 ≤ col) (high : col < scrW) :
    57022 ≤ fpCos (playerAngle - fov / 2 + col * fov / scrW - playerAngle) := by
  obtain ⟨first, last⟩ := view_bounds low high
  have half : fov / 2 = 21 := by decide
  exact fpCos_in_view (by omega) (by omega)

/-- A column is computed without overflow and drawn in the window when its ray is clear, and
only then. -/
theorem castColumn_iff {rc : Raycaster} (standing : rc.Standing) {scrW scrH col : Int}
    (short : 400 ≤ scrH) (tall : scrH ≤ 480) (low : 0 ≤ col) (high : col < scrW) :
    (∃ drawn, castColumn checked rc scrW scrH col = some drawn ∧
      ∀ column ∈ drawn, column.InWindow scrH) ↔
      rc.RayClear scrH (rc.playerAngle - fov / 2 + col * fov / scrW) := by
  have inView := ray_inView rc.playerAngle low high
  obtain ⟨rayAngle, named⟩ : ∃ rayAngle,
      rc.playerAngle - fov / 2 + col * fov / scrW = rayAngle := ⟨_, rfl⟩
  rw [named] at inView ⊢
  have inside := standing.1
  obtain ⟨left, right, top, bottom⟩ := standing.1
  simp only [mapW, mapH, fpToInt, fpOne] at left right top bottom
  have tableX := component_cos rayAngle
  have tableY := component_sin rayAngle
  simp only [castColumn, named, fpCos_emod, fpSin_emod, deltaDist_eq tableX, deltaDist_eq tableY,
    sideDist_eq tableX (show 0 ≤ rc.playerX by omega) (by omega),
    sideDist_eq tableY (show 0 ≤ rc.playerY by omega) (by omega), Option.bind_eq_bind,
    Option.bind_some]
  have distX := lineDist_bounds rc.playerX tableX
  have distY := lineDist_bounds rc.playerY tableY
  rw [drawn_iff_loopEnds, ← rayClears_iff tall inView inside, Raycaster.RayClears]
  refine loopEnds_iff_clears tableX tableY (fun dda nonneg fits => ?_)
    ⟨rfl, inside, distX.1, distX.2.trans (perCell_bounds tableX).2, distY.1,
      distY.2.trans (perCell_bounds tableY).2⟩
  rw [← fpCos_emod_sub] at inView ⊢
  exact drawColumn_iff short tall inView nonneg fits

theorem castsInWindow_iff_viewClear {rc : Raycaster} (standing : rc.Standing)
    (target : RenderTarget) : rc.CastsInWindow target ↔ rc.ViewClear target := by
  have short : 400 ≤ target.h := by cases target <;> decide
  have tall : target.h ≤ 480 := by cases target <;> decide
  exact forall_congr' fun col => forall_congr' fun low => forall_congr' fun high =>
    castColumn_iff standing short tall low high

/-- The player is not close to any grid line. -/
structure Raycaster.Centered (rc : Raycaster) : Prop where
  left : 1200 ≤ rc.playerX % fpOne
  right : rc.playerX % fpOne ≤ fpOne - 1200
  top : 1200 ≤ rc.playerY % fpOne
  bottom : rc.playerY % fpOne ≤ fpOne - 1200

theorem le_lineDist_of_toLine {position : Int} {component : Int} (table : Component component)
    (away : 1200 ≤ toLine position component) : 1200 ≤ lineDist position component := by
  have long := (perCell_bounds table).1
  refine (Int.le_ediv_iff_mul_le (by decide)).mpr ?_
  exact mul_le_mul away long (by decide) (by omega)

/-- Along an axis, the other grid line of a centered player counts as farther than the map. -/
theorem lineDist_lt_of_centered {position other component : Int} {count : Nat}
    (whole : |component| = 65536) (away : 1200 ≤ toLine other 0) (short : count < 16) :
    lineDist position component + count * fpOne < lineDist other 0 := by
  have table : Component component := ⟨(abs_le.mp whole.le).1, (abs_le.mp whole.le).2, by omega⟩
  have dist := (lineDist_bounds position table).2
  have long : perCell 0 = 2147483647 := by decide
  rw [perCell_of_abs whole] at dist
  rw [lineDist.eq_def other, long]
  simp only [fpOne]
  omega

theorem Raycaster.Centered.viewClear {rc : Raycaster} (centered : rc.Centered)
    (standing : rc.Standing) (target : RenderTarget) : rc.ViewClear target := by
  intro col low high
  have tall : target.h ≤ 480 := by cases target <;> decide
  have inView := ray_inView rc.playerAngle low high
  obtain ⟨rayAngle, named⟩ : ∃ rayAngle,
      rc.playerAngle - fov / 2 + col * fov / target.w = rayAngle := ⟨_, rfl⟩
  rw [named] at inView ⊢
  have awayX : ∀ component, 1200 ≤ toLine rc.playerX component := by
    intro component
    obtain ⟨left, right, -, -⟩ := centered
    rw [toLine]
    split <;> omega
  have awayY : ∀ component, 1200 ≤ toLine rc.playerY component := by
    intro component
    obtain ⟨-, -, top, bottom⟩ := centered
    rw [toLine]
    split <;> omega
  have distX := le_lineDist_of_toLine (component_cos rayAngle) (awayX _)
  have distY := le_lineDist_of_toLine (component_sin rayAngle) (awayY _)
  refine ⟨fun _ => far_of_le tall inView (by omega), fun _ _ => far_of_le tall inView (by omega),
    fun zero count along => ?_, fun zero count along => ?_⟩
  · have short := free_run_y_short standing.1 along
    exact (lineDist_lt_of_centered (abs_sin_of_cos zero) (awayX 0) short).le
  · have short := free_run_x_short standing.1 along
    exact lineDist_lt_of_centered (abs_cos_of_sin zero) (awayY 0) short

theorem raycasterInit_standing : raycasterInit.Standing := by
  show Free _ _
  decide

theorem moveTo_standing {rc : Raycaster} (standing : rc.Standing) (nx ny : Int) :
    (rc.moveTo nx ny).Standing := by
  rw [Raycaster.moveTo]
  split
  next free => exact free
  next => exact standing

theorem raycasterKey_standing {rc : Raycaster} (standing : rc.Standing) (key : Int) :
    (raycasterKey rc key).Standing := by
  have turned : ∀ (turn : Prop) [Decidable turn] (rc : Raycaster) (angle : Int), rc.Standing →
      (if turn then { rc with playerAngle := angle } else rc).Standing := by
    intro turn _ rc angle standing
    split <;> exact standing
  have moved : ∀ (move : Prop) [Decidable move] (rc : Raycaster) (nx ny : Int), rc.Standing →
      (if move then rc.moveTo nx ny else rc).Standing := by
    intro move _ rc nx ny standing
    split
    · exact moveTo_standing standing nx ny
    · exact standing
  exact moved _ _ _ _ (moved _ _ _ _ (turned _ _ _ (turned _ _ _ standing)))

open Transition in
/-- Of the states that keys lead to, those with a clear view, and only those, are drawn without
overflow and inside the window. -/
theorem raycaster_castsInWindow (keys : List Int) (target : RenderTarget) :
    EveryState Raycaster.step (fun rc => rc.CastsInWindow target ↔ rc.ViewClear target)
      raycasterInit keys := by
  have standing : EveryState Raycaster.step Raycaster.Standing raycasterInit keys := by
    refine everyState_of_invariant (fun rc key next standing stepped => ?_)
      raycasterInit_standing keys
    cases stepped
    exact raycasterKey_standing standing key
  exact standing.mono fun rc standing => castsInWindow_iff_viewClear standing target

/-- Turned by three quarters and walked up to the wall, the player sees it at no distance: the
height overflows, and the sky drawn above what is left of it goes on below the window. -/
theorem raycaster_wallAhead :
    ¬Transition.EveryState Raycaster.step (fun rc => rc.CastsInWindow .fullScreen) raycasterInit
        (List.replicate 64 131 ++ List.replicate 12 128) ∧
      ∃ column, castColumn wrapped ⟨163840, 65536, 192, 8192, 3⟩ 640 480 320 = some (some column) ∧
        (4335, colorDkgray) ∈ column.writes 480 := by
  refine ⟨fun all => ?_, ⟨4336, -3856, 0x7F7F7F⟩, by decide +kernel, ?_⟩
  · have run : Transition.exec Raycaster.step raycasterInit
        (List.replicate 64 131 ++ List.replicate 12 128) =
        some ⟨163840, 65536, 192, 8192, 3⟩ := by decide +kernel
    obtain ⟨drawn, fits, -⟩ := all.last run 320 (by decide) (by decide)
    have overflows : castColumn checked ⟨163840, 65536, 192, 8192, 3⟩ 640 480 320 = none := by
      decide +kernel
    cases overflows.symm.trans fits
  · rw [WallColumn.writes, List.mem_append, List.mem_append]
    exact .inl (.inl (List.mem_map_of_mem (mem_rows.mpr (by decide))))

end DragoonKernel
