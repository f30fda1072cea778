import DragoonKernel.WmDrawCore
import DragoonKernel.GpuSpec
import DragoonKernel.WmStacking

/-!
What is clicked is what is seen: above the taskbar, a press goes to the window that drew the
pixel last.
-/

namespace DragoonKernel

/-- The sizes for which `draw_window` stays inside the outer rectangle. -/
structure WmWindow.Sized (win : WmWindow) : Prop where
  contentW : 16 ≤ win.contentW
  contentH : 1 ≤ win.contentH
  title : 4 + 8 * (win.title.length : Int) ≤ win.w

/-- Who draws the pixel last in `wm_composite`. -/
def Wm.lastPainter (wm : Wm) (font : Font) (pixels : Nat → Int → BitVec 32) (buf : Int → Painter)
    (px py : Int) : Painter :=
  (wmComposite font (fun painter _ => painter) pixels wm (fbTarget buf)).pixel px py

structure Wm.LeftPress (wm : Wm) (buttons : BitVec 32) : Prop where
  down : buttons &&& mouseBtnLeft ≠ 0
  up : wm.prevButtons &&& mouseBtnLeft = 0
  undragged : ∀ id < wmMaxWindows, (wm.windows id).dragging = false

/-- The press is a click into the window, closes it or starts to drag it. -/
def Wm.Takes (wm : Wm) (mx my : Int) (buttons : BitVec 32) (id : Nat) : Prop :=
  (wm.wmHandleMouse mx my buttons).2 = id ∨
    (wm.wmHandleMouse mx my buttons).2 = -((id : Int) + 100) ∨
      ((wm.wmHandleMouse mx my buttons).1.windows id).dragging = true

def FillRect.Contains (rect : FillRect) (px py : Int) : Prop :=
  InRect rect.x rect.y rect.w rect.h px py

/-- Drawing and hit test agree at the point. -/
structure Wm.Agrees (wm : Wm) (painter : Painter) (px py : Int) (buttons : BitVec 32) : Prop where
  taken : ∀ id < wmMaxWindows, painter = .window id ↔ wm.Takes px py buttons id
  missed : (∀ id < wmMaxWindows, painter ≠ .window id) ↔
    wm.wmHandleMouse px py buttons = ({ wm with prevButtons := buttons }, -1)
  closed : ∀ id < wmMaxWindows, (wm.wmHandleMouse px py buttons).2 = -((id : Int) + 100) ↔
    wm.Takes px py buttons id ∧ (wm.windows id).closeButton.Contains px py

def Wm.ClicksWhatIsSeen (font : Font) (pixels : Nat → Int → BitVec 32) (buf : Int → Painter)
    (wm : Wm) : Prop :=
  (∀ id < wmMaxWindows, (wm.windows id).visible = true → (wm.windows id).Sized) →
    ∀ px py buttons, 0 ≤ px → px < fbWidth → 0 ≤ py → py < fbHeight - taskbarH →
      wm.LeftPress buttons → wm.Agrees (wm.lastPainter font pixels buf px py) px py buttons

variable {wm : Wm} {font : Font} {pixels : Nat → Int → BitVec 32}

structure WmWindow.Framed (win : WmWindow) : Prop extends win.Sized where
  content : win.content ≠ none
  outerW : win.w = win.contentW + 2
  outerH : win.h = win.contentH + titlebarH + 2

/-- The shapes of `draw_window` cover the outer rectangle and nothing else. -/
theorem drawWindow_paint {win : WmWindow} (framed : win.Framed) (target : Raster Painter)
    (id : Nat) : drawWindow font (fun painter _ => painter) pixels target id win =
      target.paint (.solid (InRect win.x win.y win.w win.h) (.window id)) := by
  obtain ⟨⟨contentW, contentH, title⟩, content, outerW, outerH⟩ := framed
  obtain ⟨address, found⟩ := Option.ne_none_iff_exists'.mp content
  simp only [drawWindow, found, gpuDrawRect_paint, gpuFillRect_paint, gpuDrawString_paint,
    gpuDrawChar_paint, gpuBlit_paint, ite_self, blockShade_const, Raster.paint_paint,
    Shade.solid_over]
  refine Raster.paint_congr fun px py _ => ?_
  simp only [Shade.solid, inRect_iff, WmWindow.closeButton, titlebarH, closeBtnW, fontWidth,
    fontHeight] at outerH ⊢
  congr 1
  refine propext ⟨fun drawn => ?_, fun within => ?_⟩
  · omega
  · omega

theorem Wm.Sound.framed_of_sized (sound : wm.Sound)
    (sized : ∀ id < wmMaxWindows, (wm.windows id).visible = true → (wm.windows id).Sized)
    {id : Nat} (listed : id ∈ wm.stack) : (wm.windows id).Framed := by
  obtain ⟨content, outerW, outerH⟩ := sound.framed id listed
  obtain ⟨below, visible⟩ := (sound.listed id).mp listed
  exact ⟨sized id below visible, content, outerW, outerH⟩

theorem hit_iff {win : WmWindow} {px py : Int} :
    win.hit px py = true ↔ win.visible = true ∧ InRect win.x win.y win.w win.h px py := by
  simp only [WmWindow.hit, Bool.and_eq_true, Bool.not_eq_true', Bool.or_eq_false_iff,
    decide_eq_false_iff_not, inRect_iff, and_assoc]
  constructor
  · rintro ⟨visible, left, right, top, bottom⟩
    exact ⟨visible, by omega, by omega, by omega, by omega⟩
  · rintro ⟨visible, left, right, top, bottom⟩
    exact ⟨visible, by omega, by omega, by omega, by omega⟩

def Wm.topmost (wm : Wm) (px py : Int) (ids : List Nat) : Option Nat :=
  ids.reverse.find? fun id => (wm.windows id).hit px py

/-- After the loop over the windows, the last one drawn over the point owns it. -/
theorem drawWindows_pixel (font : Font) (pixels : Nat → Int → BitVec 32) {ids : List Nat}
    (framed : ∀ id ∈ ids, (wm.windows id).Framed)
    {target : Raster Painter} {px py : Int} (inside : target.Inside px py) :
    let drawn := ids.foldl (fun target id =>
      if (wm.windows id).visible then
        drawWindow font (fun painter _ => painter) pixels target id (wm.windows id)
      else target) target
    drawn.w = target.w ∧ drawn.h = target.h ∧
      drawn.pixel px py = match wm.topmost px py ids with
        | some id => .window id
        | none => target.pixel px py := by
  induction ids using List.reverseRecOn with
  | nil => exact ⟨rfl, rfl, rfl⟩
  | append_singleton ids id ih =>
      obtain ⟨w, h, before⟩ := ih fun other listed => framed other (List.mem_append_left _ listed)
      simp only [List.foldl_append, List.foldl_cons, List.foldl_nil]
      generalize ids.foldl _ target = drawn at w h before
      have still : drawn.Inside px py :=
        ⟨inside.left, w ▸ inside.right, inside.top, h ▸ inside.bottom⟩
      have last : wm.topmost px py (ids ++ [id]) =
          if (wm.windows id).hit px py then some id else wm.topmost px py ids := by
        rw [Wm.topmost, List.reverse_append, List.reverse_singleton, List.singleton_append,
          List.find?_cons]
        split <;> simp_all [Wm.topmost]
      by_cases visible : (wm.windows id).visible = true
      · rw [if_pos visible, drawWindow_paint (framed id (by simp)), Raster.paint_pixel _ still, last]
        refine ⟨w, h, ?_⟩
        by_cases within : InRect (wm.windows id).x (wm.windows id).y (wm.windows id).w
            (wm.windows id).h px py
        · rw [if_pos (hit_iff.mpr ⟨visible, within⟩), Shade.solid, if_pos within]
          rfl
        · rw [if_neg fun hit => within (hit_iff.mp hit).2, Shade.solid, if_neg within]
          exact before
      · rw [if_neg visible, last, if_neg fun hit => visible (hit_iff.mp hit).1]
        exact ⟨w, h, before⟩

theorem drawTaskbarButtons_leaves (ids : List Nat) (bx : Int) (target : Raster Painter) :
    Raster.Leaves (fun _ py => py < fbHeight - taskbarH) target
      (drawTaskbarButtons font (fun painter _ => painter) wm (fbHeight - taskbarH) ids bx target) := by
  induction ids generalizing bx target with
  | nil => exact ⟨rfl, rfl, fun _ _ _ _ => rfl⟩
  | cons id rest ih =>
      simp only [drawTaskbarButtons]
      split
      · refine Raster.Leaves.trans ?_ (ih _ _)
        refine (gpuFillRect_leaves target _ ?_).trans (gpuDrawString_leaves font _ _ _ _ _ ?_)
        · rintro px py above ⟨_, _, top, _⟩
          omega
        · intro px py above
          omega
      · exact ih _ _

theorem drawTaskbar_leaves (target : Raster Painter) :
    Raster.Leaves (fun _ py => py < fbHeight - taskbarH) target
      (drawTaskbar font (fun painter _ => painter) wm target) := by
  simp only [drawTaskbar]
  refine (gpuFillRect_leaves target _ ?_).trans <| (gpuHline_leaves _ _ ?_).trans <|
    (gpuFillRect_leaves _ _ ?_).trans <| (gpuDrawString_leaves font _ _ _ _ _ ?_).trans <|
    (drawTaskbarButtons_leaves _ _ _).trans (gpuDrawString_leaves font _ _ _ _ _ ?_)
  · rintro px py above ⟨_, _, top, _⟩
    omega
  · rintro px py above ⟨_, _, top, _⟩
    omega
  · rintro px py above ⟨_, _, top, _⟩
    omega
  · intro px py above
    omega
  · intro px py above
    omega

theorem Wm.Sound.lastPainter (sound : wm.Sound)
    (sized : ∀ id < wmMaxWindows, (wm.windows id).visible = true → (wm.windows id).Sized)
    {buf : Int → Painter} {px py : Int} (left : 0 ≤ px) (right : px < fbWidth) (top : 0 ≤ py)
    (above : py < fbHeight - taskbarH) :
    wm.lastPainter font pixels buf px py = match wm.topmost px py wm.stack with
      | some id => .window id
      | none => .desktop := by
  have framed : ∀ id ∈ wm.stack, (wm.windows id).Framed :=
    fun id listed => sound.framed_of_sized sized listed
  simp only [Wm.lastPainter, wmComposite, gpuClear_paint, gpuDrawString_paint, Raster.paint_paint]
  generalize painted : (fbTarget buf).paint _ = desk
  have inside : (fbTarget buf).Inside px py := by
    simp only [fbHeight, taskbarH] at above
    exact ⟨left, right, top, by simp only [fbTarget, fbHeight]; omega⟩
  have deskInside : desk.Inside px py :=
    painted ▸ ⟨inside.left, inside.right, inside.top, inside.bottom⟩
  have clear : desk.pixel px py = .desktop := by
    rw [← painted, Raster.paint_pixel _ inside, Shade.over, Shade.solid]
    split <;> rfl
  obtain ⟨w, h, drawn⟩ := drawWindows_pixel font pixels framed deskInside
  generalize wm.stack.foldl _ desk = windows at w h drawn
  have still : windows.Inside px py :=
    ⟨deskInside.left, w ▸ deskInside.right, deskInside.top, h ▸ deskInside.bottom⟩
  rw [(drawTaskbar_leaves windows).pixels px py still above, drawn, clear]

theorem leftPress_handle (mx : Int) {my : Int} {buttons : BitVec 32} (press : wm.LeftPress buttons)
    (above : my < fbHeight - taskbarH) :
    wm.wmHandleMouse mx my buttons = match wm.topmost mx my wm.stack with
      | some id => (Wm.wmFocusWindow { wm with prevButtons := buttons } id).clickWindow id mx my
      | none => ({ wm with prevButtons := buttons }, -1) := by
  have still : (List.range wmMaxWindows).find? (fun i => (wm.windows i).dragging) = none := by
    refine List.find?_eq_none.mpr fun id listed => ?_
    simp [press.undragged id (List.mem_range.mp listed)]
  have clicked : (buttons &&& mouseBtnLeft ≠ 0) ∧ ¬(wm.prevButtons &&& mouseBtnLeft ≠ 0) :=
    ⟨press.down, not_not.mpr press.up⟩
  simp only [Wm.wmHandleMouse, still]
  rw [if_neg (not_not.mpr clicked), if_neg (by omega)]
  rfl

structure Wm.Clicked (wm : Wm) (mx my : Int) (buttons : BitVec 32) (id : Nat) : Prop where
  others : ∀ other < wmMaxWindows, other ≠ id →
    ((wm.wmHandleMouse mx my buttons).1.windows other).dragging = false
  result : ((wm.windows id).closeButton.Contains mx my ∧
      (wm.wmHandleMouse mx my buttons).2 = -((id : Int) + 100)) ∨
    (¬(wm.windows id).closeButton.Contains mx my ∧
      ((wm.wmHandleMouse mx my buttons).2 = -1 ∧
          ((wm.wmHandleMouse mx my buttons).1.windows id).dragging = true ∨
        (wm.wmHandleMouse mx my buttons).2 = id))

theorem closeButton_contains {win : WmWindow} {mx my : Int} :
    win.closeButton.Contains mx my ↔ mx ≥ win.closeX ∧ mx < win.closeX + closeBtnW ∧
      my ≥ win.closeY ∧ my < win.closeY + titlebarH - 4 := by
  simp only [FillRect.Contains, inRect_iff, WmWindow.closeButton, WmWindow.closeX, WmWindow.closeY,
    closeBtnW, titlebarH]
  omega

theorem Wm.Sound.clicked (sound : wm.Sound) {mx my : Int} {buttons : BitVec 32} {id : Nat}
    (press : wm.LeftPress buttons) (above : my < fbHeight - taskbarH)
    (top : wm.topmost mx my wm.stack = some id) : wm.Clicked mx my buttons id := by
  have handles := leftPress_handle mx press above
  have listed : id ∈ wm.stack := List.mem_reverse.mp (List.mem_of_find?_eq_some top)
  obtain ⟨below, visible⟩ := (sound.listed id).mp listed
  have focuses : Wm.Focuses { wm with prevButtons := buttons } id _ :=
    focus_top sound.nodup listed below visible
  rw [top] at handles
  simp only at handles
  generalize Wm.wmFocusWindow { wm with prevButtons := buttons } id = focused at handles focuses
  have dragging : ∀ other < wmMaxWindows, (focused.windows other).dragging = false := by
    intro other inside
    rw [focuses.windows]
    exact press.undragged other inside
  have placed : (focused.windows id).closeX = (wm.windows id).closeX ∧
      (focused.windows id).closeY = (wm.windows id).closeY := by
    rw [focuses.windows]
    exact ⟨rfl, rfl⟩
  constructor
  · intro other inside different
    rw [handles]
    unfold Wm.clickWindow
    dsimp only
    split
    · exact dragging other inside
    · split
      · simp [Wm.modify, different, dragging other inside]
      · exact dragging other inside
  · rw [closeButton_contains, ← placed.1, ← placed.2, handles]
    unfold Wm.clickWindow
    dsimp only
    split
    next close => exact .inl ⟨close, rfl⟩
    next client =>
      refine .inr ⟨client, ?_⟩
      split
      · exact .inl ⟨rfl, by simp [Wm.modify]⟩
      · exact .inr rfl

theorem Wm.Clicked.takes_iff {mx my : Int} {buttons : BitVec 32} {id : Nat}
    (clicked : wm.Clicked mx my buttons id) {other : Nat} (inside : other < wmMaxWindows) :
    wm.Takes mx my buttons other ↔ other = id := by
  constructor
  · intro takes
    by_contra different
    have undragged := clicked.others other inside different
    rw [Wm.Takes, undragged] at takes
    rcases clicked.result with ⟨_, result⟩ | ⟨_, ⟨result, _⟩ | result⟩ <;> rw [result] at takes <;>
      simp at takes <;> omega
  · rintro rfl
    rcases clicked.result with ⟨_, result⟩ | ⟨_, ⟨_, dragging⟩ | result⟩
    · exact .inr (.inl result)
    · exact .inr (.inr dragging)
    · exact .inl result

theorem Wm.Clicked.closed_iff {mx my : Int} {buttons : BitVec 32} {id : Nat}
    (clicked : wm.Clicked mx my buttons id) (other : Nat) :
    (wm.wmHandleMouse mx my buttons).2 = -((other : Int) + 100) ↔
      other = id ∧ (wm.windows other).closeButton.Contains mx my := by
  rcases clicked.result with ⟨contains, result⟩ | ⟨misses, ⟨result, _⟩ | result⟩ <;> rw [result]
  · constructor
    · intro same
      obtain rfl : other = id := by omega
      exact ⟨rfl, contains⟩
    · rintro ⟨rfl, _⟩
      rfl
  · refine iff_of_false (by omega) ?_
    rintro ⟨rfl, contains⟩
    exact misses contains
  · refine iff_of_false (by omega) ?_
    rintro ⟨rfl, contains⟩
    exact misses contains

theorem Wm.Sound.agrees (sound : wm.Sound) {mx my : Int} {buttons : BitVec 32}
    (press : wm.LeftPress buttons) (above : my < fbHeight - taskbarH) {painter : Painter}
    (last : painter = match wm.topmost mx my wm.stack with
      | some id => .window id
      | none => .desktop) : wm.Agrees painter mx my buttons := by
  cases top : wm.topmost mx my wm.stack with
  | none =>
      rw [top] at last
      have handles := leftPress_handle mx press above
      rw [top] at handles
      have nobody : ∀ id < wmMaxWindows, ¬wm.Takes mx my buttons id := by
        intro id inside takes
        rw [Wm.Takes, handles] at takes
        simp [press.undragged id inside] at takes
        omega
      refine ⟨fun id inside => ?_, iff_of_true (fun id _ => ?_) handles, fun id inside => ?_⟩
      · exact iff_of_false (last ▸ Painter.noConfusion) (nobody id inside)
      · exact last ▸ Painter.noConfusion
      · rw [handles]
        exact iff_of_false (by simp; omega) fun both => nobody id inside both.1
  | some id =>
      rw [top] at last
      have clicked := sound.clicked press above top
      have listed : id ∈ wm.stack := List.mem_reverse.mp (List.mem_of_find?_eq_some top)
      have below := ((sound.listed id).mp listed).1
      refine ⟨fun other inside => ?_, iff_of_false ?_ ?_, fun other inside => ?_⟩
      · rw [clicked.takes_iff inside, last, Painter.window.injEq]
        exact eq_comm
      · exact fun missed => missed id below last
      · intro handles
        have takes := (clicked.takes_iff below).mpr rfl
        rw [Wm.Takes, handles] at takes
        simp [press.undragged id below] at takes
        omega
      · rw [clicked.takes_iff inside, clicked.closed_iff other]

/-- In every state from `wm_init` on. -/
theorem wm_clicksWhatIsSeen (font : Font) (pixels : Nat → Int → BitVec 32) (buf : Int → Painter)
    (wm : Wm) (actions : List WmAction) :
    Transition.EveryState Wm.step (Wm.ClicksWhatIsSeen font pixels buf) (wmInit wm) actions := by
  refine (wm_sound wm actions).mono fun wm sound sized px py buttons left right top above press => ?_
  exact sound.agrees press above (sound.lastPainter sized left right top above)

end DragoonKernel
