import DragoonKernel.WmStacking

/-! What one call of the window manager leaves in the table of windows, whatever its state. -/

namespace DragoonKernel

/-- `windows`, `z_order` and the counters as the program starts. -/
def wmStatic : Wm where
  windows := fun _ => ⟨0, 0, 0, 0, [], none, 0, 0, false, false, false, 0, 0⟩
  zOrder := fun _ => 0
  zCount := 0
  prevButtons := 0

def LeftDown (buttons : BitVec 32) : Prop := buttons &&& mouseBtnLeft ≠ 0

/-- The window whose drag `wm_handle_mouse` goes on with. -/
def Wm.dragged (wm : Wm) : Option Nat :=
  (List.range wmMaxWindows).find? fun i => (wm.windows i).dragging

/-- The window that a click focuses. -/
def Wm.clickTarget (wm : Wm) (mx my : Int) : Option Nat :=
  if my ≥ fbHeight - taskbarH then
    if mx < startBtnW then none else wm.taskbarHit mx wm.stack (startBtnW + 4)
  else wm.stack.reverse.find? fun id => (wm.windows id).hit mx my

/-- The fields that `wm_create_window` stores before it knows that there is memory. -/
def WmWindow.placed (win : WmWindow) (title : List (BitVec 8)) (x y w h : Int)
    (content : Option Nat) : WmWindow :=
  { win with
    title := title.take 31, x := x, y := y, contentW := w, contentH := h, w := w + 2
    h := h + titlebarH + 2, content := content }

/-- `after` differs from the window only in the focus. -/
def WmWindow.SameButFocus (win after : WmWindow) : Prop :=
  after = { win with focused := after.focused }

/-- The ways in which `wm_handle_mouse` ends. -/
inductive Wm.Handles (wm : Wm) (mx my : Int) (buttons : BitVec 32) : Wm × Int → Prop where
  | drop (id : Nat) (first : wm.dragged = some id) (up : ¬LeftDown buttons)
      (held : LeftDown wm.prevButtons) : Wm.Handles wm mx my buttons
        (Wm.modify { wm with prevButtons := buttons } id fun win => { win with dragging := false }, -1)
  | drag (id : Nat) (first : wm.dragged = some id)
      (goesOn : LeftDown buttons ∨ ¬LeftDown wm.prevButtons) : Wm.Handles wm mx my buttons
        (Wm.modify { wm with prevButtons := buttons } id fun win => win.drag mx my, -1)
  | still (undragged : wm.dragged = none) (noClick : LeftDown buttons → LeftDown wm.prevButtons) :
      Wm.Handles wm mx my buttons ({ wm with prevButtons := buttons }, -1)
  | miss (undragged : wm.dragged = none) (down : LeftDown buttons) (up : ¬LeftDown wm.prevButtons)
      (missed : wm.clickTarget mx my = none) (result : Int) (signal : result = -1 ∨ result = -2) :
      Wm.Handles wm mx my buttons ({ wm with prevButtons := buttons }, result)
  | button (id : Nat) (undragged : wm.dragged = none) (down : LeftDown buttons)
      (up : ¬LeftDown wm.prevButtons) (hit : wm.clickTarget mx my = some id)
      (low : my ≥ fbHeight - taskbarH) : Wm.Handles wm mx my buttons
        (Wm.wmFocusWindow { wm with prevButtons := buttons } id, -1)
  | window (id : Nat) (undragged : wm.dragged = none) (down : LeftDown buttons)
      (up : ¬LeftDown wm.prevButtons) (hit : wm.clickTarget mx my = some id)
      (inside : (wm.windows id).hit mx my = true) : Wm.Handles wm mx my buttons
        ((Wm.wmFocusWindow { wm with prevButtons := buttons } id).clickWindow id mx my)

variable {wm : Wm}

theorem taskbarHit_congr {after : Wm} (same : after.windows = wm.windows) (mx : Int) (ids : List Nat)
    (bx : Int) : after.taskbarHit mx ids bx = wm.taskbarHit mx ids bx := by
  induction ids generalizing bx with
  | nil => rfl
  | cons id rest ih => simp only [Wm.taskbarHit, same, ih]

theorem handleMouse_handles (wm : Wm) (mx my : Int) (buttons : BitVec 32) :
    wm.Handles mx my buttons (wm.wmHandleMouse mx my buttons) := by
  unfold Wm.wmHandleMouse
  dsimp only
  split
  next id first =>
    split
    next released => exact .drop id first released.1 released.2
    next goesOn =>
      refine .drag id first ?_
      by_cases down : LeftDown buttons
      · exact .inl down
      · exact .inr fun held => goesOn ⟨down, held⟩
  next undragged =>
    split
    next idle =>
      refine .still undragged fun down => ?_
      by_contra up
      exact idle ⟨down, up⟩
    next click =>
      obtain ⟨down, up⟩ := not_not.mp click
      split
      next low =>
        split
        next left =>
          exact .miss undragged down up (by rw [Wm.clickTarget, if_pos low, if_pos left]) _ (.inr rfl)
        next right =>
          have target : wm.clickTarget mx my = wm.taskbarHit mx wm.stack (startBtnW + 4) := by
            rw [Wm.clickTarget, if_pos low, if_neg right]
          rw [← @taskbarHit_congr wm { wm with prevButtons := buttons } rfl] at target
          split
          next id hit => exact .button id undragged down up (target.trans hit) low
          next missed => exact .miss undragged down up (target.trans missed) _ (.inl rfl)
      next high =>
        have target : wm.clickTarget mx my =
            wm.stack.reverse.find? fun id => (wm.windows id).hit mx my := by
          rw [Wm.clickTarget, if_neg high]
        split
        next id hit =>
          have inside : (wm.windows id).hit mx my = true :=
            List.find?_some (p := fun id => (wm.windows id).hit mx my) hit
          exact .window id undragged down up (target.trans hit) inside
        next missed => exact .miss undragged down up (target.trans missed) _ (.inl rfl)

theorem dragged_eq_none : wm.dragged = none ↔ ∀ id < wmMaxWindows, (wm.windows id).dragging = false := by
  simp [Wm.dragged, List.find?_eq_none]

theorem dragged_eq_some {id : Nat} (first : wm.dragged = some id) :
    id < wmMaxWindows ∧ (wm.windows id).dragging = true := by
  obtain ⟨dragging, listed, _⟩ := List.find?_range_eq_some.mp first
  exact ⟨List.mem_range.mp listed, dragging⟩

theorem taskbarHit_visible {mx : Int} {ids : List Nat} {bx : Int} {id : Nat}
    (hit : wm.taskbarHit mx ids bx = some id) : id ∈ ids ∧ (wm.windows id).visible = true := by
  induction ids generalizing bx with
  | nil => cases hit
  | cons first rest ih =>
      simp only [Wm.taskbarHit] at hit
      split at hit
      next visible =>
        split at hit
        · obtain rfl := Option.some.inj hit
          exact ⟨List.mem_cons_self, visible⟩
        · exact ⟨List.mem_cons_of_mem _ (ih hit).1, (ih hit).2⟩
      next => exact ⟨List.mem_cons_of_mem _ (ih hit).1, (ih hit).2⟩

theorem clickTarget_visible {mx my : Int} {id : Nat} (hit : wm.clickTarget mx my = some id) :
    id ∈ wm.stack ∧ (wm.windows id).visible = true := by
  simp only [Wm.clickTarget] at hit
  split at hit
  · rw [Option.ite_none_left_eq_some] at hit
    exact taskbarHit_visible hit.2
  · have inside := List.find?_some hit
    rw [WmWindow.hit, Bool.and_eq_true] at inside
    exact ⟨List.mem_reverse.mp (List.mem_of_find?_eq_some hit), inside.1⟩

/-- The cases of a click on a window: the close button, the title bar, or the client area. -/
theorem clickWindow_cases (id : Nat) (mx my : Int) :
    wm.clickWindow id mx my = (wm, -((id : Int) + 100)) ∨
    wm.clickWindow id mx my = (wm.modify id fun win => { win with
      dragging := true, dragOx := mx - win.x, dragOy := my - win.y }, -1) ∨
    wm.clickWindow id mx my = (wm, (id : Int)) := by
  unfold Wm.clickWindow
  dsimp only
  split
  · exact .inl rfl
  · split
    · exact .inr (.inl rfl)
    · exact .inr (.inr rfl)

@[simp] theorem modify_self (wm : Wm) (id : Nat) (change : WmWindow → WmWindow) :
    (wm.modify id change).windows id = change (wm.windows id) := Function.update_self _ _ _

theorem modify_other (wm : Wm) {id other : Nat} (change : WmWindow → WmWindow)
    (different : other ≠ id) : (wm.modify id change).windows other = wm.windows other :=
  Function.update_of_ne different _ _

theorem modify_visible {slot : Nat} {change : WmWindow → WmWindow}
    (still : (change (wm.windows slot)).visible = (wm.windows slot).visible) (id : Nat) :
    ((wm.modify slot change).windows id).visible = (wm.windows id).visible := by
  by_cases here : id = slot
  · subst here
    rw [modify_self, still]
  · rw [modify_other wm change here]

theorem raise_windows (wm : Wm) (id : Nat) :
    (wm.raise id).windows = wm.windows ∧ (wm.raise id).prevButtons = wm.prevButtons := by
  unfold Wm.raise
  split
  · split
    · exact ⟨rfl, rfl⟩
    · exact ⟨rfl, rfl⟩
  · exact ⟨rfl, rfl⟩

theorem focusWindow_windows (wm : Wm) (id : Int) :
    (wm.wmFocusWindow id).prevButtons = wm.prevButtons ∧
      ∀ other, (wm.windows other).SameButFocus ((wm.wmFocusWindow id).windows other) := by
  unfold Wm.wmFocusWindow
  split
  · exact ⟨rfl, fun _ => rfl⟩
  next slot _ =>
    obtain ⟨windows, buttons⟩ :=
      raise_windows (wm.unfocusAll.modify slot fun win => { win with focused := true }) slot
    refine ⟨buttons, fun other => ?_⟩
    rw [windows]
    by_cases here : other = slot
    · subst here
      simp only [modify_self, Wm.unfocusAll]
      split <;> rfl
    · simp only [modify_other _ _ here, Wm.unfocusAll]
      split <;> rfl

/-- The table once the window `slot` is hidden. -/
def Wm.hiding (wm : Wm) (slot : Nat) : Nat → WmWindow :=
  Function.update wm.windows slot { wm.windows slot with
    content := none, visible := false, focused := false }

theorem destroyWindow_windows {id : Int} {slot : Nat} (shown : wm.visibleId id = some slot) :
    (wm.wmDestroyWindow id).prevButtons = wm.prevButtons ∧
      ∀ other, (wm.hiding slot other).SameButFocus ((wm.wmDestroyWindow id).windows other) := by
  have refocus : ∀ removed : Wm, ∀ top : Int,
      (if 0 < removed.zCount then removed.wmFocusWindow top else removed).prevButtons =
        removed.prevButtons ∧ ∀ other, (removed.windows other).SameButFocus
          ((if 0 < removed.zCount then removed.wmFocusWindow top else removed).windows other) := by
    intro removed top
    split
    · exact focusWindow_windows removed top
    · exact ⟨rfl, fun _ => rfl⟩
  simp only [Wm.wmDestroyWindow, shown]
  generalize (List.range _).foldl _ _ = removed
  exact refocus { wm with
    windows := wm.hiding slot
    zOrder := removed.2
    zCount := if removed.1 then wm.zCount - 1 else wm.zCount } _

/-- The table once `wm_create_window` shows a window in `slot`. -/
def Wm.showing (wm : Wm) (slot : Nat) (win : WmWindow) : Nat → WmWindow :=
  Function.update wm.windows slot { win with visible := true, focused := false, dragging := false }

/-- The ways in which `wm_create_window` ends: no slot, no memory, or a window. -/
theorem createWindow_cases (wm : Wm) (title : List (BitVec 8)) (x y w h : Int)
    (content : Option Nat) :
    (wm.wmCreateWindow title x y w h content = (wm, -1) ∧
      ∀ id < wmMaxWindows, (wm.windows id).visible = true) ∨
    ∃ id < wmMaxWindows, (wm.windows id).visible = false ∧
      (content = none ∧ wm.wmCreateWindow title x y w h content =
          (wm.modify id fun win => win.placed title x y w h none, -1) ∨
        ∃ address, content = some address ∧
          (wm.wmCreateWindow title x y w h content).2 = id ∧
          (wm.wmCreateWindow title x y w h content).1.prevButtons = wm.prevButtons ∧
          ∀ other, (wm.showing id ((wm.windows id).placed title x y w h content) other).SameButFocus
            ((wm.wmCreateWindow title x y w h content).1.windows other)) := by
  cases found : (List.range wmMaxWindows).find? fun i => !(wm.windows i).visible with
  | none =>
      refine .inl ⟨by rw [Wm.wmCreateWindow, found], fun id below => ?_⟩
      simpa using List.find?_eq_none.mp found id (List.mem_range.mpr below)
  | some id =>
      obtain ⟨hidden, listed, _⟩ := List.find?_range_eq_some.mp found
      refine .inr ⟨id, List.mem_range.mp listed, by simpa using hidden, ?_⟩
      cases content with
      | none => exact .inl ⟨rfl, by simp only [Wm.wmCreateWindow, found]; rfl⟩
      | some address =>
          have table : ((wm.modify id fun win => win.placed title x y w h (some address)).modify id
              fun win => { win with visible := true, focused := false, dragging := false }).windows =
              wm.showing id ((wm.windows id).placed title x y w h (some address)) := by
            simp only [Wm.modify, Function.update_idem, Function.update_self, Wm.showing]
          refine .inr ⟨address, rfl, ?_⟩
          simp only [Wm.wmCreateWindow, found]
          refine ⟨trivial, (focusWindow_windows _ _).1, fun other => ?_⟩
          rw [← table]
          exact (focusWindow_windows _ _).2 other

theorem WmWindow.SameButFocus.dragging {win after : WmWindow} (same : win.SameButFocus after) :
    after.dragging = win.dragging := by
  rw [same]

theorem WmWindow.SameButFocus.visible {win after : WmWindow} (same : win.SameButFocus after) :
    after.visible = win.visible := by
  rw [same]

end DragoonKernel
