import DragoonKernel.WmDrag

/-!
A drag keeps its grip: the window follows the pointer at the same offset, so the top border row
stays under it, and the clamp of `y` keeps that row above the taskbar.
-/

namespace DragoonKernel

/-- A point of the screen above the taskbar. -/
structure OnDesktop (px py : Int) : Prop where
  left : 0 ≤ px
  right : px < fbWidth
  top : 0 ≤ py
  bottom : py < fbHeight - taskbarH

/-- The top border row of the window has a point on the screen above the taskbar. -/
def WmWindow.ShowsTop (win : WmWindow) : Prop :=
  ∃ px, OnDesktop px win.y ∧ win.hit px win.y = true

/-- The same windows with `id` topmost, no drag active and no button down. -/
def Wm.atRest (wm : Wm) (id : Nat) : Wm :=
  Wm.wmFocusWindow { wm with
    windows := fun i => { wm.windows i with dragging := false }
    prevButtons := 0 } id

/-- There is a point of the desktop at which a left press would start to drag the window. -/
def Wm.Grabbable (wm : Wm) (id : Nat) : Prop :=
  ∃ px py, OnDesktop px py ∧ ∀ buttons, LeftDown buttons →
    ((wm.atRest id).wmHandleMouse px py buttons).2 = -1 ∧
      (((wm.atRest id).wmHandleMouse px py buttons).1.windows id).dragging = true

/-- The pointer holds a point of the top border row. -/
def WmWindow.Gripped (win : WmWindow) : Prop :=
  win.visible = true → win.dragging = true → 0 ≤ win.dragOx ∧ win.dragOx < win.w

structure MouseSample where
  mx : Int
  my : Int
  buttons : BitVec 32

def MouseSample.action (sample : MouseSample) : WmAction :=
  .handleMouse sample.mx sample.my sample.buttons

structure MouseSample.OnScreen (sample : MouseSample) : Prop where
  left : 0 ≤ sample.mx
  right : sample.mx < fbWidth
  top : 0 ≤ sample.my
  bottom : sample.my < fbHeight

def Wm.Gripped (wm : Wm) : Prop := ∀ id < wmMaxWindows, (wm.windows id).Gripped

def Wm.ShowsTops (wm : Wm) : Prop :=
  ∀ id < wmMaxWindows, (wm.windows id).visible = true → (wm.windows id).ShowsTop

variable {wm after : Wm} {win other : WmWindow}

theorem hit_iff_within {px py : Int} : win.hit px py = true ↔
    win.visible = true ∧ win.x ≤ px ∧ px < win.x + win.w ∧ win.y ≤ py ∧ py < win.y + win.h := by
  simp only [WmWindow.hit, Bool.and_eq_true, Bool.not_eq_true', Bool.or_eq_false_iff,
    decide_eq_false_iff_not, and_assoc, not_lt, ge_iff_le, not_le]

theorem WmWindow.SameButFocus.gripped (same : win.SameButFocus other) (gripped : win.Gripped) :
    other.Gripped := by
  rw [same]
  exact gripped

theorem WmWindow.SameButFocus.showsTop (same : win.SameButFocus other) (shows : win.ShowsTop) :
    other.ShowsTop := by
  rw [same]
  exact shows

theorem WmWindow.Gripped.of_undragged (undragged : win.dragging = false) : win.Gripped := by
  intro _ dragging
  rw [undragged] at dragging
  cases dragging

theorem WmWindow.Gripped.of_hidden (hidden : win.visible = false) : win.Gripped := by
  intro visible
  rw [hidden] at visible
  cases visible

/-- A drag moves the held point to the pointer, wherever on the screen that is. -/
theorem WmWindow.Gripped.drag_showsTop {sample : MouseSample} (gripped : win.Gripped)
    (shows : win.ShowsTop) (dragging : win.dragging = true) (inside : sample.OnScreen) :
    (win.drag sample.mx sample.my).ShowsTop := by
  obtain ⟨px, _, within⟩ := shows
  rw [hit_iff_within] at within
  obtain ⟨visible, _, _, _, tall⟩ := within
  obtain ⟨positive, narrow⟩ := gripped visible dragging
  have row : 0 ≤ (win.drag sample.mx sample.my).y ∧
      (win.drag sample.mx sample.my).y ≤ fbHeight - taskbarH - titlebarH := by
    simp only [WmWindow.drag, fbHeight, taskbarH, titlebarH]
    split <;> split <;> omega
  refine ⟨sample.mx, ⟨inside.left, inside.right, row.1, ?_⟩, hit_iff_within.mpr ?_⟩
  · have lower := row.2
    simp only [titlebarH] at lower
    omega
  · refine ⟨visible, ?_, ?_, le_refl _, ?_⟩
    · simp only [WmWindow.drag]
      omega
    · simp only [WmWindow.drag]
      omega
    · have height : (win.drag sample.mx sample.my).h = win.h := rfl
      omega

/-- The press that starts a drag is inside the window. -/
theorem WmWindow.Gripped.of_press {px py : Int} (within : win.hit px py = true) :
    WmWindow.Gripped { win with dragging := true, dragOx := px - win.x, dragOy := py - win.y } := by
  rw [hit_iff_within] at within
  intro _ _
  dsimp only
  omega

theorem Wm.Gripped.modify {id : Nat} {change : WmWindow → WmWindow} (gripped : wm.Gripped)
    (changed : (change (wm.windows id)).Gripped) : (wm.modify id change).Gripped := by
  intro other below
  by_cases here : other = id
  · subst here
    rw [modify_self]
    exact changed
  · rw [modify_other wm change here]
    exact gripped other below

theorem Wm.Gripped.focusWindow (gripped : wm.Gripped) (id : Int) : (wm.wmFocusWindow id).Gripped :=
  fun other below => ((focusWindow_windows wm id).2 other).gripped (gripped other below)

theorem Wm.Gripped.createWindow (gripped : wm.Gripped) (title : List (BitVec 8))
    (x y w h : Int) (content : Option Nat) :
    (wm.wmCreateWindow title x y w h content).1.Gripped := by
  obtain ⟨same, _⟩ | ⟨id, below, hidden, ⟨_, same⟩ | ⟨address, _, _, _, table⟩⟩ :=
    createWindow_cases wm title x y w h content
  · rw [same]
    exact gripped
  · rw [same]
    dsimp only
    refine gripped.modify ?_
    exact .of_hidden hidden
  · intro other inside
    refine (table other).gripped ?_
    rw [Wm.showing]
    by_cases here : other = id
    · subst here
      rw [Function.update_self]
      exact .of_undragged rfl
    · rw [Function.update_of_ne here]
      exact gripped other inside

theorem Wm.Gripped.destroyWindow (gripped : wm.Gripped) (id : Int) :
    (wm.wmDestroyWindow id).Gripped := by
  cases shown : wm.visibleId id with
  | none =>
      rw [Wm.wmDestroyWindow, shown]
      exact gripped
  | some slot =>
      intro other inside
      refine ((destroyWindow_windows shown).2 other).gripped ?_
      rw [Wm.hiding]
      by_cases here : other = slot
      · subst here
        rw [Function.update_self]
        exact .of_hidden rfl
      · rw [Function.update_of_ne here]
        exact gripped other inside

theorem Wm.Gripped.handleMouse (gripped : wm.Gripped) (mx my : Int) (buttons : BitVec 32) :
    (wm.wmHandleMouse mx my buttons).1.Gripped := by
  have handles := handleMouse_handles wm mx my buttons
  have pressed : Wm.Gripped { wm with prevButtons := buttons } := gripped
  generalize wm.wmHandleMouse mx my buttons = result at handles
  cases handles with
  | drop id first up held =>
      dsimp only
      refine pressed.modify ?_
      exact .of_undragged rfl
  | drag id first goesOn =>
      dsimp only
      refine pressed.modify ?_
      exact gripped id (dragged_eq_some first).1
  | still undragged noClick => exact gripped
  | miss undragged down up missed result signal => exact gripped
  | button id undragged down up hit low => exact pressed.focusWindow id
  | window id undragged down up hit inside =>
      have focused := pressed.focusWindow id
      have same := (focusWindow_windows { wm with prevButtons := buttons } id).2 id
      rcases clickWindow_cases id mx my with closed | started | client
      · rw [closed]
        exact focused
      · rw [started]
        dsimp only
        refine focused.modify ?_
        refine .of_press ?_
        rw [same]
        exact inside
      · rw [client]
        exact focused

theorem Wm.Gripped.step (gripped : wm.Gripped) {action : WmAction}
    (stepped : wm.step action = some after) : after.Gripped := by
  cases action with
  | createWindow title x y w h content =>
      obtain rfl := Option.some.inj stepped
      exact gripped.createWindow title x y w h content
  | destroyWindow id =>
      obtain rfl := Option.some.inj stepped
      exact gripped.destroyWindow id
  | focusWindow id =>
      obtain rfl := Option.some.inj stepped
      exact gripped.focusWindow id
  | handleMouse mx my buttons =>
      obtain rfl := Option.some.inj stepped
      exact gripped.handleMouse mx my buttons

/-- In every state that the calls reach, a drag holds its window inside the outer width. -/
theorem wm_gripped {wm reached : Wm} {actions : List WmAction}
    (run : Transition.exec Wm.step (wmInit wm) actions = some reached) : reached.Gripped := by
  refine Transition.exec_invariant ?_ ?_ run
  · exact fun wm action after gripped stepped => gripped.step stepped
  · intro id below
    refine .of_hidden ?_
    simp [wmInit, below]

theorem Wm.ShowsTops.modify {id : Nat} {change : WmWindow → WmWindow} (shows : wm.ShowsTops)
    (still : (change (wm.windows id)).visible = (wm.windows id).visible)
    (kept : (wm.windows id).ShowsTop → (change (wm.windows id)).ShowsTop) :
    (wm.modify id change).ShowsTops := by
  intro other below visible
  by_cases here : other = id
  · subst here
    rw [modify_self] at visible ⊢
    exact kept (shows other below (still ▸ visible))
  · rw [modify_other wm change here] at visible ⊢
    exact shows other below visible

/-- A call changes the place of one window at most, and that one follows the pointer. -/
theorem Wm.ShowsTops.handleMouse {sample : MouseSample} (shows : wm.ShowsTops)
    (gripped : wm.Gripped) (inside : sample.OnScreen) :
    (wm.wmHandleMouse sample.mx sample.my sample.buttons).1.ShowsTops := by
  have focused : ∀ id : Nat,
      (Wm.wmFocusWindow { wm with prevButtons := sample.buttons } id).ShowsTops := by
    intro id other below visible
    have same := (focusWindow_windows { wm with prevButtons := sample.buttons } id).2 other
    exact same.showsTop (shows other below (same.visible ▸ visible))
  have handles := handleMouse_handles wm sample.mx sample.my sample.buttons
  have pressed : Wm.ShowsTops { wm with prevButtons := sample.buttons } := shows
  generalize wm.wmHandleMouse sample.mx sample.my sample.buttons = result at handles
  cases handles with
  | drop id first up held =>
      dsimp only
      refine pressed.modify ?_ ?_
      · rfl
      · exact fun kept => kept
  | drag id first goesOn =>
      obtain ⟨below, dragging⟩ := dragged_eq_some first
      dsimp only
      refine pressed.modify ?_ ?_
      · rfl
      · exact fun kept => (gripped id below).drag_showsTop kept dragging inside
  | still undragged noClick => exact shows
  | miss undragged down up missed result signal => exact shows
  | button id undragged down up hit low => exact focused id
  | window id undragged down up hit hits =>
      rcases clickWindow_cases id sample.mx sample.my with closed | started | client
      · rw [closed]
        exact focused id
      · rw [started]
        dsimp only
        refine (focused id).modify ?_ ?_
        · rfl
        · exact fun kept => kept
      · rw [client]
        exact focused id

/-- The close button begins two rows below the top border row. -/
theorem clickWindow_topRow (id : Nat) (mx : Int) :
    wm.clickWindow id mx (wm.windows id).y = (wm.modify id fun win => { win with
      dragging := true, dragOx := mx - win.x, dragOy := (wm.windows id).y - win.y }, -1) := by
  have aboveClose : ¬(wm.windows id).y ≥ (wm.windows id).closeY := by
    simp only [WmWindow.closeY]
    omega
  have title : (wm.windows id).y < (wm.windows id).y + titlebarH + 1 := by
    simp only [titlebarH]
    omega
  unfold Wm.clickWindow
  dsimp only
  rw [if_neg fun close => aboveClose close.2.2.1, if_pos title]

theorem atRest_stack (sound : wm.Sound) {id : Nat} (below : id < wmMaxWindows)
    (visible : (wm.windows id).visible = true) :
    (wm.atRest id).stack.getLast? = some id ∧ (wm.atRest id).dragged = none ∧
      (wm.atRest id).prevButtons = 0 ∧
      ∀ other, ({ wm.windows other with dragging := false } : WmWindow).SameButFocus
        ((wm.atRest id).windows other) := by
  have member := (sound.listed id).mpr ⟨below, visible⟩
  obtain ⟨buttons, same⟩ := focusWindow_windows { wm with
    windows := fun i => { wm.windows i with dragging := false }, prevButtons := 0 } id
  have focuses : Wm.Focuses { wm with
      windows := fun i => { wm.windows i with dragging := false }, prevButtons := 0 } id
      (wm.atRest id) := focus_top sound.nodup member below visible
  refine ⟨?_, dragged_eq_none.mpr fun other _ => (same other).dragging, buttons, same⟩
  rw [focuses.stack, List.getLast?_append, List.getLast?_singleton, Option.some_or]

theorem WmWindow.ShowsTop.grabbable (sound : wm.Sound) {id : Nat} (below : id < wmMaxWindows)
    (visible : (wm.windows id).visible = true) (shows : (wm.windows id).ShowsTop) :
    wm.Grabbable id := by
  obtain ⟨px, desktop, within⟩ := shows
  obtain ⟨top, undragged, buttonsUp, same⟩ := atRest_stack sound below visible
  refine ⟨px, (wm.windows id).y, desktop, fun buttons down => ?_⟩
  have high : ¬(wm.windows id).y ≥ fbHeight - taskbarH := not_le.mpr desktop.bottom
  have up : ¬LeftDown (wm.atRest id).prevButtons := by
    rw [buttonsUp, LeftDown]
    decide
  have target : (wm.atRest id).clickTarget px (wm.windows id).y = some id := by
    obtain ⟨front, split⟩ := List.getLast?_eq_some_iff.mp top
    have hits : ((wm.atRest id).windows id).hit px (wm.windows id).y = true := by
      rw [same id]
      exact within
    rw [Wm.clickTarget, if_neg high, split, List.reverse_append, List.reverse_singleton,
      List.singleton_append, List.find?_cons, hits]
  have handles := handleMouse_handles (wm.atRest id) px (wm.windows id).y buttons
  generalize (wm.atRest id).wmHandleMouse px (wm.windows id).y buttons = result at handles
  cases handles with
  | drop other first _ _ => cases undragged.symm.trans first
  | drag other first _ => cases undragged.symm.trans first
  | still _ noClick => exact absurd (noClick down) up
  | miss _ _ _ missed _ _ => cases target.symm.trans missed
  | button _ _ _ _ _ low => exact absurd low high
  | window other _ _ _ hit inside =>
      obtain rfl := Option.some.inj (target.symm.trans hit)
      have row : ((Wm.wmFocusWindow { wm.atRest id with prevButtons := buttons } id).windows id).y =
          (wm.windows id).y := by
        rw [(focusWindow_windows { wm.atRest id with prevButtons := buttons } id).2 id, same id]
      rw [← row, clickWindow_topRow]
      exact ⟨rfl, by rw [modify_self]⟩

/-- From every reachable state whose windows show their top border row, whatever the pointer
does on the screen. -/
theorem wm_neverStranded {start wm : Wm} {calls : List WmAction}
    (run : Transition.exec Wm.step (wmInit start) calls = some wm) (shows : wm.ShowsTops)
    {samples : List MouseSample} (onScreen : ∀ sample ∈ samples, sample.OnScreen) :
    Transition.EveryState Wm.step
      (fun wm => ∀ id < wmMaxWindows, (wm.windows id).visible = true → wm.Grabbable id) wm
      (samples.map MouseSample.action) := by
  have gripped := wm_gripped run
  have sound := (wm_sound start calls).last run
  clear run
  induction samples generalizing wm with
  | nil => exact fun id below visible => (shows id below visible).grabbable sound below visible
  | cons sample rest ih =>
      refine ⟨fun id below visible => (shows id below visible).grabbable sound below visible, ?_⟩
      intro next stepped
      have inside := onScreen sample List.mem_cons_self
      have moved := sound.step stepped
      obtain rfl := Option.some.inj stepped
      exact ih (shows.handleMouse gripped inside)
        (fun other listed => onScreen other (List.mem_cons_of_mem _ listed))
        (gripped.handleMouse sample.mx sample.my sample.buttons) moved.1

/-- A window grabbed by its title bar and dragged into the lower right corner and back. -/
def cornerDrag : List MouseSample := [⟨50, 15, 1⟩, ⟨639, 479, 1⟩, ⟨0, 0, 1⟩, ⟨0, 0, 0⟩]

theorem wm_neverStranded_corner :
    ∃ wm, Transition.exec Wm.step (wmInit wmStatic)
        [.createWindow [] 10 10 100 100 (some 0)] = some wm ∧
      Transition.EveryState Wm.step
        (fun wm => ∀ id < wmMaxWindows, (wm.windows id).visible = true → wm.Grabbable id) wm
        (cornerDrag.map MouseSample.action) := by
  have one : ∀ id < wmMaxWindows, (((wmInit wmStatic).wmCreateWindow [] 10 10 100 100
      (some 0)).1.windows id).visible = true → id = 0 := by decide
  have shows : ((wmInit wmStatic).wmCreateWindow [] 10 10 100 100 (some 0)).1.ShowsTops := by
    intro id below visible
    obtain rfl := one id below visible
    exact ⟨10, ⟨by decide, by decide, by decide, by decide⟩, by decide⟩
  have onScreen : ∀ sample ∈ cornerDrag, sample.OnScreen := by
    simp only [cornerDrag, List.forall_mem_cons, List.not_mem_nil, false_implies, implies_true]
    refine ⟨?_, ?_, ?_, ?_, trivial⟩
    all_goals exact ⟨by decide, by decide, by decide, by decide⟩
  have run : Transition.exec Wm.step (wmInit wmStatic) [.createWindow [] 10 10 100 100 (some 0)] =
      some ((wmInit wmStatic).wmCreateWindow [] 10 10 100 100 (some 0)).1 := rfl
  exact ⟨_, run, wm_neverStranded run shows onScreen⟩

end DragoonKernel
