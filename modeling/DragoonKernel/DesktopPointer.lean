import DragoonKernel.GuiApps
import DragoonKernel.VirtioTablet
import DragoonKernel.WmReach

/-!
The desktop with the tablet that moves its pointer: no window ever gets out of reach.
-/

namespace DragoonKernel

structure Wm.WithinReach (wm : Wm) : Prop where
  sound : wm.Sound
  gripped : wm.Gripped
  showsTops : wm.ShowsTops

/-- There are values of the tablet that lead the pointer, wherever it is, to a point of the desktop
at which a left press would start to drag the window. -/
def Wm.TabletGrabs (wm : Wm) (id : Nat) : Prop :=
  ∃ column row, TabletValue column ∧ TabletValue row ∧ ∀ mouse : Mouse,
    OnDesktop (mouse.pointed column row).x (mouse.pointed column row).y ∧
      ∀ buttons, LeftDown buttons →
        (((wm.atRest id).wmHandleMouse (mouse.pointed column row).x (mouse.pointed column row).y
          buttons).1.windows id).dragging = true

def Wm.NoneStranded (wm : Wm) : Prop :=
  ∀ id < wmMaxWindows, (wm.windows id).visible = true → wm.TabletGrabs id

structure PointedDesktop.Sound (desktop : PointedDesktop) : Prop where
  tablet : desktop.tablet.OnScreen
  wm : desktop.gui.wm.WithinReach

section Windows

variable {wm : Wm}

theorem Wm.WithinReach.noneStranded (reach : wm.WithinReach) : wm.NoneStranded := by
  intro id below visible
  obtain ⟨px, py, desktop, grabs⟩ :=
    (reach.showsTops id below visible).grabbable reach.sound below visible
  have bottom : py < fbHeight := by
    have above := desktop.bottom
    rw [taskbarH] at above
    omega
  obtain ⟨column, row, reported, alsoReported, leads⟩ :=
    pointed_onto desktop.left desktop.right desktop.top bottom
  refine ⟨column, row, reported, alsoReported, fun mouse => ?_⟩
  rw [leads mouse]
  exact ⟨desktop, fun buttons down => (grabs buttons down).2⟩

theorem Wm.ShowsTops.focusWindow (shows : wm.ShowsTops) (id : Int) :
    (wm.wmFocusWindow id).ShowsTops := by
  intro other below visible
  have same := (focusWindow_windows wm id).2 other
  exact same.showsTop (shows other below (same.visible ▸ visible))

theorem Wm.ShowsTops.destroyWindow (shows : wm.ShowsTops) (id : Int) :
    (wm.wmDestroyWindow id).ShowsTops := by
  cases shown : wm.visibleId id with
  | none =>
      rw [Wm.wmDestroyWindow, shown]
      exact shows
  | some slot =>
      intro other below visible
      have same := (destroyWindow_windows shown).2 other
      rw [same.visible, Wm.hiding] at visible
      refine same.showsTop ?_
      rw [Wm.hiding]
      by_cases here : other = slot
      · subst here
        rw [Function.update_self] at visible
        cases visible
      · rw [Function.update_of_ne here] at visible ⊢
        exact shows other below visible

/-- A window that starts on the desktop. -/
theorem Wm.ShowsTops.createWindow (shows : wm.ShowsTops) (title : List (BitVec 8))
    {x y w h : Int} (content : Option Nat) (placed : OnDesktop x y) (wide : 0 < w) (tall : 0 < h) :
    (wm.wmCreateWindow title x y w h content).1.ShowsTops := by
  obtain ⟨same, _⟩ | ⟨id, below, hidden, ⟨_, same⟩ | ⟨address, _, _, _, table⟩⟩ :=
    createWindow_cases wm title x y w h content
  · rw [same]
    exact shows
  · rw [same]
    intro other inside visible
    dsimp only at visible ⊢
    by_cases here : other = id
    · subst here
      rw [modify_self] at visible
      exact absurd (hidden.symm.trans visible) Bool.false_ne_true
    · rw [modify_other wm _ here] at visible ⊢
      exact shows other inside visible
  · intro other inside visible
    have same := table other
    rw [same.visible, Wm.showing] at visible
    refine same.showsTop ?_
    rw [Wm.showing]
    by_cases here : other = id
    · subst here
      rw [Function.update_self]
      have left : (x : Int) < x + (w + 2) := by omega
      have top : (y : Int) < y + (h + titlebarH + 2) := by
        rw [titlebarH]
        omega
      exact ⟨x, placed, hit_iff_within.mpr ⟨rfl, le_refl x, left, le_refl y, top⟩⟩
    · rw [Function.update_of_ne here] at visible ⊢
      exact shows other inside visible

theorem Wm.WithinReach.focusWindow (reach : wm.WithinReach) (id : Int) :
    (wm.wmFocusWindow id).WithinReach where
  sound := (reach.sound.focusWindow id).1
  gripped := reach.gripped.focusWindow id
  showsTops := reach.showsTops.focusWindow id

theorem Wm.WithinReach.destroyWindow (reach : wm.WithinReach) (id : Int) :
    (wm.wmDestroyWindow id).WithinReach where
  sound := (reach.sound.destroyWindow id).1
  gripped := reach.gripped.destroyWindow id
  showsTops := reach.showsTops.destroyWindow id

/-- Each application opens its window on the desktop. -/
theorem appWindow_placed (app : AppType) :
    OnDesktop (appWindow app).x (appWindow app).y ∧ 0 < (appWindow app).w ∧
      0 < (appWindow app).h := by
  cases app
  all_goals exact ⟨⟨by decide, by decide, by decide, by decide⟩, by decide, by decide⟩

theorem Wm.WithinReach.createApp (reach : wm.WithinReach) (app : AppType) (content : Option Nat) :
    (wm.wmCreateWindow (cString (appWindow app).title) (appWindow app).x (appWindow app).y
      (appWindow app).w (appWindow app).h content).1.WithinReach := by
  obtain ⟨placed, wide, tall⟩ := appWindow_placed app
  refine ⟨(reach.sound.createWindow _ _ _ _ _ _).1, reach.gripped.createWindow _ _ _ _ _ _, ?_⟩
  exact reach.showsTops.createWindow _ content placed wide tall

theorem Wm.WithinReach.handleMouse {sample : MouseSample} (reach : wm.WithinReach)
    (inside : sample.OnScreen) :
    (wm.wmHandleMouse sample.mx sample.my sample.buttons).1.WithinReach where
  sound := (reach.sound.handleMouse sample.mx sample.my sample.buttons).1
  gripped := reach.gripped.handleMouse sample.mx sample.my sample.buttons
  showsTops := reach.showsTops.handleMouse reach.gripped inside

theorem wmInit_withinReach (wm : Wm) : (wmInit wm).WithinReach := by
  have hidden : ∀ id < wmMaxWindows, ((wmInit wm).windows id).visible = false := by
    intro id below
    simp [wmInit, below]
  refine ⟨(wm_sound wm []).head, fun id below => .of_hidden (hidden id below), ?_⟩
  intro id below visible
  rw [hidden id below] at visible
  cases visible

end Windows

section Turns

variable {gui : Gui}

theorem Wm.WithinReach.closeWindow (reach : gui.wm.WithinReach) (id : Nat) :
    (gui.closeWindow id).wm.WithinReach := reach.destroyWindow id

theorem Wm.WithinReach.openApp (reach : gui.wm.WithinReach) (app : AppType)
    (content : Option Nat) : (gui.openApp app content).wm.WithinReach := by
  unfold Gui.openApp
  split
  next existing _ => exact reach.focusWindow existing
  next =>
    have created := reach.createApp app content
    dsimp only
    split
    · exact created
    · exact created

/-- A turn of the loop with the pointer on the screen. -/
theorem Wm.WithinReach.mouse {frame : GuiFrame} (reach : gui.wm.WithinReach)
    (inside : MouseSample.OnScreen ⟨frame.mx, frame.my, frame.mb⟩) :
    (gui.mouse frame).wm.WithinReach := by
  have handled := reach.handleMouse inside
  unfold Gui.mouse
  dsimp only
  split
  · split
    · obtain ⟨_, windows⟩ := startMenuClick_tables
        { gui with prevLeft := frame.mb &&& mouseBtnLeft } frame.mx frame.my
      have clicked : (Gui.startMenuClick { gui with prevLeft := frame.mb &&& mouseBtnLeft }
          frame.mx frame.my).1.wm.WithinReach := by
        rw [windows]
        exact reach
      split
      next opened app found =>
        rw [found] at clicked
        exact clicked.openApp app frame.content
      next closed found =>
        rw [found] at clicked
        exact clicked
    · split
      · exact reach
      · split
        · refine Wm.WithinReach.closeWindow ?_ _
          exact handled
        · exact handled
  · exact handled

theorem Wm.WithinReach.key (reach : gui.wm.WithinReach) (key : Int) :
    (gui.key key).wm.WithinReach := by
  unfold Gui.key
  dsimp only
  split
  · split
    · exact reach.closeWindow _
    · exact reach
  · exact reach

theorem Wm.WithinReach.keys (reach : gui.wm.WithinReach) (keys : List Int) :
    (keys.foldl Gui.key gui).wm.WithinReach := by
  induction keys generalizing gui with
  | nil => exact reach
  | cons key rest ih => exact ih (reach.key key)

end Turns

section Runs

variable {desktop after : PointedDesktop}

theorem PointedDesktop.Sound.tabletStep {bufs : Word} {action : InputAction}
    {tablet : MouseSystem} (sound : desktop.Sound)
    (moved : desktop.tablet.step bufs action = some tablet) :
    PointedDesktop.Sound { desktop with tablet := tablet } :=
  ⟨sound.tablet.step moved, sound.wm⟩

theorem PointedDesktop.Sound.step {bufs : Word} {action : PointedAction} (sound : desktop.Sound)
    (stepped : desktop.step bufs action = some after) : after.Sound := by
  unfold PointedDesktop.step at stepped
  split at stepped
  next =>
    obtain ⟨_, called⟩ := Option.ite_none_right_eq_some.mp stepped
    obtain ⟨tablet, moved, rfl⟩ := Option.map_eq_some_iff.mp called
    exact sound.tabletStep moved
  next =>
    obtain ⟨tablet, moved, rfl⟩ := Option.map_eq_some_iff.mp stepped
    exact sound.tabletStep moved
  next content keys =>
    obtain ⟨mouse, read, turned⟩ := Option.bind_eq_some_iff.mp stepped
    obtain ⟨gui, moved, rfl⟩ := Option.map_eq_some_iff.mp turned
    obtain rfl := Option.some.inj moved
    obtain ⟨left, right, top, bottom, _⟩ :=
      sound.tablet.samples mouse (List.mem_of_getElem? read)
    refine ⟨sound.tablet, ?_⟩
    have inside : MouseSample.OnScreen ⟨mouse.x, mouse.y, mouse.btns⟩ := ⟨left, right, top, bottom⟩
    exact (sound.wm.mouse inside).keys keys

/-- Whatever the tablet reports, the keys ask for and the page allocator returns, from boot on. -/
theorem pointedDesktop_neverStrands (bufs : Word) (input : InputSystem) (available active : Bool)
    (wm : Wm) (actions : List PointedAction) :
    Transition.EveryState (PointedDesktop.step bufs) (fun desktop => desktop.gui.wm.NoneStranded)
      (.boot (.boot input available active) wm) actions := by
  have start : PointedDesktop.Sound (.boot (.boot input available active) wm) :=
    ⟨mouseBoot_onScreen input available active, wmInit_withinReach wm⟩
  refine (Transition.everyState_of_invariant ?_ start actions).mono ?_
  · exact fun desktop action after sound stepped => sound.step stepped
  · exact fun desktop sound => sound.wm.noneStranded

end Runs

end DragoonKernel
