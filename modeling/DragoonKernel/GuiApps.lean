import DragoonKernel.GuiCore
import DragoonKernel.WmDrag

/-! `win_app_type` and the table of windows agree at the top of the loop of `gui_main`. -/

namespace DragoonKernel

structure Gui.TablesAgree (gui : Gui) : Prop where
  shown : ∀ id < wmMaxWindows, gui.winAppType id ≠ .none ↔ (gui.wm.windows id).visible = true
  single : ∀ id < wmMaxWindows, ∀ other < wmMaxWindows, (gui.wm.windows id).visible = true →
    (gui.wm.windows other).visible = true → gui.winAppType id = gui.winAppType other → id = other

variable {gui after : Gui}

/-- Neither table changes. -/
theorem Gui.TablesAgree.keep (agree : gui.TablesAgree) (types : after.winAppType = gui.winAppType)
    (visible : ∀ id, (after.wm.windows id).visible = (gui.wm.windows id).visible) :
    after.TablesAgree := by
  constructor
  · intro id below
    rw [types, visible]
    exact agree.shown id below
  · intro id below other inside
    rw [types, visible, visible]
    exact agree.single id below other inside

theorem Gui.TablesAgree.closeWindow (agree : gui.TablesAgree) (id : Nat) :
    (gui.closeWindow id).TablesAgree := by
  have hidden : ∀ other < wmMaxWindows, ((gui.closeWindow id).wm.windows other).visible = true ↔
      (gui.wm.windows other).visible = true ∧ other ≠ id := by
    intro other below
    cases shown : gui.wm.visibleId id with
    | none =>
        simp only [Gui.closeWindow, Wm.wmDestroyWindow, shown]
        refine ⟨fun visible => ⟨visible, ?_⟩, And.left⟩
        rintro rfl
        cases shown.symm.trans (visibleId_eq_some.mpr ⟨rfl, below, visible⟩)
    | some slot =>
        obtain ⟨same, _, _⟩ := visibleId_eq_some.mp shown
        obtain rfl := Int.ofNat_inj.mp same
        rw [Gui.closeWindow, ((destroyWindow_windows shown).2 other).visible, Wm.hiding]
        by_cases here : other = id
        · simp [here]
        · simp [here]
  constructor
  · intro other below
    rw [hidden other below, ← agree.shown other below]
    simp only [Gui.closeWindow]
    by_cases here : other = id
    · simp [here]
    · simp [here]
  · intro other below third inside visible alsoVisible
    obtain ⟨before, different⟩ := (hidden other below).mp visible
    obtain ⟨alsoBefore, apart⟩ := (hidden third inside).mp alsoVisible
    simp only [Gui.closeWindow, Function.update_of_ne different, Function.update_of_ne apart]
    exact agree.single other below third inside before alsoBefore

theorem Gui.TablesAgree.openApp (agree : gui.TablesAgree) {app : AppType} (proper : app ≠ .none)
    (content : Option Nat) : (gui.openApp app content).TablesAgree := by
  unfold Gui.openApp
  split
  next existing _ =>
    exact agree.keep rfl fun id => ((focusWindow_windows gui.wm existing).2 id).visible
  next missing =>
    have unused : ∀ id < wmMaxWindows, (gui.wm.windows id).visible = true →
        gui.winAppType id ≠ app := by
      intro id below visible same
      have absent := List.find?_eq_none.mp missing id (List.mem_range.mpr below)
      simp [same, visible] at absent
    dsimp only
    obtain ⟨same, _⟩ | ⟨id, below, hidden, ⟨_, same⟩ | ⟨address, _, result, _, table⟩⟩ :=
      createWindow_cases gui.wm (cString (appWindow app).title) (appWindow app).x (appWindow app).y
        (appWindow app).w (appWindow app).h content
    · rw [same]
      exact agree
    · rw [same, if_pos (show (-1 : Int) < 0 by decide)]
      refine agree.keep rfl fun other => ?_
      dsimp only
      refine modify_visible ?_ other
      rfl
    · rw [result, if_neg (by omega), Int.toNat_natCast]
      generalize (gui.wm.wmCreateWindow _ _ _ _ _ _).1 = created at table
      have visible : ∀ other, (created.windows other).visible = true ↔
          other = id ∨ (gui.wm.windows other).visible = true := by
        intro other
        rw [(table other).visible, Wm.showing]
        by_cases here : other = id
        · simp [here]
        · simp [here]
      constructor
      · intro other inside
        rw [visible, ← agree.shown other inside]
        by_cases here : other = id
        · simp [here, proper]
        · simp [here]
      · intro other inside third bound
        simp only [visible]
        by_cases here : other = id <;> by_cases there : third = id
        · exact fun _ _ _ => here.trans there.symm
        · intro _ shown same
          have alone := unused third bound (shown.resolve_left there)
          simp [here, there] at same
          exact absurd same.symm alone
        · intro shown _ same
          have alone := unused other inside (shown.resolve_left here)
          simp [here, there] at same
          exact absurd same alone
        · intro shown alsoShown same
          simp only [Function.update_of_ne here, Function.update_of_ne there] at same
          exact agree.single other inside third bound (shown.resolve_left here)
            (alsoShown.resolve_left there) same

theorem menuItemAt_mem {my : Int} {apps : List AppType} {iy : Int} {app : AppType}
    (found : menuItemAt my apps iy = some app) : app ∈ apps := by
  induction apps generalizing iy with
  | nil => cases found
  | cons first rest ih =>
      simp only [menuItemAt] at found
      split at found
      · obtain rfl := Option.some.inj found
        exact List.mem_cons_self
      · exact List.mem_cons_of_mem _ (ih found)

theorem startMenuClick_tables (gui : Gui) (mx my : Int) :
    (gui.startMenuClick mx my).1.winAppType = gui.winAppType ∧
      (gui.startMenuClick mx my).1.wm = gui.wm := by
  unfold Gui.startMenuClick
  split
  · exact ⟨rfl, rfl⟩
  · split <;> exact ⟨rfl, rfl⟩

theorem startMenuClick_ne_none {gui : Gui} {mx my : Int} {app : AppType}
    (chosen : (gui.startMenuClick mx my).2 = some app) : app ≠ .none := by
  unfold Gui.startMenuClick at chosen
  split at chosen
  · cases chosen
  · split at chosen
    · cases chosen
    · rintro rfl
      exact absurd (menuItemAt_mem chosen) (by decide)

theorem Gui.TablesAgree.mouse (agree : gui.TablesAgree) (frame : GuiFrame) :
    (gui.mouse frame).TablesAgree := by
  have moved : ∀ after : Gui, after.winAppType = gui.winAppType →
      after.wm = (gui.wm.wmHandleMouse frame.mx frame.my frame.mb).1 → after.TablesAgree := by
    intro after types same
    refine agree.keep types fun id => ?_
    rw [same]
    exact (handleMouse_visible gui.wm frame.mx frame.my frame.mb id).1
  unfold Gui.mouse
  dsimp only
  split
  · split
    · obtain ⟨types, windows⟩ := startMenuClick_tables
        { gui with prevLeft := frame.mb &&& mouseBtnLeft } frame.mx frame.my
      have clicked : (Gui.startMenuClick { gui with prevLeft := frame.mb &&& mouseBtnLeft }
          frame.mx frame.my).1.TablesAgree :=
        agree.keep types fun id => by rw [windows]
      split
      next opened app found =>
        have proper := startMenuClick_ne_none (congrArg Prod.snd found)
        rw [found] at clicked
        exact clicked.openApp proper frame.content
      next closed found =>
        rw [found] at clicked
        exact clicked
    · split
      · exact agree.keep rfl fun _ => rfl
      · split
        · refine Gui.TablesAgree.closeWindow ?_ _
          exact moved _ rfl rfl
        · exact moved _ rfl rfl
  · exact moved _ rfl rfl

theorem Gui.TablesAgree.key (agree : gui.TablesAgree) (key : Int) : (gui.key key).TablesAgree := by
  unfold Gui.key
  dsimp only
  split
  · split
    · exact agree.closeWindow _
    · exact agree
  · exact agree

theorem Gui.TablesAgree.keys (agree : gui.TablesAgree) (keys : List Int) :
    (keys.foldl Gui.key gui).TablesAgree := by
  induction keys generalizing gui with
  | nil => exact agree
  | cons key rest ih => exact ih (agree.key key)

theorem guiInit_tablesAgree (wm : Wm) : (guiInit wm).TablesAgree := by
  have hidden : ∀ id < wmMaxWindows, ((guiInit wm).wm.windows id).visible = false := by
    intro id below
    simp [guiInit, wmInit, below]
  constructor
  · intro id below
    simp [guiInit, wmInit, below]
  · intro id below other _ visible
    rw [hidden id below] at visible
    cases visible

/-- Whatever the mouse, the keys and the page allocator do. -/
theorem gui_tablesAgree (wm : Wm) (frames : List GuiFrame) :
    Transition.EveryState Gui.step Gui.TablesAgree (guiInit wm) frames := by
  refine Transition.everyState_of_invariant ?_ (guiInit_tablesAgree wm) frames
  intro gui frame after agree stepped
  obtain rfl := Option.some.inj stepped
  exact (agree.mouse frame).keys frame.keys

end DragoonKernel
