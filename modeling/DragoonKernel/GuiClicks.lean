import DragoonKernel.GuiCore
import DragoonKernel.WmDrag

/-!
What a press of the left button causes. `gui_main` and the window manager both look for the
press, and the window manager is not given the samples that the start menu takes.
-/

namespace DragoonKernel

/-- The sample turns the left button from up to down. -/
def Gui.Presses (gui : Gui) (frame : GuiFrame) : Prop :=
  LeftDown frame.mb ∧ gui.prevLeft = 0

instance (buttons : BitVec 32) : Decidable (LeftDown buttons) :=
  inferInstanceAs (Decidable (buttons &&& mouseBtnLeft ≠ 0))

instance (gui : Gui) (frame : GuiFrame) : Decidable (gui.Presses frame) :=
  inferInstanceAs (Decidable (_ ∧ _))

/-- The turn selects from the start menu, dismisses it or toggles it. -/
def Gui.menuActs (gui : Gui) (frame : GuiFrame) : Bool :=
  decide (gui.Presses frame) && (gui.startMenuOpen ||
    decide (frame.my ≥ fbHeight - taskbarH ∧ frame.mx < startBtnW))

/-- The call of `wm_handle_mouse` passes its click test and acts on a window. -/
def Wm.clickActs (wm : Wm) (mx my : Int) (buttons : BitVec 32) : Bool :=
  wm.dragged.isNone && decide (LeftDown buttons) && !decide (LeftDown wm.prevButtons) &&
    (wm.clickTarget mx my).isSome

/-- The turn hands its sample to the window manager, which takes it for a click on a window. -/
def Gui.windowActs (gui : Gui) (frame : GuiFrame) : Bool :=
  !gui.menuActs frame && gui.wm.clickActs frame.mx frame.my frame.mb

/-- The loop with the number of actions since the last press. -/
structure PressRun where
  gui : Gui
  menu : Nat
  windows : Nat

def PressRun.step (run : PressRun) (frame : GuiFrame) : Option PressRun :=
  (run.gui.step frame).map fun gui => {
    gui := gui
    menu := (if run.gui.Presses frame then 0 else run.menu) + (run.gui.menuActs frame).toNat
    windows := (if run.gui.Presses frame then 0 else run.windows) +
      (run.gui.windowActs frame).toNat }

def PressRun.start (wm : Wm) : PressRun := ⟨guiInit wm, 0, 0⟩

/-- The last press has caused one action at most, by the menu or by the windows. -/
def PressRun.OneAction (run : PressRun) : Prop := run.menu + run.windows ≤ 1

/-- While a press that the window manager has not seen is held, the pointer is on no window
and on no button of the taskbar. -/
def PressRun.HeldClear (run : PressRun) (frame : GuiFrame) (_after : PressRun) : Prop :=
  LeftDown frame.mb → run.gui.prevLeft ≠ 0 → ¬LeftDown run.gui.wm.prevButtons →
    run.gui.wm.clickTarget frame.mx frame.my = none

structure PressRun.Sound (run : PressRun) : Prop where
  drags : run.gui.wm.DragHeld
  seen : LeftDown run.gui.wm.prevButtons → run.gui.prevLeft ≠ 0
  consumed : run.gui.prevLeft ≠ 0 → ¬LeftDown run.gui.wm.prevButtons →
    run.menu = 1 ∧ run.windows = 0
  total : run.OneAction

variable {wm : Wm} {gui after : Gui} {frame : GuiFrame}

theorem clickActs_iff {mx my : Int} {buttons : BitVec 32} : wm.clickActs mx my buttons = true ↔
    wm.dragged = none ∧ LeftDown buttons ∧ ¬LeftDown wm.prevButtons ∧
      ∃ id, wm.clickTarget mx my = some id := by
  simp only [Wm.clickActs, Bool.and_eq_true, Option.isNone_iff_eq_none, decide_eq_true_eq,
    Bool.not_eq_true', decide_eq_false_iff_not, Option.isSome_iff_exists, and_assoc]

/-- A click that acts ends at a button of the taskbar or at a window, and focuses it. -/
theorem handleMouse_acts {mx my : Int} {buttons : BitVec 32}
    (acts : wm.clickActs mx my buttons = true) : ∃ id, wm.clickTarget mx my = some id ∧
      (wm.wmHandleMouse mx my buttons =
          (Wm.wmFocusWindow { wm with prevButtons := buttons } id, -1) ∨
        wm.wmHandleMouse mx my buttons =
          (Wm.wmFocusWindow { wm with prevButtons := buttons } id).clickWindow id mx my) := by
  obtain ⟨undragged, down, up, target, hits⟩ := clickActs_iff.mp acts
  have handles := handleMouse_handles wm mx my buttons
  generalize wm.wmHandleMouse mx my buttons = result at handles
  cases handles with
  | drop id first _ _ => cases undragged.symm.trans first
  | drag id first _ => cases undragged.symm.trans first
  | still _ noClick => exact absurd (noClick down) up
  | miss _ _ _ missed _ _ => cases hits.symm.trans missed
  | button id _ _ _ hit _ => exact ⟨id, hit, .inl rfl⟩
  | window id _ _ _ hit _ => exact ⟨id, hit, .inr rfl⟩

/-- Any other call focuses and closes nothing, and starts no drag. -/
theorem handleMouse_rests {mx my : Int} {buttons : BitVec 32}
    (rests : wm.clickActs mx my buttons = false) :
    (wm.wmHandleMouse mx my buttons).1.stack = wm.stack ∧
      ((wm.wmHandleMouse mx my buttons).2 = -1 ∨ (wm.wmHandleMouse mx my buttons).2 = -2) ∧
      ∀ id, (wm.wmHandleMouse mx my buttons).1.Dragging id → wm.Dragging id := by
  have handles := handleMouse_handles wm mx my buttons
  have idle := Bool.eq_false_iff.mp rests
  generalize wm.wmHandleMouse mx my buttons = result at handles
  cases handles with
  | drop slot first up held =>
      dsimp only
      exact ⟨rfl, .inl rfl, fun id dragging => dragging_of_modify first dragging⟩
  | drag slot first goesOn =>
      dsimp only
      exact ⟨rfl, .inl rfl, fun id dragging => dragging_of_modify first dragging⟩
  | still undragged noClick => exact ⟨rfl, .inl rfl, fun id dragging => dragging⟩
  | miss undragged down up missed result signal => exact ⟨rfl, signal, fun id dragging => dragging⟩
  | button id undragged down up hit low =>
      exact absurd (clickActs_iff.mpr ⟨undragged, down, up, id, hit⟩) idle
  | window id undragged down up hit inside =>
      exact absurd (clickActs_iff.mpr ⟨undragged, down, up, id, hit⟩) idle

/-- What the two edge detectors read besides the sample. -/
def Gui.SameEdges (gui after : Gui) : Prop :=
  after.prevLeft = gui.prevLeft ∧ after.wm.prevButtons = gui.wm.prevButtons ∧
    (gui.wm.DragHeld → after.wm.DragHeld)

theorem Gui.SameEdges.refl (gui : Gui) : gui.SameEdges gui := ⟨rfl, rfl, fun drags => drags⟩

theorem Gui.SameEdges.trans {middle : Gui} (first : gui.SameEdges middle)
    (second : middle.SameEdges after) : gui.SameEdges after :=
  ⟨second.1.trans first.1, second.2.1.trans first.2.1, fun drags => second.2.2 (first.2.2 drags)⟩

theorem handleMouse_buttons (wm : Wm) (mx my : Int) (buttons : BitVec 32) :
    (wm.wmHandleMouse mx my buttons).1.prevButtons = buttons := by
  have stepped : wm.step (.handleMouse mx my buttons) =
    some (wm.wmHandleMouse mx my buttons).1 := rfl
  exact Wm.step_storesButtons stepped

theorem closeWindow_edges (gui : Gui) (id : Nat) : gui.SameEdges (gui.closeWindow id) := by
  have stepped : gui.wm.step (.destroyWindow id) = some (gui.wm.wmDestroyWindow id) := rfl
  exact ⟨rfl, Wm.step_storesButtons stepped, fun drags => drags.destroyWindow id⟩

theorem openApp_edges (gui : Gui) (app : AppType) (content : Option Nat) :
    gui.SameEdges (gui.openApp app content) := by
  unfold Gui.openApp
  split
  next existing _ =>
    exact ⟨rfl, (focusWindow_windows gui.wm existing).1, fun drags => drags.focusWindow existing⟩
  next =>
    have created : ∀ title x y w h, (gui.wm.wmCreateWindow title x y w h content).1.prevButtons =
        gui.wm.prevButtons :=
      fun title x y w h => (createWindow_dragging gui.wm title x y w h content).1
    dsimp only
    split
    all_goals exact ⟨rfl, created _ _ _ _ _, fun drags => drags.createWindow _ _ _ _ _ content⟩

theorem key_edges (gui : Gui) (key : Int) : gui.SameEdges (gui.key key) := by
  unfold Gui.key
  dsimp only
  split
  · split
    · exact closeWindow_edges gui _
    · exact .refl gui
  · exact .refl gui

theorem keys_edges (gui : Gui) (keys : List Int) : gui.SameEdges (keys.foldl Gui.key gui) := by
  induction keys generalizing gui with
  | nil => exact .refl gui
  | cons key rest ih => exact (key_edges gui key).trans (ih (gui.key key))

theorem startMenuClick_edges (gui : Gui) (mx my : Int) :
    gui.SameEdges (gui.startMenuClick mx my).1 := by
  unfold Gui.startMenuClick
  split
  · exact .refl gui
  · split
    · exact ⟨rfl, rfl, fun drags => drags⟩
    · exact ⟨rfl, rfl, fun drags => drags⟩

/-- The samples that the start menu takes, and the samples for the window manager. -/
theorem mouse_edges (gui : Gui) (frame : GuiFrame) :
    (gui.mouse frame).prevLeft = frame.mb &&& mouseBtnLeft ∧
      (gui.menuActs frame = true → (gui.mouse frame).wm.prevButtons = gui.wm.prevButtons) ∧
      (gui.menuActs frame = false → (gui.mouse frame).wm.prevButtons = frame.mb) ∧
      (gui.wm.DragHeld → (gui.mouse frame).wm.DragHeld) := by
  have stored := handleMouse_buttons gui.wm frame.mx frame.my frame.mb
  have handled : gui.wm.DragHeld →
      (gui.wm.wmHandleMouse frame.mx frame.my frame.mb).1.DragHeld :=
    fun drags => drags.handleMouse frame.mx frame.my frame.mb
  -- one of the first two branches is taken exactly when the menu acts
  by_cases press : frame.mb &&& mouseBtnLeft ≠ 0 ∧ gui.prevLeft = 0
  · have presses : gui.Presses frame := press
    by_cases opened : gui.startMenuOpen = true
    · have acts : gui.menuActs frame = true := by simp [Gui.menuActs, presses, opened]
      have branch : ({ gui with prevLeft := frame.mb &&& mouseBtnLeft } : Gui).SameEdges
          (gui.mouse frame) := by
        have clicked := startMenuClick_edges { gui with prevLeft := frame.mb &&& mouseBtnLeft }
          frame.mx frame.my
        unfold Gui.mouse
        dsimp only
        rw [if_pos press, if_pos opened]
        split
        next after app found =>
          rw [found] at clicked
          exact clicked.trans (openApp_edges _ app frame.content)
        next after found =>
          rw [found] at clicked
          exact clicked
      refine ⟨branch.1, fun _ => branch.2.1, fun rests => ?_, branch.2.2⟩
      cases acts.symm.trans rests
    · by_cases button : frame.my ≥ fbHeight - taskbarH ∧ frame.mx < startBtnW
      · have acts : gui.menuActs frame = true := by simp [Gui.menuActs, presses, button]
        unfold Gui.mouse
        dsimp only
        rw [if_pos press, if_neg opened, if_pos button]
        refine ⟨rfl, fun _ => rfl, fun rests => ?_, fun drags => drags⟩
        cases acts.symm.trans rests
      · have rests : gui.menuActs frame = false := by
          rw [Gui.menuActs, Bool.eq_false_iff.mpr opened, decide_eq_false button, Bool.or_false,
            Bool.and_false]
        unfold Gui.mouse
        dsimp only
        rw [if_pos press, if_neg opened, if_neg button, if_neg opened]
        split
        · have closed := closeWindow_edges { gui with
            wm := (gui.wm.wmHandleMouse frame.mx frame.my frame.mb).1
            prevLeft := frame.mb &&& mouseBtnLeft }
            (-((gui.wm.wmHandleMouse frame.mx frame.my frame.mb).2 + 100)).toNat
          refine ⟨closed.1, fun acts => ?_, fun _ => closed.2.1.trans stored,
            fun drags => closed.2.2 (handled drags)⟩
          cases acts.symm.trans rests
        · refine ⟨rfl, fun acts => ?_, fun _ => stored, handled⟩
          cases acts.symm.trans rests
  · have released : ¬gui.Presses frame := press
    have rests : gui.menuActs frame = false := by simp [Gui.menuActs, released]
    unfold Gui.mouse
    dsimp only
    rw [if_neg press]
    refine ⟨rfl, fun acts => ?_, fun _ => stored, handled⟩
    cases acts.symm.trans rests

theorem PressRun.Sound.undragged {run : PressRun} (sound : run.Sound)
    (unseen : ¬LeftDown run.gui.wm.prevButtons) : run.gui.wm.dragged = none :=
  dragged_of_not_dragging fun id dragging => unseen (sound.drags.held id dragging)

/-- A turn without a press adds an action only where the held press was not seen before. -/
theorem windowActs_held {run : PressRun}
    (held : ¬run.gui.Presses frame) (acts : run.gui.windowActs frame = true) :
    LeftDown frame.mb ∧ run.gui.prevLeft ≠ 0 ∧ ¬LeftDown run.gui.wm.prevButtons ∧
      ∃ id, run.gui.wm.clickTarget frame.mx frame.my = some id := by
  rw [Gui.windowActs, Bool.and_eq_true] at acts
  obtain ⟨_, down, unseen, target⟩ := clickActs_iff.mp acts.2
  exact ⟨down, fun up => held ⟨down, up⟩, unseen, target⟩

theorem PressRun.Sound.step {run after : PressRun} (sound : run.Sound)
    (stepped : run.step frame = some after) (clear : run.HeldClear frame after) : after.Sound := by
  obtain rfl := Option.some.inj stepped
  obtain ⟨left, taken, given, drags⟩ := mouse_edges run.gui frame
  obtain ⟨sameLeft, sameButtons, keepsDrags⟩ := keys_edges (run.gui.mouse frame) frame.keys
  have newLeft := sameLeft.trans left
  have atRest : run.gui.windowActs frame = true → run.gui.Presses frame := by
    intro acts
    by_contra held
    obtain ⟨down, notNew, unseen, id, target⟩ := windowActs_held held acts
    cases target.symm.trans (clear down notNew unseen)
  have apart : run.gui.menuActs frame = true → run.gui.windowActs frame = false := by
    intro acts
    rw [Gui.windowActs, acts]
    rfl
  have pressed : run.gui.menuActs frame = true → run.gui.Presses frame := by
    intro acts
    rw [Gui.menuActs, Bool.and_eq_true, decide_eq_true_eq] at acts
    exact acts.1
  refine ⟨keepsDrags (drags sound.drags), ?_, ?_, ?_⟩
  · intro seen
    rw [newLeft]
    rw [sameButtons] at seen
    cases acts : run.gui.menuActs frame with
    | true => exact (pressed acts).1
    | false =>
        rw [given acts] at seen
        exact seen
  · intro held unseen
    rw [newLeft] at held
    rw [sameButtons] at unseen
    cases acts : run.gui.menuActs frame with
    | true => simp [pressed acts, apart acts]
    | false =>
        rw [given acts] at unseen
        exact absurd held unseen
  · have total := sound.total
    simp only [PressRun.OneAction] at total ⊢
    by_cases press : run.gui.Presses frame
    · rw [if_pos press, if_pos press]
      cases acts : run.gui.menuActs frame with
      | true => simp [apart acts]
      | false => simpa using Bool.toNat_le _
    · have noMenu := Bool.eq_false_iff.mpr fun acts => press (pressed acts)
      have noWindow := Bool.eq_false_iff.mpr fun acts => press (atRest acts)
      rw [if_neg press, if_neg press, noMenu, noWindow]
      exact total

/-- The sample of a held press that the menu has consumed is a second click. -/
theorem PressRun.Sound.spoiled {run after : PressRun} (sound : run.Sound)
    (stepped : run.step frame = some after) (reaches : ¬run.HeldClear frame after) :
    ¬after.OneAction := by
  obtain rfl := Option.some.inj stepped
  simp only [PressRun.HeldClear, Classical.not_imp] at reaches
  obtain ⟨down, notNew, unseen, target⟩ := reaches
  have held : ¬run.gui.Presses frame := fun press => notNew press.2
  have noMenu : run.gui.menuActs frame = false := by simp [Gui.menuActs, held]
  have acts : run.gui.windowActs frame = true := by
    rw [Gui.windowActs, noMenu, Bool.not_false, Bool.true_and]
    exact clickActs_iff.mpr ⟨sound.undragged unseen, down, unseen,
      Option.ne_none_iff_exists'.mp target⟩
  obtain ⟨menu, windows⟩ := sound.consumed notNew unseen
  simp only [PressRun.OneAction, if_neg held, acts, noMenu, menu, windows]
  decide

/-- Every press causes one action at most exactly when no held press of the start menu meets a
window. -/
theorem gui_onePressOneAction_iff (frames : List GuiFrame) :
    Transition.EveryState PressRun.step PressRun.OneAction (.start wmStatic) frames ↔
      Transition.EveryStep PressRun.step PressRun.HeldClear (.start wmStatic) frames := by
  have start : (PressRun.start wmStatic).Sound := by
    refine ⟨.of_none ?_, fun seen => ?_, fun held => absurd rfl held, Nat.zero_le 1⟩
    · rintro id ⟨_, dragging⟩
      simp [PressRun.start, guiInit, wmInit, wmStatic] at dragging
    · exact absurd rfl seen
  refine Transition.everyState_iff_everyStep (fun _ sound => sound.total) ?_ ?_ start frames
  · exact fun run frame after sound stepped clear => sound.step stepped clear
  · exact fun run frame after sound stepped reaches => sound.spoiled stepped reaches

/-- The start button, then the item "Terminal", which is held for two samples. -/
def heldSelection : List GuiFrame := [⟨10, 470, 1, none, []⟩, ⟨10, 470, 0, none, []⟩,
  ⟨130, 340, 1, some 0, []⟩, ⟨130, 340, 1, none, []⟩]

theorem gui_not_onePressOneAction :
    ¬Transition.EveryState PressRun.step PressRun.OneAction (.start wmStatic) heldSelection := by
  intro all
  have reached : (Transition.exec PressRun.step (.start wmStatic) heldSelection).map (fun run =>
      (run.menu, run.windows)) = some (1, 1) := by decide +kernel
  obtain ⟨run, ran, counts⟩ := Option.map_eq_some_iff.mp reached
  obtain ⟨menu, windows⟩ := Prod.mk.inj counts
  have total := all.last ran
  rw [PressRun.OneAction, menu, windows] at total
  exact absurd total (by decide)

end DragoonKernel
