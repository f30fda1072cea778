import DragoonKernel.WmCalls

/-!
Drags over the calls of the window manager: who can be dragged, and that closing a window in
the middle of a drag is the one call that leaves a drag without its window.
-/

namespace DragoonKernel

def Wm.Dragging (wm : Wm) (id : Nat) : Prop :=
  id < wmMaxWindows ∧ (wm.windows id).dragging = true

/-- At most one window is dragged, and only while the left button is down. -/
structure Wm.DragHeld (wm : Wm) : Prop where
  single : ∀ id other, wm.Dragging id → wm.Dragging other → id = other
  held : ∀ id, wm.Dragging id → LeftDown wm.prevButtons

/-- The window that is dragged is shown, too. -/
structure Wm.DragSound (wm : Wm) : Prop extends wm.DragHeld where
  visible : ∀ id, wm.Dragging id → (wm.windows id).visible = true

/-- The call does not destroy the window that is dragged. -/
def Wm.ClosesUndragged (wm : Wm) (action : WmAction) (_after : Wm) : Prop :=
  match action with
  | .destroyWindow id => ∀ slot, wm.visibleId id = some slot → (wm.windows slot).dragging = false
  | _ => True

/-- What the last call of `wm_handle_mouse` was given. -/
def Wm.StoresButtons (wm : Wm) (action : WmAction) (after : Wm) : Prop :=
  match action with
  | .handleMouse _ _ buttons => after.prevButtons = buttons
  | _ => after.prevButtons = wm.prevButtons

variable {wm after : Wm}

theorem not_dragging (undragged : wm.dragged = none) (id : Nat) : ¬wm.Dragging id := by
  rintro ⟨below, dragging⟩
  rw [dragged_eq_none.mp undragged id below] at dragging
  cases dragging

theorem dragged_of_not_dragging (nothing : ∀ id, ¬wm.Dragging id) : wm.dragged = none :=
  dragged_eq_none.mpr fun id below => Bool.eq_false_iff.mpr fun dragging => nothing id ⟨below, dragging⟩

theorem Wm.DragHeld.of_none (nothing : ∀ id, ¬wm.Dragging id) : wm.DragHeld where
  single id _ dragging := absurd dragging (nothing id)
  held id dragging := absurd dragging (nothing id)

/-- A drag that goes on, or starts, at `id` alone. -/
theorem Wm.DragHeld.of_one (id : Nat) (only : ∀ other, wm.Dragging other → other = id)
    (held : LeftDown wm.prevButtons) : wm.DragHeld where
  single first second one two := (only first one).trans (only second two).symm
  held _ _ := held

theorem Wm.DragHeld.fewer (drags : wm.DragHeld) (buttons : after.prevButtons = wm.prevButtons)
    (fewer : ∀ id, after.Dragging id → wm.Dragging id) : after.DragHeld where
  single id other one two := drags.single id other (fewer id one) (fewer other two)
  held id dragging := buttons ▸ drags.held id (fewer id dragging)

theorem focusWindow_dragging (wm : Wm) (id : Int) (other : Nat) :
    (wm.wmFocusWindow id).Dragging other ↔ wm.Dragging other := by
  rw [Wm.Dragging, Wm.Dragging, ((focusWindow_windows wm id).2 other).dragging]

theorem focusWindow_undragged (undragged : wm.dragged = none) (buttons : BitVec 32) (id : Int)
    (other : Nat) : ¬(Wm.wmFocusWindow { wm with prevButtons := buttons } id).Dragging other := by
  rw [focusWindow_dragging]
  have idle : Wm.dragged { wm with prevButtons := buttons } = none := undragged
  exact not_dragging idle other

/-- A creation does not start a drag, and it changes the window of one hidden slot. -/
theorem createWindow_dragging (wm : Wm) (title : List (BitVec 8)) (x y w h : Int)
    (content : Option Nat) :
    (wm.wmCreateWindow title x y w h content).1.prevButtons = wm.prevButtons ∧
      ∀ id, (wm.wmCreateWindow title x y w h content).1.Dragging id → wm.Dragging id ∧
        ((wm.windows id).visible = true →
          ((wm.wmCreateWindow title x y w h content).1.windows id).visible = true) := by
  obtain ⟨same, _⟩ | ⟨slot, below, hidden, ⟨_, same⟩ | ⟨address, _, _, buttons, table⟩⟩ :=
    createWindow_cases wm title x y w h content
  · rw [same]
    exact ⟨rfl, fun id dragging => ⟨dragging, fun visible => visible⟩⟩
  · rw [same]
    refine ⟨rfl, fun id dragging => ?_⟩
    by_cases here : id = slot
    · subst here
      rw [Wm.Dragging, modify_self] at dragging
      exact ⟨dragging, fun visible => by rw [hidden] at visible; cases visible⟩
    · rw [Wm.Dragging, modify_other wm _ here] at dragging
      exact ⟨dragging, fun visible => by rw [modify_other wm _ here]; exact visible⟩
  · refine ⟨buttons, fun id dragging => ?_⟩
    rw [Wm.Dragging, (table id).dragging] at dragging
    rw [(table id).visible]
    simp only [Wm.showing] at dragging ⊢
    by_cases here : id = slot
    · -- the slot of the new window is not dragged any more
      subst here
      rw [Function.update_self] at dragging
      cases dragging.2
    · rw [Function.update_of_ne here] at dragging ⊢
      exact ⟨dragging, fun visible => visible⟩

theorem destroyWindow_dragging {id : Int} {slot : Nat} (shown : wm.visibleId id = some slot)
    (other : Nat) : (wm.wmDestroyWindow id).Dragging other ↔ wm.Dragging other := by
  rw [Wm.Dragging, Wm.Dragging, ((destroyWindow_windows shown).2 other).dragging, Wm.hiding]
  by_cases here : other = slot
  · subst here
    rw [Function.update_self]
  · rw [Function.update_of_ne here]

theorem Wm.DragHeld.createWindow (drags : wm.DragHeld) (title : List (BitVec 8))
    (x y w h : Int) (content : Option Nat) :
    (wm.wmCreateWindow title x y w h content).1.DragHeld := by
  obtain ⟨buttons, fewer⟩ := createWindow_dragging wm title x y w h content
  exact drags.fewer buttons fun id dragging => (fewer id dragging).1

theorem Wm.DragHeld.focusWindow (drags : wm.DragHeld) (id : Int) : (wm.wmFocusWindow id).DragHeld :=
  drags.fewer (focusWindow_windows wm id).1 fun other => (focusWindow_dragging wm id other).mp

theorem Wm.DragHeld.destroyWindow (drags : wm.DragHeld) (id : Int) :
    (wm.wmDestroyWindow id).DragHeld := by
  cases shown : wm.visibleId id with
  | none =>
      rw [Wm.wmDestroyWindow, shown]
      exact drags
  | some slot =>
      exact drags.fewer (destroyWindow_windows shown).1 fun other =>
        (destroyWindow_dragging shown other).mp

theorem Wm.DragHeld.handleMouse (drags : wm.DragHeld) (mx my : Int) (buttons : BitVec 32) :
    (wm.wmHandleMouse mx my buttons).1.DragHeld := by
  have handles := handleMouse_handles wm mx my buttons
  generalize wm.wmHandleMouse mx my buttons = result at handles
  cases handles with
  | drop id first up held =>
      refine .of_none ?_
      rintro other ⟨below, dragging⟩
      by_cases here : other = id
      · subst here
        rw [modify_self] at dragging
        cases dragging
      · rw [modify_other _ _ here] at dragging
        exact here (drags.single other id ⟨below, dragging⟩ (dragged_eq_some first))
  | drag id first goesOn =>
      have dragging : wm.Dragging id := dragged_eq_some first
      refine .of_one id ?_ (goesOn.resolve_right (not_not.mpr (drags.held id dragging)))
      rintro other ⟨below, flag⟩
      by_contra here
      rw [modify_other _ _ here] at flag
      exact here (drags.single other id ⟨below, flag⟩ dragging)
  | still undragged noClick => exact .of_none (not_dragging undragged)
  | miss undragged down up missed result signal => exact .of_none (not_dragging undragged)
  | button id undragged down up hit low =>
      exact .of_none (focusWindow_undragged undragged buttons id)
  | window id undragged down up hit inside =>
      have stored := (focusWindow_windows { wm with prevButtons := buttons } id).1
      have idle := focusWindow_undragged undragged buttons id
      rcases clickWindow_cases id mx my with closed | started | client
      · rw [closed]
        exact .of_none idle
      · rw [started]
        refine .of_one id ?_ (show LeftDown (Wm.prevButtons _) from stored ▸ down)
        rintro other ⟨below, flag⟩
        by_contra here
        rw [modify_other _ _ here] at flag
        exact idle other ⟨below, flag⟩
      · rw [client]
        exact .of_none idle

/-- A change to the window that is dragged starts no drag. -/
theorem dragging_of_modify {slot id : Nat} (first : wm.dragged = some slot) {buttons : BitVec 32}
    {change : WmWindow → WmWindow}
    (dragging : (Wm.modify { wm with prevButtons := buttons } slot change).Dragging id) :
    wm.Dragging id := by
  refine ⟨dragging.1, ?_⟩
  have flag := dragging.2
  by_cases here : id = slot
  · exact here ▸ (dragged_eq_some first).2
  · rw [modify_other _ _ here] at flag
    exact flag

/-- No window is shown or hidden by the mouse, and a drag starts at a window that is shown. -/
theorem handleMouse_visible (wm : Wm) (mx my : Int) (buttons : BitVec 32) (id : Nat) :
    ((wm.wmHandleMouse mx my buttons).1.windows id).visible = (wm.windows id).visible ∧
      ((wm.wmHandleMouse mx my buttons).1.Dragging id →
        wm.Dragging id ∨ (wm.windows id).visible = true) := by
  have handles := handleMouse_handles wm mx my buttons
  generalize wm.wmHandleMouse mx my buttons = result at handles
  cases handles with
  | drop slot first up held =>
      dsimp only
      refine ⟨modify_visible ?_ id, fun dragging => .inl (dragging_of_modify first dragging)⟩
      rfl
  | drag slot first goesOn =>
      dsimp only
      refine ⟨modify_visible ?_ id, fun dragging => .inl (dragging_of_modify first dragging)⟩
      rfl
  | still undragged noClick => exact ⟨rfl, .inl⟩
  | miss undragged down up missed result signal => exact ⟨rfl, .inl⟩
  | button slot undragged down up hit low =>
      refine ⟨((focusWindow_windows _ _).2 id).visible, fun dragging => ?_⟩
      exact absurd dragging (focusWindow_undragged undragged buttons slot id)
  | window slot undragged down up hit inside =>
      have same := (focusWindow_windows { wm with prevButtons := buttons } slot).2 id
      have idle := focusWindow_undragged undragged buttons slot id
      rcases clickWindow_cases slot mx my with closed | started | client
      · rw [closed]
        exact ⟨same.visible, fun dragging => absurd dragging idle⟩
      · rw [started]
        dsimp only
        refine ⟨(modify_visible ?_ id).trans same.visible, fun dragging => .inr ?_⟩
        · rfl
        by_cases here : id = slot
        · exact here ▸ (clickTarget_visible hit).2
        · rw [Wm.Dragging, modify_other _ _ here] at dragging
          exact absurd dragging idle
      · rw [client]
        exact ⟨same.visible, fun dragging => absurd dragging idle⟩

theorem Wm.DragSound.createWindow (sound : wm.DragSound) (title : List (BitVec 8))
    (x y w h : Int) (content : Option Nat) :
    (wm.wmCreateWindow title x y w h content).1.DragSound where
  toDragHeld := sound.toDragHeld.createWindow title x y w h content
  visible id dragging := by
    obtain ⟨before, shown⟩ := (createWindow_dragging wm title x y w h content).2 id dragging
    exact shown (sound.visible id before)

theorem Wm.DragSound.focusWindow (sound : wm.DragSound) (id : Int) :
    (wm.wmFocusWindow id).DragSound where
  toDragHeld := sound.toDragHeld.focusWindow id
  visible other dragging := by
    rw [((focusWindow_windows wm id).2 other).visible]
    exact sound.visible other ((focusWindow_dragging wm id other).mp dragging)

theorem Wm.DragSound.destroyWindow (sound : wm.DragSound) {id : Int}
    (idle : ∀ slot, wm.visibleId id = some slot → (wm.windows slot).dragging = false) :
    (wm.wmDestroyWindow id).DragSound where
  toDragHeld := sound.toDragHeld.destroyWindow id
  visible other dragging := by
    cases shown : wm.visibleId id with
    | none =>
        rw [Wm.wmDestroyWindow, shown] at dragging ⊢
        exact sound.visible other dragging
    | some slot =>
        have before := (destroyWindow_dragging shown other).mp dragging
        rw [((destroyWindow_windows shown).2 other).visible, Wm.hiding]
        by_cases here : other = slot
        · rw [here, Wm.Dragging, idle slot shown] at before
          cases before.2
        · rw [Function.update_of_ne here]
          exact sound.visible other before

theorem Wm.DragSound.handleMouse (sound : wm.DragSound) (mx my : Int) (buttons : BitVec 32) :
    (wm.wmHandleMouse mx my buttons).1.DragSound where
  toDragHeld := sound.toDragHeld.handleMouse mx my buttons
  visible id dragging := by
    obtain ⟨same, before⟩ := handleMouse_visible wm mx my buttons id
    rw [same]
    exact (before dragging).elim (sound.visible id) fun visible => visible

theorem Wm.DragSound.step (sound : wm.DragSound) {action : WmAction}
    (stepped : wm.step action = some after) (guarded : wm.ClosesUndragged action after) :
    after.DragSound := by
  cases action with
  | createWindow title x y w h content =>
      obtain rfl := Option.some.inj stepped
      exact sound.createWindow title x y w h content
  | destroyWindow id =>
      obtain rfl := Option.some.inj stepped
      exact sound.destroyWindow guarded
  | focusWindow id =>
      obtain rfl := Option.some.inj stepped
      exact sound.focusWindow id
  | handleMouse mx my buttons =>
      obtain rfl := Option.some.inj stepped
      exact sound.handleMouse mx my buttons

/-- The flag of a window that is destroyed in the middle of its drag stays set. -/
theorem destroyWindow_spoils {action : WmAction} (stepped : wm.step action = some after)
    (unguarded : ¬wm.ClosesUndragged action after) : ¬after.DragSound := by
  intro sound
  cases action with
  | destroyWindow id =>
      obtain rfl := Option.some.inj stepped
      refine unguarded fun slot shown => ?_
      obtain ⟨_, below, _⟩ := visibleId_eq_some.mp shown
      obtain ⟨_, table⟩ := destroyWindow_windows shown
      by_contra dragging
      have kept : (wm.wmDestroyWindow id).Dragging slot := by
        refine ⟨below, ?_⟩
        rw [(table slot).dragging, Wm.hiding, Function.update_self]
        exact Bool.not_eq_false _ ▸ dragging
      have visible := sound.visible slot kept
      rw [(table slot).visible, Wm.hiding, Function.update_self] at visible
      cases visible
  | createWindow title x y w h content => exact unguarded trivial
  | focusWindow id => exact unguarded trivial
  | handleMouse mx my buttons => exact unguarded trivial

theorem Wm.step_storesButtons {action : WmAction} (stepped : wm.step action = some after) :
    wm.StoresButtons action after := by
  cases action with
  | createWindow title x y w h content =>
      obtain rfl := Option.some.inj stepped
      obtain ⟨same, _⟩ | ⟨id, below, hidden, ⟨_, same⟩ | ⟨address, _, _, buttons, _⟩⟩ :=
        createWindow_cases wm title x y w h content
      · exact congrArg (Wm.prevButtons ∘ Prod.fst) same
      · exact congrArg (Wm.prevButtons ∘ Prod.fst) same
      · exact buttons
  | destroyWindow id =>
      obtain rfl := Option.some.inj stepped
      cases shown : wm.visibleId id with
      | none => simp only [Wm.StoresButtons, Wm.wmDestroyWindow, shown]
      | some slot => exact (destroyWindow_windows shown).1
  | focusWindow id =>
      obtain rfl := Option.some.inj stepped
      exact (focusWindow_windows wm id).1
  | handleMouse mx my buttons =>
      obtain rfl := Option.some.inj stepped
      have handles := handleMouse_handles wm mx my buttons
      rw [Wm.StoresButtons]
      generalize wm.wmHandleMouse mx my buttons = result at handles
      have focused : ∀ id : Nat,
          (Wm.wmFocusWindow { wm with prevButtons := buttons } id).prevButtons = buttons :=
        fun id => (focusWindow_windows _ _).1
      cases handles with
      | button id undragged down up hit low => exact focused id
      | window id undragged down up hit inside =>
          rcases clickWindow_cases id mx my with same | same | same
          all_goals
            rw [same]
            exact focused id
      | _ => rfl

theorem wm_storesButtons (wm : Wm) (actions : List WmAction) :
    Transition.EveryStep Wm.step Wm.StoresButtons wm actions := by
  have keeps : ∀ (wm : Wm) action after, True → wm.step action = some after →
      True ∧ wm.StoresButtons action after :=
    fun wm action after _ stepped => ⟨trivial, wm.step_storesButtons stepped⟩
  exact Transition.everyStep_of_invariant keeps trivial actions

/-- Drags are sound in a run from `wm_init` exactly when none of its calls destroys the window
that is dragged. -/
theorem wm_dragSound_iff (actions : List WmAction) :
    Transition.EveryState Wm.step Wm.DragSound (wmInit wmStatic) actions ↔
      Transition.EveryStep Wm.step Wm.ClosesUndragged (wmInit wmStatic) actions := by
  have start : (wmInit wmStatic).DragSound := by
    have idle : ∀ id, ¬(wmInit wmStatic).Dragging id := by
      rintro id ⟨_, dragging⟩
      simp [wmInit, wmStatic] at dragging
    exact ⟨.of_none idle, fun id dragging => absurd dragging (idle id)⟩
  refine Transition.everyState_iff_everyStep (fun _ sound => sound) ?_ ?_ start actions
  · exact fun wm action after sound stepped guarded => sound.step stepped guarded
  · exact fun wm action after _ stepped unguarded => destroyWindow_spoils stepped unguarded

/-- A window is opened, its title bar pressed, and it is closed with the button still down. -/
def closedInDrag : List WmAction :=
  [.createWindow [] 10 10 100 100 (some 0), .handleMouse 50 15 1, .destroyWindow 0]

theorem wm_not_dragSound :
    ¬Transition.EveryState Wm.step Wm.DragSound (wmInit wmStatic) closedInDrag := by
  intro all
  have reached : (Transition.exec Wm.step (wmInit wmStatic) closedInDrag).map (fun wm =>
      ((wm.windows 0).dragging, (wm.windows 0).visible)) = some (true, false) := by decide
  obtain ⟨wm, run, flags⟩ := Option.map_eq_some_iff.mp reached
  obtain ⟨dragging, hidden⟩ := Prod.mk.inj flags
  have visible := (all.last run).visible 0 ⟨by decide, dragging⟩
  rw [hidden] at visible
  cases visible

end DragoonKernel
