import DragoonKernel.WmCore
import DragoonKernel.Library.Transition
import Mathlib.Data.List.Nodup
import Mathlib.Data.Finset.Card

/-!
The stacking order lists the visible windows, the focused one is on top, and no operation
changes the order of the windows that it is not about.
-/

namespace DragoonKernel

structure Wm.Stacked (wm : Wm) : Prop where
  nodup : wm.stack.Nodup
  listed : ∀ id, id ∈ wm.stack ↔ id < wmMaxWindows ∧ (wm.windows id).visible = true
  count : wm.zCount ≤ wmMaxWindows
  focused : ∀ shown < wmMaxWindows, (wm.windows shown).visible = true → 0 < wm.zCount ∧
    ∀ id < wmMaxWindows, ((wm.windows id).visible = true ∧ (wm.windows id).focused = true) ↔
      id = wm.zOrder (wm.zCount - 1)

def Wm.Others (wm : Wm) (id : Int) : List Nat := wm.stack.filter fun (other : Nat) => other ≠ id

/-- Windows other than the one that is focused or destroyed keep their relative order. -/
def Wm.KeepsOrder (wm : Wm) (action : WmAction) (after : Wm) : Prop :=
  match action with
  | .createWindow _ _ _ _ _ _ =>
      after.stack = wm.stack ∨ ∃ id ∉ wm.stack, after.stack = wm.stack ++ [id]
  | .destroyWindow id | .focusWindow id => after.Others id = wm.Others id
  | .handleMouse _ _ _ => ∃ id, after.Others id = wm.Others id

structure Wm.Listed (wm : Wm) : Prop where
  nodup : wm.stack.Nodup
  listed : ∀ id, id ∈ wm.stack ↔ id < wmMaxWindows ∧ (wm.windows id).visible = true
  framed : ∀ id ∈ wm.stack, (wm.windows id).content ≠ none ∧
    (wm.windows id).w = (wm.windows id).contentW + 2 ∧
    (wm.windows id).h = (wm.windows id).contentH + titlebarH + 2

structure Wm.Sound (wm : Wm) : Prop extends wm.Listed where
  focused : ∀ id ∈ wm.stack, (wm.windows id).focused = true ↔ wm.stack.getLast? = some id

variable {wm : Wm}

@[simp] theorem stack_length (wm : Wm) : wm.stack.length = wm.zCount := by simp [Wm.stack]

theorem stack_getElem (wm : Wm) {i : Nat} (below : i < wm.stack.length) :
    wm.stack[i] = wm.zOrder i := by simp [Wm.stack]

theorem stack_getLast (positive : 0 < wm.zCount) :
    wm.stack.getLast? = some (wm.zOrder (wm.zCount - 1)) := by
  rw [List.getLast?_eq_getElem?, stack_length, List.getElem?_eq_getElem (by simp; omega),
    stack_getElem]

theorem Wm.Listed.length_le (listed : wm.Listed) : wm.zCount ≤ wmMaxWindows := by
  have inside : wm.stack ⊆ List.range wmMaxWindows := fun id member =>
    List.mem_range.mpr ((listed.listed id).mp member).1
  have short := (List.subperm_of_subset listed.nodup inside).length_le
  simpa using short

theorem Wm.Sound.stacked (sound : wm.Sound) : wm.Stacked := by
  refine ⟨sound.nodup, sound.listed, sound.toListed.length_le, ?_⟩
  intro shown below visible
  have some := List.length_pos_of_mem ((sound.listed shown).mpr ⟨below, visible⟩)
  rw [stack_length] at some
  refine ⟨some, fun id inside => ?_⟩
  have last := stack_getLast some
  constructor
  · rintro ⟨alsoVisible, focused⟩
    have top := (sound.focused id ((sound.listed id).mpr ⟨inside, alsoVisible⟩)).mp focused
    exact Option.some.inj (top.symm.trans last)
  · rintro rfl
    have member := List.mem_of_getLast? last
    exact ⟨((sound.listed _).mp member).2, (sound.focused _ member).mpr last⟩

theorem shiftDown_apply (zOrder : Nat → Nat) (first count i : Nat) :
    shiftDown zOrder first count i =
      if first ≤ i ∧ i < first + count then zOrder (i + 1) else zOrder i := by
  induction count generalizing i with
  | zero =>
      rw [shiftDown, if_neg]
      omega
  | succ count ih =>
      simp only [shiftDown]
      by_cases here : i = first + count
      · subst here
        rw [Function.update_self, ih, if_neg (by omega), if_pos (by omega)]
      · rw [Function.update_of_ne here, ih]
        congr 1
        exact propext ⟨fun inside => by omega, fun inside => by omega⟩

/-- Shifting the entries from `pos` on down removes the entry there. -/
theorem stack_shiftDown {zOrder : Nat → Nat} {count pos : Nat} (inside : pos < count) :
    (List.range (count - 1)).map (shiftDown zOrder pos (count - 1 - pos)) =
      ((List.range count).map zOrder).eraseIdx pos := by
  refine List.ext_getElem ?_ fun i first second => ?_
  · rw [List.length_eraseIdx_of_lt (by simpa using inside)]
    simp
  · simp only [List.length_map, List.length_range] at first
    rw [List.getElem_eraseIdx]
    simp only [List.getElem_map, List.getElem_range, shiftDown_apply]
    split
    next below => rw [dif_neg (by omega)]
    next above => rw [dif_pos (by omega)]

theorem stack_erase {pos : Nat} (nodup : wm.stack.Nodup) (inside : pos < wm.zCount) :
    wm.stack.erase (wm.zOrder pos) = wm.stack.eraseIdx pos := by
  have bound : pos < wm.stack.length := by simpa using inside
  rw [← stack_getElem wm bound]
  exact List.erase_eq_eraseIdx_of_idxOf (nodup.idxOf_getElem pos bound)

theorem stack_find {id : Nat} (listed : id ∈ wm.stack) :
    ∃ pos, (List.range wm.zCount).find? (fun i => wm.zOrder i = id) = some pos ∧
      pos < wm.zCount ∧ wm.zOrder pos = id := by
  obtain ⟨i, below, same⟩ := List.mem_map.mp listed
  cases found : (List.range wm.zCount).find? fun i => wm.zOrder i = id with
  | none => simpa [same] using List.find?_eq_none.mp found i below
  | some pos =>
      obtain ⟨here, member, _⟩ := List.find?_range_eq_some.mp found
      exact ⟨pos, rfl, List.mem_range.mp member, by simpa using here⟩

/-- `after` is `wm` up to the order of the windows. -/
def Wm.SameWindows (wm after : Wm) : Prop :=
  after.windows = wm.windows ∧ after.zCount = wm.zCount ∧ after.prevButtons = wm.prevButtons

theorem raise_stack {id : Nat} (nodup : wm.stack.Nodup) (listed : id ∈ wm.stack) :
    wm.SameWindows (wm.raise id) ∧ (wm.raise id).stack = wm.stack.erase id ++ [id] := by
  obtain ⟨pos, found, inside, rfl⟩ := stack_find listed
  simp only [Wm.raise, found]
  split
  next moved =>
    refine ⟨⟨rfl, rfl, rfl⟩, ?_⟩
    have split : wm.zCount = wm.zCount - 1 + 1 := by omega
    rw [stack_erase nodup inside, Wm.stack, Wm.stack, ← stack_shiftDown inside]
    simp only
    rw [split, List.range_succ, List.map_append, Nat.add_sub_cancel]
    congr 1
    · refine List.map_congr_left fun i below => Function.update_of_ne ?_ _ _
      exact (List.mem_range.mp below).ne
    · simp
  next top =>
    obtain rfl : pos = wm.zCount - 1 := by omega
    refine ⟨⟨rfl, rfl, rfl⟩, ?_⟩
    have last := stack_getLast (Nat.zero_lt_of_lt inside)
    have erased : wm.stack.eraseIdx (wm.zCount - 1) = wm.stack.dropLast := by
      rw [← List.eraseIdx_length_sub_one, stack_length]
    rw [stack_erase nodup inside, erased]
    exact (List.dropLast_append_getLast? _ last).symm

theorem visibleId_eq_some {id : Int} {slot : Nat} :
    wm.visibleId id = some slot ↔
      id = slot ∧ slot < wmMaxWindows ∧ (wm.windows slot).visible = true := by
  unfold Wm.visibleId
  split
  next invalid =>
    refine iff_of_false (Option.some_ne_none slot).symm ?_
    rintro ⟨rfl, below, visible⟩
    simp [visible] at invalid
    omega
  next valid =>
    simp only [not_or, Bool.not_eq_false, Int.not_lt, Int.not_le] at valid
    rw [Option.some.injEq]
    constructor
    · rintro rfl
      exact ⟨by omega, by omega, valid.2.2⟩
    · rintro ⟨rfl, _, _⟩
      rfl

def Wm.focusWindows (wm : Wm) (top : Nat) : Nat → WmWindow := fun id =>
  { wm.windows id with
    focused := if id = top then true else if id < wmMaxWindows then false
      else (wm.windows id).focused }

structure Wm.Focuses (wm : Wm) (top : Nat) (after : Wm) : Prop where
  stack : after.stack = wm.stack.erase top ++ [top]
  windows : after.windows = wm.focusWindows top
  buttons : after.prevButtons = wm.prevButtons

theorem focus_top {top : Nat} (nodup : wm.stack.Nodup) (listed : top ∈ wm.stack)
    (below : top < wmMaxWindows) (visible : (wm.windows top).visible = true) :
    wm.Focuses top (wm.wmFocusWindow top) := by
  have some : wm.visibleId top = some top := visibleId_eq_some.mpr ⟨rfl, below, visible⟩
  obtain ⟨⟨windows, _, buttons⟩, stack⟩ := @raise_stack
    (wm.unfocusAll.modify top fun win => { win with focused := true }) top nodup listed
  rw [Wm.wmFocusWindow, some]
  refine ⟨stack, windows.trans (funext fun id => ?_), buttons⟩
  simp only [Wm.modify, Wm.unfocusAll, Wm.focusWindows]
  by_cases here : id = top
  · subst here
    simp [below]
  · rw [Function.update_of_ne here]
    split <;> simp

theorem Wm.Focuses.sound {top : Nat} {after : Wm} (focuses : wm.Focuses top after)
    (listed : wm.Listed) (member : top ∈ wm.stack) : after.Sound := by
  obtain ⟨stack, windows, _⟩ := focuses
  have same : ∀ id, id ∈ after.stack ↔ id ∈ wm.stack := by
    intro id
    rw [stack, (List.perm_append_singleton top _).mem_iff,
      ← (List.perm_cons_erase member).mem_iff]
  refine ⟨⟨?_, fun id => ?_, fun id inside => ?_⟩, fun id inside => ?_⟩
  · rw [stack, (List.perm_append_singleton top _).nodup_iff,
      ← (List.perm_cons_erase member).nodup_iff]
    exact listed.nodup
  · rw [same, listed.listed, windows]
    rfl
  · rw [windows]
    exact listed.framed id ((same id).mp inside)
  · have below := ((listed.listed id).mp ((same id).mp inside)).1
    rw [stack, windows, List.getLast?_append, List.getLast?_singleton, Option.some_or,
      Option.some.injEq]
    simp only [Wm.focusWindows, if_pos below]
    by_cases here : id = top
    · simp [here]
    · simp [here, Ne.symm here]

theorem Wm.Focuses.others {top : Nat} {after : Wm} (focuses : wm.Focuses top after)
    (nodup : wm.stack.Nodup) : after.Others top = wm.Others top := by
  have gone : [top].filter (fun (other : Nat) => (other : Int) ≠ top) = [] := by simp
  rw [Wm.Others, focuses.stack, nodup.erase_eq_filter, List.filter_append, gone, List.append_nil, List.filter_filter]
  refine List.filter_congr fun other _ => ?_
  by_cases here : other = top <;> simp [here]

theorem Wm.Sound.focusWindow (sound : wm.Sound) (id : Int) :
    (wm.wmFocusWindow id).Sound ∧ (wm.wmFocusWindow id).Others id = wm.Others id := by
  cases found : wm.visibleId id with
  | none =>
      rw [Wm.wmFocusWindow, found]
      exact ⟨sound, rfl⟩
  | some slot =>
      obtain ⟨rfl, below, visible⟩ := visibleId_eq_some.mp found
      have member := (sound.listed slot).mpr ⟨below, visible⟩
      have focuses := focus_top sound.nodup member below visible
      exact ⟨focuses.sound sound.toListed member, focuses.others sound.nodup⟩

theorem removeStep_foldl {zOrder : Nat → Nat} {zCount pos : Nat}
    (first : ∀ i < pos, zOrder i ≠ zOrder pos) (turns : Nat) (bound : turns ≤ zCount) :
    (List.range turns).foldl (removeStep zCount (zOrder pos)) (false, zOrder) =
      if turns ≤ pos then (false, zOrder)
      else (true, shiftDown zOrder pos (min turns (zCount - 1) - pos)) := by
  induction turns with
  | zero => rfl
  | succ turns ih =>
      rw [List.range_succ, List.foldl_append, List.foldl_cons, List.foldl_nil, ih (by omega)]
      rcases Nat.lt_trichotomy turns pos with before | here | after
      · rw [if_pos before.le, if_pos (Nat.succ_le_of_lt before)]
        simp [removeStep, first turns before]
      · subst here
        rw [if_pos (le_refl _), if_neg (by omega)]
        by_cases last : turns + 1 < zCount
        · have one : min (turns + 1) (zCount - 1) - turns = 0 + 1 := by omega
          simp only [removeStep, one, shiftDown]
          simp [last]
        · have none : min (turns + 1) (zCount - 1) - turns = 0 := by omega
          simp only [removeStep, none, shiftDown]
          simp [last]
      · rw [if_neg (by omega), if_neg (by omega)]
        by_cases last : turns + 1 < zCount
        · have more : min (turns + 1) (zCount - 1) - pos = turns - pos + 1 := by omega
          have before : min turns (zCount - 1) - pos = turns - pos := by omega
          have place : pos + (turns - pos) = turns := by omega
          simp [removeStep, more, before, shiftDown, place, last]
        · have same : min (turns + 1) (zCount - 1) - pos = min turns (zCount - 1) - pos := by omega
          simp [removeStep, same, last]

/-- The part of `wm_destroy_window` before the focus moves to the topmost window. -/
theorem destroy_removes {id : Nat} (nodup : wm.stack.Nodup) (listed : id ∈ wm.stack)
    (below : id < wmMaxWindows) (visible : (wm.windows id).visible = true) :
    ∃ removed : Wm, removed.stack = wm.stack.erase id ∧
      removed.windows = Function.update wm.windows id { wm.windows id with
        content := none, visible := false, focused := false } ∧
      removed.prevButtons = wm.prevButtons ∧
      wm.wmDestroyWindow id = if 0 < removed.zCount then
        removed.wmFocusWindow (removed.zOrder (removed.zCount - 1)) else removed := by
  have some : wm.visibleId id = some id := visibleId_eq_some.mpr ⟨rfl, below, visible⟩
  obtain ⟨pos, _, inside, rfl⟩ := stack_find listed
  have first : ∀ i < pos, wm.zOrder i ≠ wm.zOrder pos := by
    intro i before same
    have ordered := List.nodup_iff_injective_get.mp nodup
    have equal : (⟨i, by simp; omega⟩ : Fin wm.stack.length) = ⟨pos, by simpa using inside⟩ :=
      ordered (by simpa [stack_getElem] using same)
    exact before.ne (congrArg Fin.val equal)
  have loop := removeStep_foldl first wm.zCount le_rfl
  have whole : min wm.zCount (wm.zCount - 1) = wm.zCount - 1 := by omega
  rw [if_neg (by omega), whole] at loop
  refine ⟨{ wm.modify (wm.zOrder pos) fun win => { win with
      content := none, visible := false, focused := false } with
    zOrder := shiftDown wm.zOrder pos (wm.zCount - 1 - pos), zCount := wm.zCount - 1 },
    ?_, rfl, rfl, ?_⟩
  · rw [stack_erase nodup inside]
    exact stack_shiftDown inside
  · simp only [Wm.wmDestroyWindow, some, Wm.modify, loop, if_true]

theorem Wm.Sound.destroyWindow (sound : wm.Sound) (id : Int) :
    (wm.wmDestroyWindow id).Sound ∧ (wm.wmDestroyWindow id).Others id = wm.Others id := by
  cases found : wm.visibleId id with
  | none =>
      rw [Wm.wmDestroyWindow, found]
      exact ⟨sound, rfl⟩
  | some slot =>
      obtain ⟨rfl, below, visible⟩ := visibleId_eq_some.mp found
      have member := (sound.listed slot).mpr ⟨below, visible⟩
      obtain ⟨removed, stack, windows, _, destroys⟩ :=
        destroy_removes sound.nodup member below visible
      have others : removed.Others slot = wm.Others slot := by
        rw [Wm.Others, stack, sound.nodup.erase_eq_filter, List.filter_filter]
        refine List.filter_congr fun other _ => ?_
        by_cases here : other = slot <;> simp [here]
      have apart : ∀ other, other ∈ removed.stack ↔ other ∈ wm.stack ∧ other ≠ slot := by
        intro other
        rw [stack, sound.nodup.mem_erase_iff, and_comm]
      have listed : removed.Listed := by
        refine ⟨stack ▸ sound.nodup.erase slot, fun other => ?_, fun other inside => ?_⟩
        · rw [apart, sound.listed, windows]
          by_cases here : other = slot
          · simp [here]
          · simp [here]
        · obtain ⟨before, different⟩ := (apart other).mp inside
          rw [windows, Function.update_of_ne different]
          exact sound.framed other before
      rw [destroys]
      split
      next some =>
        have last := stack_getLast some
        have top := List.mem_of_getLast? last
        obtain ⟨topBelow, topVisible⟩ := (listed.listed _).mp top
        have focuses := focus_top listed.nodup top topBelow topVisible
        refine ⟨focuses.sound listed top, ?_⟩
        -- the topmost window is focused where it stands
        have still : (removed.wmFocusWindow (removed.zOrder (removed.zCount - 1))).stack =
            removed.stack := by
          obtain ⟨front, split⟩ := List.getLast?_eq_some_iff.mp last
          rw [focuses.stack]
          have unlisted : removed.zOrder (removed.zCount - 1) ∉ front := by
            have nodup := listed.nodup
            rw [split, List.nodup_append] at nodup
            exact fun again => nodup.2.2 _ again _ (List.mem_singleton_self _) rfl
          rw [split, List.erase_append_right _ unlisted]
          simp
        rw [Wm.Others, still]
        exact others
      next empty =>
        have nothing : removed.stack = [] := by
          rw [← List.length_eq_zero_iff, stack_length]
          omega
        refine ⟨⟨listed, fun other inside => ?_⟩, others⟩
        rw [nothing] at inside
        exact absurd inside List.not_mem_nil

/-- What the stacking invariant reads of a window. -/
structure WmWindow.SameFrame (win other : WmWindow) : Prop where
  visible : other.visible = win.visible
  focused : other.focused = win.focused
  content : other.content = win.content
  width : other.w = win.w ∧ other.contentW = win.contentW
  height : other.h = win.h ∧ other.contentH = win.contentH

theorem Wm.Sound.keep {after : Wm} (sound : wm.Sound) (stack : after.stack = wm.stack)
    (visible : ∀ id, (after.windows id).visible = (wm.windows id).visible)
    (frames : ∀ id ∈ wm.stack, (wm.windows id).SameFrame (after.windows id)) : after.Sound := by
  refine ⟨⟨stack ▸ sound.nodup, fun id => ?_, fun id inside => ?_⟩, fun id inside => ?_⟩
  · rw [stack, visible, sound.listed]
  · rw [stack] at inside
    obtain ⟨_, _, content, ⟨w, contentW⟩, ⟨h, contentH⟩⟩ := frames id inside
    rw [content, w, contentW, h, contentH]
    exact sound.framed id inside
  · rw [stack] at inside ⊢
    rw [(frames id inside).focused]
    exact sound.focused id inside

/-- A change to one window that the invariant does not read. -/
theorem Wm.Sound.modify (sound : wm.Sound) (id : Nat) {change : WmWindow → WmWindow}
    (frame : (wm.windows id).SameFrame (change (wm.windows id))) : (wm.modify id change).Sound := by
  have each : ∀ other, (wm.windows other).SameFrame ((wm.modify id change).windows other) := by
    intro other
    rw [Wm.modify]
    by_cases here : other = id
    · subst here
      simpa using frame
    · simp only [Function.update_of_ne here]
      exact ⟨rfl, rfl, rfl, ⟨rfl, rfl⟩, ⟨rfl, rfl⟩⟩
  exact sound.keep rfl (fun other => (each other).visible) fun other _ => each other

/-- The part of `wm_create_window` before the new window is focused. -/
theorem create_adds {id address : Nat} (title : List (BitVec 8)) (x y w h : Int)
    (found : ((List.range wmMaxWindows).find? fun i => !(wm.windows i).visible) = some id) :
    ∃ added : Wm, added.stack = wm.stack ++ [id] ∧
      (∀ other, other ≠ id → added.windows other = wm.windows other) ∧
      (added.windows id).visible = true ∧
      ((added.windows id).content ≠ none ∧ (added.windows id).w = (added.windows id).contentW + 2 ∧
        (added.windows id).h = (added.windows id).contentH + titlebarH + 2) ∧
      wm.wmCreateWindow title x y w h (some address) = (added.wmFocusWindow id, (id : Int)) := by
  let shown : Wm := wm.modify id fun win => { win with
    title := title.take 31, x := x, y := y, contentW := w, contentH := h, w := w + 2
    h := h + titlebarH + 2, content := some address, visible := true, focused := false
    dragging := false }
  refine ⟨{ shown with zOrder := Function.update wm.zOrder wm.zCount id, zCount := wm.zCount + 1 },
    ?_, ?_, ?_, ?_, ?_⟩
  · rw [Wm.stack, List.range_succ, List.map_append]
    congr 1
    · refine List.map_congr_left fun i before => Function.update_of_ne ?_ _ _
      exact (List.mem_range.mp before).ne
    · simp
  · intro other different
    simp [shown, Wm.modify, different]
  · simp [shown, Wm.modify]
  · simp [shown, Wm.modify]
  · simp [Wm.wmCreateWindow, found, shown, Wm.modify]

theorem Wm.Sound.createWindow (sound : wm.Sound) (title : List (BitVec 8)) (x y w h : Int)
    (content : Option Nat) :
    (wm.wmCreateWindow title x y w h content).1.Sound ∧
      wm.KeepsOrder (.createWindow title x y w h content)
        (wm.wmCreateWindow title x y w h content).1 := by
  cases found : (List.range wmMaxWindows).find? fun i => !(wm.windows i).visible with
  | none =>
      rw [Wm.wmCreateWindow, found]
      exact ⟨sound, .inl rfl⟩
  | some id =>
      obtain ⟨hidden, below, _⟩ := List.find?_range_eq_some.mp found
      rw [Bool.not_eq_true'] at hidden
      rw [List.mem_range] at below
      have unlisted : id ∉ wm.stack := by
        intro member
        have visible := ((sound.listed id).mp member).2
        simp [hidden] at visible
      cases content with
      | none =>
          simp only [Wm.wmCreateWindow, found]
          refine ⟨sound.keep rfl (fun other => ?_) fun other member => ?_, .inl rfl⟩
          · by_cases here : other = id <;> simp [Wm.modify, here]
          · have different : other ≠ id := fun same => unlisted (same ▸ member)
            simp only [Wm.modify, Function.update_of_ne different]
            exact ⟨rfl, rfl, rfl, ⟨rfl, rfl⟩, ⟨rfl, rfl⟩⟩
      | some address =>
          obtain ⟨added, stack, others, visible, framed, creates⟩ :=
            @create_adds wm id address title x y w h found
          have listed : added.Listed := by
            refine ⟨?_, fun other => ?_, fun other inside => ?_⟩
            · rw [stack, (List.perm_append_singleton id _).nodup_iff]
              exact List.nodup_cons.mpr ⟨unlisted, sound.nodup⟩
            · rw [stack, List.mem_append, List.mem_singleton, sound.listed]
              by_cases here : other = id
              · simp [here, below, visible]
              · simp [here, others other here]
            · by_cases here : other = id
              · exact here ▸ framed
              · rw [stack, List.mem_append, List.mem_singleton] at inside
                rw [others other here]
                exact sound.framed other (inside.resolve_right here)
          have top : id ∈ added.stack := by simp [stack]
          have focuses := focus_top listed.nodup top below visible
          rw [creates]
          refine ⟨focuses.sound listed top, .inr ⟨id, unlisted, ?_⟩⟩
          rw [focuses.stack, stack, List.erase_append_right _ unlisted]
          simp

theorem Wm.Sound.clickWindow (sound : wm.Sound) (id : Nat) (mx my : Int) :
    (wm.clickWindow id mx my).1.Sound ∧ (wm.clickWindow id mx my).1.stack = wm.stack := by
  unfold Wm.clickWindow
  dsimp only
  split
  · exact ⟨sound, rfl⟩
  · split
    · dsimp only
      exact ⟨sound.modify id ⟨rfl, rfl, rfl, ⟨rfl, rfl⟩, ⟨rfl, rfl⟩⟩, rfl⟩
    · exact ⟨sound, rfl⟩

theorem Wm.Sound.handleMouse (sound : wm.Sound) (mx my : Int) (buttons : BitVec 32) :
    (wm.wmHandleMouse mx my buttons).1.Sound ∧
      ∃ id, (wm.wmHandleMouse mx my buttons).1.Others id = wm.Others id := by
  have pressed : Wm.Sound { wm with prevButtons := buttons } :=
    sound.keep rfl (fun _ => rfl) fun _ _ => ⟨rfl, rfl, rfl, ⟨rfl, rfl⟩, ⟨rfl, rfl⟩⟩
  unfold Wm.wmHandleMouse
  dsimp only
  split
  · split
    all_goals
      dsimp only
      exact ⟨pressed.modify _ ⟨rfl, rfl, rfl, ⟨rfl, rfl⟩, ⟨rfl, rfl⟩⟩, 0, rfl⟩
  · split
    · exact ⟨pressed, 0, rfl⟩
    · split
      · split
        · exact ⟨pressed, 0, rfl⟩
        · split
          next id _ =>
            obtain ⟨focused, others⟩ := pressed.focusWindow id
            exact ⟨focused, id, others⟩
          next => exact ⟨pressed, 0, rfl⟩
      · split
        next id _ =>
          obtain ⟨focused, others⟩ := pressed.focusWindow id
          obtain ⟨clicked, same⟩ := focused.clickWindow id mx my
          refine ⟨clicked, id, ?_⟩
          rw [Wm.Others, same]
          exact others
        next => exact ⟨pressed, 0, rfl⟩

theorem wmInit_sound (wm : Wm) : (wmInit wm).Sound := by
  have empty : (wmInit wm).stack = [] := rfl
  refine ⟨⟨empty ▸ List.nodup_nil, fun id => ?_, fun id listed => ?_⟩, fun id listed => ?_⟩
  · rw [empty]
    refine iff_of_false List.not_mem_nil ?_
    rintro ⟨below, visible⟩
    simp [wmInit, below] at visible
  · exact absurd listed List.not_mem_nil
  · exact absurd listed List.not_mem_nil

theorem Wm.Sound.step (sound : wm.Sound) {action : WmAction} {after : Wm}
    (stepped : wm.step action = some after) : after.Sound ∧ wm.KeepsOrder action after := by
  cases action with
  | createWindow title x y w h content =>
      obtain rfl := Option.some.inj stepped
      exact sound.createWindow title x y w h content
  | destroyWindow id =>
      obtain rfl := Option.some.inj stepped
      exact sound.destroyWindow id
  | focusWindow id =>
      obtain rfl := Option.some.inj stepped
      exact sound.focusWindow id
  | handleMouse mx my buttons =>
      obtain rfl := Option.some.inj stepped
      exact sound.handleMouse mx my buttons

theorem wm_sound (wm : Wm) (actions : List WmAction) :
    Transition.EveryState Wm.step Wm.Sound (wmInit wm) actions :=
  Transition.everyState_of_invariant
    (fun _ _ _ sound stepped => (Wm.Sound.step sound stepped).1) (wmInit_sound wm) actions

/-- From `wm_init` on, whatever the calls and the page allocator do. -/
theorem wm_stacked (wm : Wm) (actions : List WmAction) :
    Transition.EveryState Wm.step Wm.Stacked (wmInit wm) actions ∧
      Transition.EveryStep Wm.step Wm.KeepsOrder (wmInit wm) actions := by
  have keeps : ∀ (wm : Wm) action after, wm.Sound → wm.step action = some after →
      after.Sound ∧ wm.KeepsOrder action after := fun _ _ _ sound stepped => sound.step stepped
  exact ⟨(wm_sound wm actions).mono fun _ => Wm.Sound.stacked,
    Transition.everyStep_of_invariant keeps (wmInit_sound wm) actions⟩

end DragoonKernel
