import DragoonKernel.BreakoutLedger
import DragoonKernel.DesktopCore
import DragoonKernel.GuiApps
import DragoonKernel.RaycasterColumns
import DragoonKernel.SnakePath
import DragoonKernel.TermShell
import DragoonKernel.TetrisConsistent

/-!
The desktop as a composition: the window tables decide which application each call is for, and
every application runs on its own calls as if it were alone.
-/

namespace DragoonKernel

/-- The calls of `app_init`: one for each window that shows an application after the click and
showed none before. -/
def opened (before : Nat → AppType) (after : Gui) (frame : DesktopFrame) :
    List (AppType × AppCall) :=
  (List.range wmMaxWindows).filterMap fun id =>
    if before id = .none ∧ after.winAppType id ≠ .none then
      some (after.winAppType id, .init (after.wm.windows id).contentW
        (after.wm.windows id).contentH frame.seed frame.now)
    else none

/-- The calls of `app_key`: the keys go to the application in focus, and ESC to none. -/
def keyCalls : Gui → List (KernelView × Int) → List (AppType × AppCall)
  | _, [] => []
  | gui, (view, key) :: rest =>
      let focused := gui.wm.wmGetFocused
      (if focused ≥ 0 ∧ gui.winAppType focused.toNat ≠ .none ∧ key ≠ keyEsc then
        [(gui.winAppType focused.toNat, .key view key)] else []) ++ keyCalls (gui.key key) rest

/-- The calls of `app_tick` for the windows before `count`. -/
def tickCalls (gui : Gui) (ticks : Nat → BitVec 64) (count : Nat) : List (AppType × AppCall) :=
  (List.range count).filterMap fun i =>
    if gui.winAppType i ≠ .none ∧ (gui.wm.windows i).visible = true then
      some (gui.winAppType i, .tick (ticks i))
    else none

def Gui.next (gui : Gui) (frame : GuiFrame) : Gui := frame.keys.foldl Gui.key (gui.mouse frame)

def Gui.calls (gui : Gui) (frame : DesktopFrame) : List (AppType × AppCall) :=
  opened gui.winAppType (gui.mouse frame.gui) frame ++
    (keyCalls (gui.mouse frame.gui) frame.keys ++
      tickCalls (gui.next frame.gui) frame.ticks wmMaxWindows)

/-- The calls of a whole run, by the window tables alone. -/
def Gui.allCalls : Gui → List DesktopFrame → List (AppType × AppCall)
  | _, [] => []
  | gui, frame :: rest => gui.calls frame ++ (gui.next frame.gui).allCalls rest

/-- The windows show `gui` and the applications have made the calls. -/
def Desktop.after (gui : Gui) (apps : Apps) (calls : List (AppType × AppCall)) : Option Desktop :=
  (Transition.exec (Components.stepAt appCall) apps calls).map (Desktop.mk gui)

section Routing

variable {desktop : Desktop} {gui : Gui} {apps : Apps} {calls : List (AppType × AppCall)}

theorem Desktop.after_nil (gui : Gui) (apps : Apps) : Desktop.after gui apps [] = some ⟨gui, apps⟩ :=
  rfl

/-- One part of the turn after another. -/
theorem Desktop.after_bind {middle : Gui} {first second : List (AppType × AppCall)}
    {rest : Desktop → Option Desktop}
    (same : ∀ apps, rest ⟨middle, apps⟩ = Desktop.after gui apps second) (apps : Apps) :
    (Desktop.after middle apps first).bind rest = Desktop.after gui apps (first ++ second) := by
  rw [Desktop.after, Desktop.after, Transition.exec_append, Option.bind_map, Option.map_bind]
  exact congrArg _ (funext same)

theorem filterMap_range_single {Result : Type} (id : Nat) (result : Result) (count : Nat) :
    ((List.range count).filterMap fun i => if i = id then some result else none) =
      if id < count then [result] else [] := by
  induction count with
  | zero => rfl
  | succ count ih =>
      rw [List.range_succ, List.filterMap_append, ih]
      by_cases last : count = id
      · subst last
        simp
      · by_cases below : id < count
        · simp [last, below, Nat.lt_succ_of_lt below]
        · have above : ¬id < count + 1 := by omega
          simp [last, below, above]

theorem opened_nil {before : Nat → AppType} {after : Gui} (frame : DesktopFrame)
    (closed : ∀ id, before id = .none → after.winAppType id = .none) :
    opened before after frame = [] := by
  rw [opened, List.filterMap_eq_nil_iff]
  intro id _
  exact if_neg fun ⟨absent, shows⟩ => shows (closed id absent)

theorem opened_single {before : Nat → AppType} {after : Gui} (frame : DesktopFrame) {id : Nat}
    {app : AppType} (inside : id < wmMaxWindows) (absent : before id = .none) (proper : app ≠ .none)
    (types : after.winAppType = Function.update before id app) :
    opened before after frame = [(app, .init (after.wm.windows id).contentW
      (after.wm.windows id).contentH frame.seed frame.now)] := by
  have same : (fun i => if before i = .none ∧ after.winAppType i ≠ .none then
      some (after.winAppType i, AppCall.init (after.wm.windows i).contentW
        (after.wm.windows i).contentH frame.seed frame.now) else none) =
      fun i => if i = id then some (app, AppCall.init (after.wm.windows id).contentW
        (after.wm.windows id).contentH frame.seed frame.now) else none := by
    funext i
    rw [types]
    by_cases here : i = id
    · subst here
      simp [absent, proper]
    · simp [here]
  rw [opened, same, filterMap_range_single, if_pos inside]

theorem Gui.TablesAgree.none_of_hidden (agree : gui.TablesAgree) {id : Nat}
    (below : id < wmMaxWindows) (hidden : (gui.wm.windows id).visible = false) :
    gui.winAppType id = .none := by
  by_contra shows
  exact Bool.false_ne_true (hidden.symm.trans ((agree.shown id below).mp shows))

theorem call_eq (desktop : Desktop) (app : AppType) (call : AppCall) :
    desktop.call app call = Desktop.after desktop.gui desktop.apps [(app, call)] := by
  rw [Desktop.call, Desktop.after, Transition.exec]
  cases Components.stepAt appCall desktop.apps (app, call) <;> rfl

/-- `open_app` initialises the application if and only if it gets a window. -/
theorem openApp_eq (agree : gui.TablesAgree) (apps : Apps) {app : AppType} (proper : app ≠ .none)
    (frame : DesktopFrame) :
    Desktop.openApp ⟨gui, apps⟩ app frame =
      Desktop.after (gui.openApp app frame.content) apps
        (opened gui.winAppType (gui.openApp app frame.content) frame) := by
  have unchanged : ∀ after : Gui, after.winAppType = gui.winAppType →
      some ⟨after, apps⟩ = Desktop.after after apps (opened gui.winAppType after frame) := by
    intro after types
    rw [opened_nil frame fun id absent => (congrFun types id).trans absent, Desktop.after_nil]
  cases missing : gui.findExistingAppWindow app with
  | some existing =>
      simp only [Desktop.openApp, Gui.openApp, missing]
      exact unchanged _ rfl
  | none =>
      simp only [Desktop.openApp, Gui.openApp, missing]
      obtain ⟨same, _⟩ | ⟨id, below, hidden, ⟨_, same⟩ | ⟨address, _, result, _, table⟩⟩ :=
        createWindow_cases gui.wm (cString (appWindow app).title) (appWindow app).x
          (appWindow app).y (appWindow app).w (appWindow app).h frame.content
      · rw [same]
        simp only [Int.reduceNeg, Int.neg_neg_iff_pos, Int.zero_lt_one, if_true]
        exact unchanged _ rfl
      · rw [same]
        simp only [Int.reduceNeg, Int.neg_neg_iff_pos, Int.zero_lt_one, if_true]
        exact unchanged _ rfl
      · have nonneg : ¬((id : Int) < 0) := by omega
        rw [result, if_neg nonneg, if_neg nonneg, Int.toNat_natCast]
        generalize (gui.wm.wmCreateWindow _ _ _ _ _ _).1 = created at table
        have absent := agree.none_of_hidden below hidden
        have win := table id
        rw [Wm.showing, Function.update_self] at win
        have visible : (created.windows id).visible = true := congrArg WmWindow.visible win
        have content : (created.windows id).content = some address := by
          rw [win]
          simpa [WmWindow.placed]
        rw [opened_single frame below absent proper rfl, Desktop.appInit,
          visibleId_eq_some.mpr ⟨rfl, below, visible⟩, Option.bind_some, content]
        exact call_eq _ app _

theorem mouse_eq (agree : gui.TablesAgree) (apps : Apps) (frame : DesktopFrame) :
    Desktop.mouse ⟨gui, apps⟩ frame =
      Desktop.after (gui.mouse frame.gui) apps
        (opened gui.winAppType (gui.mouse frame.gui) frame) := by
  have still : ∀ after : Gui, (∀ id, gui.winAppType id = .none → after.winAppType id = .none) →
      some ⟨after, apps⟩ = Desktop.after after apps (opened gui.winAppType after frame) := by
    intro after closed
    rw [opened_nil frame closed, Desktop.after_nil]
  unfold Desktop.mouse Gui.mouse
  dsimp only
  by_cases click : frame.gui.mb &&& mouseBtnLeft ≠ 0 ∧ gui.prevLeft = 0
  · rw [if_pos click, if_pos click]
    by_cases menu : gui.startMenuOpen = true
    · rw [if_pos menu, if_pos menu]
      have tables := startMenuClick_tables
        { gui with prevLeft := frame.gui.mb &&& mouseBtnLeft } frame.gui.mx frame.gui.my
      have proper := @startMenuClick_ne_none
        { gui with prevLeft := frame.gui.mb &&& mouseBtnLeft } frame.gui.mx frame.gui.my
      generalize Gui.startMenuClick { gui with prevLeft := frame.gui.mb &&& mouseBtnLeft }
        frame.gui.mx frame.gui.my = found at tables proper
      obtain ⟨clicked, choice⟩ := found
      cases choice with
      | some app =>
          have kept : clicked.TablesAgree := agree.keep tables.1 fun id => by rw [tables.2]
          rw [← tables.1]
          exact openApp_eq kept apps (proper rfl) frame
      | none => exact still clicked fun id absent => (congrFun tables.1 id).trans absent
    · simp only [if_neg menu]
      by_cases button : frame.gui.my ≥ fbHeight - taskbarH ∧ frame.gui.mx < startBtnW
      · rw [if_pos button, if_pos button]
        exact still _ fun _ absent => absent
      · rw [if_neg button, if_neg button]
        refine still _ fun id absent => ?_
        split
        · by_cases here : id = (-((gui.wm.wmHandleMouse frame.gui.mx frame.gui.my frame.gui.mb).2 + 100)).toNat
          · rw [here]
            exact Function.update_self ..
          · exact (Function.update_of_ne here _ _).trans absent
        · exact absent
  · rw [if_neg click, if_neg click]
    exact still _ fun _ absent => absent

theorem desktopKey_eq (gui : Gui) (apps : Apps) (input : KernelView × Int) :
    Desktop.key ⟨gui, apps⟩ input = Desktop.after (gui.key input.2) apps
      (if gui.wm.wmGetFocused ≥ 0 ∧ gui.winAppType gui.wm.wmGetFocused.toNat ≠ .none ∧
          input.2 ≠ keyEsc then
        [(gui.winAppType gui.wm.wmGetFocused.toNat, .key input.1 input.2)] else []) := by
  unfold Desktop.key Gui.key
  dsimp only
  by_cases focused : gui.wm.wmGetFocused ≥ 0 ∧ gui.winAppType gui.wm.wmGetFocused.toNat ≠ .none
  · rw [if_pos focused, if_pos focused]
    by_cases esc : input.2 = keyEsc
    · rw [if_pos esc, if_pos esc, if_neg fun all => all.2.2 esc, Desktop.after_nil]
    · rw [if_neg esc, if_neg esc, if_pos ⟨focused.1, focused.2, esc⟩]
      exact call_eq _ _ _
  · rw [if_neg focused, if_neg focused, if_neg fun all => focused ⟨all.1, all.2.1⟩,
      Desktop.after_nil]

theorem keys_eq (gui : Gui) (apps : Apps) (keys : List (KernelView × Int)) :
    Transition.exec Desktop.key ⟨gui, apps⟩ keys =
      Desktop.after ((keys.map Prod.snd).foldl Gui.key gui) apps (keyCalls gui keys) := by
  induction keys generalizing gui apps with
  | nil => rfl
  | cons input rest ih =>
      rw [Transition.exec, desktopKey_eq]
      exact Desktop.after_bind (ih (gui.key input.2)) apps

theorem ticks_eq (gui : Gui) (apps : Apps) (ticks : Nat → BitVec 64) (count : Nat) :
    loopUp (Desktop.tick ticks) count ⟨gui, apps⟩ =
      Desktop.after gui apps (tickCalls gui ticks count) := by
  induction count with
  | zero => rfl
  | succ count ih =>
      have last : tickCalls gui ticks (count + 1) = tickCalls gui ticks count ++
          [count].filterMap fun i =>
            if gui.winAppType i ≠ .none ∧ (gui.wm.windows i).visible = true then
              some (gui.winAppType i, .tick (ticks i))
            else none := by
        rw [tickCalls, tickCalls, List.range_succ, List.filterMap_append]
      rw [loopUp, ih, last]
      refine Desktop.after_bind (fun moved => ?_) apps
      by_cases shows : gui.winAppType count ≠ .none ∧ (gui.wm.windows count).visible = true
      · rw [Desktop.tick, if_pos shows, List.filterMap_cons, if_pos shows]
        exact call_eq _ _ _
      · rw [Desktop.tick, if_neg shows, List.filterMap_cons, if_neg shows]
        rfl

/-- One turn of the loop is the turn of the window tables with the calls that they decide. -/
theorem desktopStep_eq (agree : gui.TablesAgree) (apps : Apps) (frame : DesktopFrame) :
    Desktop.step ⟨gui, apps⟩ frame =
      Desktop.after (gui.next frame.gui) apps (gui.calls frame) := by
  rw [Desktop.step, Option.bind_eq_bind, mouse_eq agree]
  refine Desktop.after_bind (fun clicked => ?_) apps
  rw [keys_eq]
  exact Desktop.after_bind (fun typed => ticks_eq _ typed frame.ticks wmMaxWindows) clicked

end Routing

section Applications

/-- What an application's variables satisfy from its start on. -/
def AppSound : (app : AppType) → AppState app → Prop
  | .none, _ => True
  | .terminal, shell => ∃ session, Shell.Shows shell session
  | .snake, snake => Snake.SimplePath snake
  | .tetris, game => Tetris.Sound game
  | .raycaster, rc => Raycaster.Standing rc
  | .breakout, game => Breakout.Accounted game ∧
      Breakout.OnScreen (appWindow .breakout).w (appWindow .breakout).h game

/-- What they satisfy before it. -/
def AppFit : (app : AppType) → AppState app → Prop
  | .terminal, shell => ∃ session, Shell.Shows shell session
  | _, _ => True

variable {app : AppType} {state : AppState app}

theorem AppSound.fit (sound : AppSound app state) : AppFit app state := by
  cases app with
  | terminal => exact sound
  | _ => trivial

/-- The start of an application in a window of its size. -/
def AppCall.Starts (app : AppType) : AppCall → Prop
  | .init w h _ _ => w = (appWindow app).w ∧ h = (appWindow app).h
  | _ => False

def AppCall.Plays : AppCall → Prop
  | .init .. => False
  | _ => True

theorem appCall_starts (fit : AppFit app state) {call : AppCall} (starts : call.Starts app) :
    ∃ next, appCall app state call = some next ∧ AppSound app next := by
  cases call with
  | key view key => exact starts.elim
  | tick now => exact starts.elim
  | init w h seed now => ?_
  obtain ⟨rfl, rfl⟩ := starts
  cases app with
  | none => exact ⟨_, rfl, trivial⟩
  | terminal =>
      obtain ⟨session, shows⟩ := fit
      obtain ⟨next, run, after⟩ := appInit_shows shows.size
      exact ⟨next, run, _, after⟩
  | snake =>
      obtain ⟨start, run, simple⟩ := init_simplePath state seed now
      exact ⟨start, run, simple⟩
  | tetris =>
      obtain ⟨start, run, sound⟩ := init_sound state seed now
      exact ⟨start, run, sound⟩
  | raycaster => exact ⟨_, rfl, raycasterInit_standing⟩
  | breakout =>
      exact ⟨_, rfl, breakoutInit_accounted _ _ now,
        breakoutInit_onScreen (by decide) (by decide) now⟩

/-- The terminal's view of the kernel as its session sees it. -/
theorem KernelView.agrees (view : KernelView) :
    view.env.Agrees ⟨view.env.states, fun slot => cText (view.env.names slot).bytes, view.env.mm⟩ :=
  ⟨rfl, fun _ => rfl, rfl, view.counted⟩

theorem breakout_step_sound {game : Breakout} (sound : AppSound .breakout game)
    (call : BreakoutCall) :
    ∃ next, Breakout.step game call = some next ∧ AppSound .breakout next := by
  obtain ⟨next, stepped⟩ : ∃ next, Breakout.step game call = some next := by
    cases call <;> exact ⟨_, rfl⟩
  exact ⟨next, stepped, (breakout_step_accounted sound.1 stepped).1,
    breakout_step_onScreen (by decide) (by decide) sound.2 stepped⟩

theorem appCall_plays (sound : AppSound app state) {call : AppCall} (plays : call.Plays) :
    ∃ next, appCall app state call = some next ∧ AppSound app next := by
  cases call with
  | init w h seed now => exact plays.elim
  | key view key =>
      cases app with
      | none => exact ⟨_, rfl, trivial⟩
      | terminal =>
          obtain ⟨session, shows⟩ := sound
          obtain ⟨next, run, after⟩ := key_shows shows view.agrees key
          exact ⟨next, run, _, after⟩
      | snake => exact ⟨_, rfl, key_simplePath sound key⟩
      | tetris => exact key_sound sound key
      | raycaster => exact ⟨_, rfl, raycasterKey_standing sound key⟩
      | breakout => exact breakout_step_sound sound (.key key)
  | tick now =>
      cases app with
      | none => exact ⟨_, rfl, trivial⟩
      | terminal => exact ⟨_, rfl, sound⟩
      | snake =>
          obtain ⟨next, changed, run, simple, _⟩ := tick_simplePath sound now
          have stepped : Snake.step state (.tick now) = some next := by simp [Snake.step, run]
          exact ⟨next, stepped, simple⟩
      | tetris =>
          obtain ⟨next, changed, run, after⟩ := tick_sound sound now
          have stepped : Tetris.step state (.tick now) = some next := by simp [Tetris.step, run]
          exact ⟨next, stepped, after⟩
      | raycaster => exact ⟨_, rfl, sound⟩
      | breakout => exact breakout_step_sound sound (.tick now)

/-- Calls of applications that have been initialised, or that initialise them, all go through. -/
theorem calls_run {apps : Apps} (fit : ∀ app, AppFit app (apps app))
    {calls : List (AppType × AppCall)}
    (ready : ∀ call ∈ calls,
      AppSound call.1 (apps call.1) ∧ call.2.Plays ∨ call.2.Starts call.1) :
    ∃ final, Transition.exec (Components.stepAt appCall) apps calls = some final ∧
      (∀ app, AppFit app (final app)) ∧
      ∀ app, AppSound app (apps app) ∨ app ∈ calls.map Prod.fst → AppSound app (final app) := by
  induction calls generalizing apps with
  | nil =>
      refine ⟨apps, rfl, fit, fun app sound => sound.resolve_right ?_⟩
      exact List.not_mem_nil
  | cons call rest ih =>
      obtain ⟨here, call⟩ := call
      obtain ⟨state, run, sound⟩ : ∃ state, appCall here (apps here) call = some state ∧
          AppSound here state := by
        rcases ready (here, call) List.mem_cons_self with ⟨sound, plays⟩ | starts
        · exact appCall_plays sound plays
        · exact appCall_starts (fit here) starts
      have kept : ∀ app, AppSound app (apps app) →
          AppSound app (Function.update apps here state app) := by
        intro app before
        by_cases same : app = here
        · subst same
          rw [Function.update_self]
          exact sound
        · rw [Function.update_of_ne same]
          exact before
      have stillFit : ∀ app, AppFit app (Function.update apps here state app) := by
        intro app
        by_cases same : app = here
        · subst same
          rw [Function.update_self]
          exact sound.fit
        · rw [Function.update_of_ne same]
          exact fit app
      obtain ⟨final, runs, fits, sounds⟩ := ih stillFit fun later listed =>
        (ready later (List.mem_cons_of_mem _ listed)).imp_left (.imp_left (kept later.1))
      refine ⟨final, ?_, fits, fun app before => sounds app ?_⟩
      · rw [Transition.exec, Components.stepAt, run]
        exact runs
      · rcases before with before | listed
        · exact .inl (kept app before)
        · rcases List.mem_cons.mp listed with rfl | later
          · exact .inl (by rw [Function.update_self]; exact sound)
          · exact .inr later

end Applications

section Frames

variable {gui : Gui}

/-- A window changes its application only from none or to none, and in the first case it has the
size that the application asks for. -/
def Retyped (before : Nat → AppType) (after : Gui) : Prop :=
  ∀ id, after.winAppType id ≠ .none → after.winAppType id = before id ∨
    before id = .none ∧ (after.wm.windows id).contentW = (appWindow (after.winAppType id)).w ∧
      (after.wm.windows id).contentH = (appWindow (after.winAppType id)).h

theorem closeWindow_types (gui : Gui) (closed : Nat) {id : Nat}
    (shows : (gui.closeWindow closed).winAppType id ≠ .none) :
    (gui.closeWindow closed).winAppType id = gui.winAppType id := by
  simp only [Gui.closeWindow] at shows ⊢
  by_cases here : id = closed
  · rw [here, Function.update_self] at shows
    exact absurd rfl shows
  · exact Function.update_of_ne here _ _

theorem openApp_retyped (agree : gui.TablesAgree) (app : AppType) (content : Option Nat) :
    Retyped gui.winAppType (gui.openApp app content) := by
  intro id shows
  unfold Gui.openApp at shows ⊢
  split
  · exact .inl rfl
  next missing =>
    obtain ⟨same, _⟩ | ⟨created, below, hidden, ⟨_, same⟩ | ⟨address, _, result, _, table⟩⟩ :=
      createWindow_cases gui.wm (cString (appWindow app).title) (appWindow app).x
        (appWindow app).y (appWindow app).w (appWindow app).h content
    · simp [same]
    · simp [same]
    · have nonneg : ¬((created : Int) < 0) := by omega
      simp only [result, if_neg nonneg, Int.toNat_natCast]
      by_cases here : id = created
      · subst here
        have win := table id
        rw [Wm.showing, Function.update_self] at win
        rw [win, Function.update_self]
        exact .inr ⟨agree.none_of_hidden below hidden, rfl, rfl⟩
      · exact .inl (Function.update_of_ne here _ _)

theorem mouse_retyped (agree : gui.TablesAgree) (frame : GuiFrame) :
    Retyped gui.winAppType (gui.mouse frame) := by
  unfold Gui.mouse
  dsimp only
  split
  · split
    · have tables := startMenuClick_tables
        { gui with prevLeft := frame.mb &&& mouseBtnLeft } frame.mx frame.my
      generalize Gui.startMenuClick { gui with prevLeft := frame.mb &&& mouseBtnLeft }
        frame.mx frame.my = found at tables
      obtain ⟨clicked, choice⟩ := found
      cases choice with
      | some app =>
          have kept : clicked.TablesAgree := agree.keep tables.1 fun id => by rw [tables.2]
          rw [← tables.1]
          exact openApp_retyped kept app frame.content
      | none => exact fun id _ => .inl (congrFun tables.1 id)
    · split
      · exact fun id _ => .inl rfl
      · split
        · exact fun id shows => .inl (closeWindow_types _ _ shows)
        · exact fun id _ => .inl rfl
  · exact fun id _ => .inl rfl

theorem key_types (gui : Gui) (key : Int) {id : Nat}
    (shows : (gui.key key).winAppType id ≠ .none) :
    (gui.key key).winAppType id = gui.winAppType id := by
  unfold Gui.key at shows ⊢
  dsimp only at shows ⊢
  split at shows
  next focused =>
    rw [if_pos focused]
    split at shows
    next esc =>
      rw [if_pos esc]
      exact closeWindow_types gui _ shows
    next other => rw [if_neg other]
  next unfocused => rw [if_neg unfocused]

theorem wmGetFocused_below {wm : Wm} (focused : wm.wmGetFocused ≥ 0) :
    wm.wmGetFocused.toNat < wmMaxWindows := by
  unfold Wm.wmGetFocused at focused ⊢
  split
  next i found =>
    rw [Int.toNat_natCast]
    exact List.mem_range.mp (List.mem_of_find?_eq_some found)
  next missing =>
    rw [missing] at focused
    exact absurd focused (by decide)

theorem keyCalls_shown {keys : List (KernelView × Int)} {call : AppType × AppCall}
    (listed : call ∈ keyCalls gui keys) :
    call.2.Plays ∧ ∃ id < wmMaxWindows, gui.winAppType id ≠ .none ∧
      gui.winAppType id = call.1 := by
  induction keys generalizing gui with
  | nil => cases listed
  | cons input rest ih =>
      obtain ⟨view, key⟩ := input
      rw [keyCalls] at listed
      rcases List.mem_append.mp listed with here | later
      · split at here
        next focused =>
          obtain rfl := List.mem_singleton.mp here
          exact ⟨trivial, _, wmGetFocused_below focused.1, focused.2.1, rfl⟩
        next => cases here
      · obtain ⟨plays, id, below, shows, same⟩ := ih later
        have kept := key_types gui key shows
        exact ⟨plays, id, below, kept ▸ shows, kept ▸ same⟩

theorem keys_types (gui : Gui) (keys : List Int) {id : Nat}
    (shows : (keys.foldl Gui.key gui).winAppType id ≠ .none) :
    (keys.foldl Gui.key gui).winAppType id = gui.winAppType id := by
  induction keys generalizing gui with
  | nil => rfl
  | cons key rest ih =>
      have later := ih (gui.key key) shows
      rw [List.foldl_cons] at shows ⊢
      rw [later] at shows ⊢
      exact key_types gui key shows

theorem tickCalls_shown {ticks : Nat → BitVec 64} {call : AppType × AppCall} {count : Nat}
    (listed : call ∈ tickCalls gui ticks count) :
    call.2.Plays ∧ ∃ id < count, gui.winAppType id ≠ .none ∧ gui.winAppType id = call.1 := by
  obtain ⟨id, inRange, found⟩ := List.mem_filterMap.mp listed
  obtain ⟨shows, same⟩ := Option.ite_none_right_eq_some.mp found
  obtain rfl := Option.some.inj same
  exact ⟨trivial, id, List.mem_range.mp inRange, shows.1, rfl⟩

theorem opened_starts {before : Nat → AppType} {after : Gui} (retyped : Retyped before after)
    {frame : DesktopFrame} {call : AppType × AppCall} (listed : call ∈ opened before after frame) :
    call.2.Starts call.1 := by
  obtain ⟨id, _, found⟩ := List.mem_filterMap.mp listed
  obtain ⟨⟨absent, shows⟩, same⟩ := Option.ite_none_right_eq_some.mp found
  obtain rfl := Option.some.inj same
  rcases retyped id shows with kept | ⟨_, sized⟩
  · exact absurd (kept.trans absent) shows
  · exact sized

theorem mem_opened {before : Nat → AppType} {after : Gui} (frame : DesktopFrame) {id : Nat}
    (below : id < wmMaxWindows) (absent : before id = .none) (shows : after.winAppType id ≠ .none) :
    after.winAppType id ∈ (opened before after frame).map Prod.fst :=
  List.mem_map.mpr ⟨_, List.mem_filterMap.mpr
    ⟨id, List.mem_range.mpr below, if_pos ⟨absent, shows⟩⟩, rfl⟩

/-- Every application that a window shows has been initialised. -/
structure Desktop.Sound (desktop : Desktop) : Prop where
  agree : desktop.gui.TablesAgree
  fit : ∀ app, AppFit app (desktop.apps app)
  shown : ∀ id < wmMaxWindows, desktop.gui.winAppType id ≠ .none →
    AppSound (desktop.gui.winAppType id) (desktop.apps (desktop.gui.winAppType id))

theorem Desktop.Sound.step {desktop : Desktop} (sound : desktop.Sound) (frame : DesktopFrame) :
    ∃ next, desktop.step frame = some next ∧ next.Sound ∧
      next.gui = desktop.gui.next frame.gui ∧
      Transition.exec (Components.stepAt appCall) desktop.apps (desktop.gui.calls frame) =
        some next.apps := by
  obtain ⟨gui, apps⟩ := desktop
  obtain ⟨agree, fit, shown⟩ := sound
  let clicked := gui.mouse frame.gui
  let next := gui.next frame.gui
  have retyped := mouse_retyped agree frame.gui
  obtain ⟨started, starts, startedFit, startedSound⟩ :=
    calls_run fit fun call listed => .inr (opened_starts retyped listed)
  have ready : ∀ id < wmMaxWindows, clicked.winAppType id ≠ .none →
      AppSound (clicked.winAppType id) (started (clicked.winAppType id)) := by
    intro id below shows
    rcases retyped id shows with same | ⟨absent, _⟩
    · refine startedSound _ (.inl ?_)
      have before : gui.winAppType id ≠ .none := same ▸ shows
      exact (show clicked.winAppType id = gui.winAppType id from same) ▸ shown id below before
    · exact startedSound _ (.inr (mem_opened frame below absent shows))
  have served : ∀ call ∈ keyCalls clicked frame.keys ++ tickCalls next frame.ticks wmMaxWindows,
      AppSound call.1 (started call.1) ∧ call.2.Plays ∨ call.2.Starts call.1 := by
    intro call listed
    rcases List.mem_append.mp listed with key | tick
    · obtain ⟨plays, id, below, shows, same⟩ := keyCalls_shown key
      exact .inl ⟨same ▸ ready id below shows, plays⟩
    · obtain ⟨plays, id, below, shows, same⟩ := tickCalls_shown tick
      have kept : next.winAppType id = clicked.winAppType id := keys_types clicked _ shows
      rw [kept] at shows same
      exact .inl ⟨same ▸ ready id below shows, plays⟩
  obtain ⟨final, runs, finalFit, finalSound⟩ := calls_run startedFit served
  have whole : Transition.exec (Components.stepAt appCall) apps (gui.calls frame) =
      some final := by
    rw [Gui.calls, Transition.exec_append, starts, Option.bind_some]
    exact runs
  refine ⟨⟨next, final⟩, ?_, ⟨(agree.mouse frame.gui).keys _, finalFit, ?_⟩, rfl, whole⟩
  · rw [desktopStep_eq agree, Desktop.after, whole]
    rfl
  · intro id below shows
    have kept : next.winAppType id = clicked.winAppType id := keys_types clicked _ shows
    refine finalSound _ (.inl ?_)
    change AppSound (next.winAppType id) _
    rw [kept]
    exact ready id below (kept ▸ shows)

theorem Desktop.Sound.run {desktop : Desktop} (sound : desktop.Sound)
    (frames : List DesktopFrame) :
    ∃ final, Transition.exec Desktop.step desktop frames = some final ∧ final.Sound ∧
      Transition.exec Gui.step desktop.gui (frames.map DesktopFrame.gui) = some final.gui ∧
      Transition.exec (Components.stepAt appCall) desktop.apps (desktop.gui.allCalls frames) =
        some final.apps := by
  induction frames generalizing desktop with
  | nil => exact ⟨desktop, rfl, sound, rfl, rfl⟩
  | cons frame rest ih =>
      obtain ⟨next, stepped, kept, gui, calls⟩ := sound.step frame
      obtain ⟨final, run, finalSound, guiRun, callsRun⟩ := ih kept
      refine ⟨final, ?_, finalSound, ?_, ?_⟩
      · exact Transition.exec_cons_iff.mpr ⟨next, stepped, run⟩
      · exact Transition.exec_cons_iff.mpr ⟨next.gui, congrArg some gui.symm, guiRun⟩
      · rw [Gui.allCalls, Transition.exec_append, calls, Option.bind_some, ← gui]
        exact callsRun

end Frames

end DragoonKernel
