import DragoonKernel.Library.Transition
import DragoonKernel.VectorsStacks

/-!
Exceptions that nest and tasks that switch on one CPU, in any order. Whatever comes between, an
exception returns to what it has interrupted, and a task goes on with the context of its call.
-/

namespace DragoonKernel

/-- What an exception or a switch owes to the code that goes on. -/
def GoesOn (before : Execution) (action : VectorAction) (after : Execution) : Prop :=
  match action with
  | .sync esr => esr >>> 26 = ecSvc → after.hart.PassesArguments before.hart
  | .leave => ∀ thread frame rest, before.threads before.current = some thread →
      thread.frames = frame :: rest →
      after.hart.Resumes (match frame.kind with
        | .irq => frame.state
        | .svc => frame.state.withResult (before.hart.x 0))
  | .contextSwitch next _ _ => ∀ target context, before.threads next = some target →
      target.switched = some context →
      after.hart.context = context ∧ after.hart.pc = context.x30
  | _ => True

section Steps

variable {layout : Layout} {exec next : Execution} {thread runner : Thread} {slot : Nat}

theorem protects_false (sound : exec.Sound layout) {place : Word}
    (free : exec.protects layout place = false) (lives : exec.threads slot = some thread) :
    thread.protects (layout.ctx slot) place = false := by
  rw [Execution.protects, List.any_eq_false] at free
  have inTable := (sound.threads slot thread lives).inTable
  have here := free slot (List.mem_range.mpr (Nat.lt_succ_of_le inTable))
  rw [lives] at here
  simpa using here

theorem Execution.Sound.running_sp (sound : exec.Sound layout)
    (runs : exec.threads exec.current = some runner) :
    runner.switched = none ∧ runner.sp exec.hart = exec.hart.sp := by
  obtain ⟨other, lives, unswitched⟩ := sound.running
  obtain rfl := Option.some.inj (runs.symm.trans lives)
  exact ⟨unswitched, Thread.sp_running unswitched⟩

/-- What the running code may still push is in no frame and in no context. -/
theorem Execution.Sound.free_below (sound : exec.Sound layout)
    (runs : exec.threads exec.current = some runner) (lives : exec.threads slot = some thread)
    (place : Word) (low : runner.bottom ≤ place.toNat) (high : place.toNat < runner.limit) :
    thread.protects (layout.ctx slot) place = false := by
  have runnerSound := sound.threads exec.current runner runs
  have limit : runner.limit ≤ runner.top := by
    have top := (runnerSound.stacked.move (Nat.le_refl runner.limit)).le_top
    exact top
  refine (sound.threads slot thread lives).outside_stack runner.bottom runner.limit ?_ ?_ low high
  · intro frame listed
    by_cases here : slot = exec.current
    · subst here
      obtain rfl := Option.some.inj (lives.symm.trans runs)
      exact .inl (runnerSound.stacked.limit_le_frame listed)
    · have away := sound.apart exec.current slot runner thread runs lives (Ne.symm here)
      have bounds := (sound.threads slot thread lives).stacked.frame listed
      have bottom := (sound.threads slot thread lives).bottom
      rw [Apart] at away ⊢
      omega
  · intro other inTable
    have away := runnerSound.contexts other inTable
    rw [Apart] at away ⊢
    omega

theorem Execution.Sound.compute (sound : exec.Sound layout)
    (runs : exec.threads exec.current = some runner) {after : Hart} {writes : List (Word × Word)}
    (inside : runner.Inside after.sp)
    (free : ∀ write ∈ writes, exec.protects layout write.1 = false) :
    Execution.Sound layout
      { exec with hart := { after with memory := writeAll exec.hart.memory writes } } := by
  refine ⟨sound.running, sound.parked, sound.apart, fun slot thread lives => ?_⟩
  have same : ∀ place, thread.protects (layout.ctx slot) place = true →
      writeAll exec.hart.memory writes place = exec.hart.memory place := by
    intro place guarded
    refine writeAll_other fun write listed there => ?_
    have unguarded := protects_false sound (free write listed) lives
    rw [there, guarded] at unguarded
    cases unguarded
  by_cases here : slot = exec.current
  · subst here
    obtain rfl := Option.some.inj (lives.symm.trans runs)
    have unswitched := (sound.running_sp runs).1
    refine (sound.threads _ _ lives).keep same ?_ ?_
    · rw [Thread.sp_running unswitched]
      exact inside.1
    · rw [Thread.sp_running unswitched]
      exact inside.2.1
  · exact (sound.threads slot thread lives).keep_parked (sound.parked slot thread lives here) same

/-- The running code's frames change and nothing that the others have in memory. -/
theorem Execution.Sound.replace (sound : exec.Sound layout)
    (runs : exec.threads exec.current = some runner) {after : Hart} {changed : Thread}
    (bottom : changed.bottom = runner.bottom) (top : changed.top = runner.top)
    (unswitched : changed.switched = none)
    (changedSound : changed.Sound layout after exec.current)
    (same : ∀ slot thread, exec.threads slot = some thread → slot ≠ exec.current → ∀ place,
      thread.protects (layout.ctx slot) place = true → after.memory place = exec.hart.memory place) :
    Execution.Sound layout { exec with
      hart := after
      threads := Function.update exec.threads exec.current (some changed) } := by
  have region : ∀ slot thread,
      Function.update exec.threads exec.current (some changed) slot = some thread →
      ∃ before, exec.threads slot = some before ∧ before.bottom = thread.bottom ∧
        before.top = thread.top := by
    intro slot thread lives
    by_cases here : slot = exec.current
    · subst here
      rw [Function.update_self] at lives
      obtain rfl := Option.some.inj lives
      exact ⟨runner, runs, bottom.symm, top.symm⟩
    · rw [Function.update_of_ne here] at lives
      exact ⟨thread, lives, rfl, rfl⟩
  refine ⟨⟨changed, Function.update_self .., unswitched⟩, ?_, ?_, ?_⟩
  · intro slot thread lives other
    simp only [Function.update_of_ne other] at lives
    exact sound.parked slot thread lives other
  · intro first second one other firstLives secondLives different
    obtain ⟨oneBefore, livedFirst, oneBottom, oneTop⟩ := region first one firstLives
    obtain ⟨otherBefore, livedSecond, otherBottom, otherTop⟩ := region second other secondLives
    rw [← oneBottom, ← oneTop, ← otherBottom, ← otherTop]
    exact sound.apart first second oneBefore otherBefore livedFirst livedSecond different
  · intro slot thread lives
    by_cases here : slot = exec.current
    · subst here
      simp only [Function.update_self, Option.some.injEq] at lives
      exact lives ▸ changedSound
    · simp only [Function.update_of_ne here] at lives
      exact (sound.threads slot thread lives).keep_parked (sound.parked slot thread lives here)
        (same slot thread lives here)

/-- The exception's frame is pushed onto the stack of the running code. -/
theorem Execution.Sound.enter (sound : exec.Sound layout)
    (runs : exec.threads exec.current = some runner) (kind : EntryKind) {returnAddress : Word}
    {entered : Hart} (room : runner.bottom + frameSize ≤ exec.hart.sp.toNat)
    (memory : entered.memory = writeAll exec.hart.memory
      (placed (exec.hart.sp - 272) (exec.hart.interrupted returnAddress).contents))
    (sp : entered.sp = exec.hart.sp - 272) :
    (exec.enter runner kind returnAddress entered).Sound layout := by
  have runnerSound := sound.threads exec.current runner runs
  obtain ⟨unswitched, atSp⟩ := sound.running_sp runs
  have base : (exec.hart.sp - 272).toNat + frameSize = exec.hart.sp.toNat := by
    rw [frameSize] at room ⊢
    bv_omega
  have stacked := runnerSound.stacked
  rw [atSp] at stacked
  have limit := stacked.le_limit
  have top := runnerSound.top
  have under := stacked.le_top
  have laid := (exec.hart.interrupted returnAddress).laidOut
  have same : ∀ slot thread, exec.threads slot = some thread → ∀ place,
      thread.protects (layout.ctx slot) place = true →
      entered.memory place = exec.hart.memory place := by
    intro slot thread lives place guarded
    rw [memory]
    refine laid.outside (by omega) fun within => ?_
    rw [Within] at within
    have unguarded := sound.free_below runs lives place (by omega) (by omega)
    rw [guarded] at unguarded
    cases unguarded
  refine sound.replace runs rfl rfl unswitched ?_ fun slot thread lives _ => same slot thread lives
  let pushed : Thread := { runner with
    frames := ⟨kind, exec.hart.interrupted returnAddress⟩ :: runner.frames }
  have atEntered : pushed.sp entered = entered.sp := Thread.sp_running unswitched
  have spAfter : pushed.sp entered = exec.hart.sp - 272 := atEntered.trans sp
  refine ⟨runnerSound.inTable, top, runnerSound.contexts, ?_, ?_, ?_, ?_⟩
  · rw [spAfter]
    change runner.bottom ≤ _
    omega
  · rw [spAfter]
    exact ⟨Nat.le_refl _, base, stacked⟩
  · intro frame listed
    rcases List.mem_cons.mp listed with rfl | before
    · rw [memory]
      exact laid.written
    · have bounds := stacked.frame before
      exact (runnerSound.frames frame before).keep frame.state.laidOut (by omega)
        fun place within => same _ runner runs place (protects_frame before within)
  · intro context switched
    cases unswitched.symm.trans switched

/-- The innermost frame is popped, whatever has become of its own memory. -/
theorem Execution.Sound.leave (sound : exec.Sound layout)
    (runs : exec.threads exec.current = some runner) {frame : ExceptionFrame}
    {rest : List ExceptionFrame} (frames : runner.frames = frame :: rest) {after : Hart}
    (sp : after.sp = frame.state.sp)
    (same : ∀ place, ¬Within frame.base frameSize place →
      after.memory place = exec.hart.memory place) :
    Execution.Sound layout { exec with
      hart := after
      threads := Function.update exec.threads exec.current
        (some { runner with frames := rest }) } := by
  have runnerSound := sound.threads exec.current runner runs
  obtain ⟨unswitched, atSp⟩ := sound.running_sp runs
  have stacked := runnerSound.stacked
  rw [frames] at stacked
  obtain ⟨below, size, above⟩ := stacked
  have bottom := runnerSound.bottom
  have low : runner.bottom ≤ frame.base.toNat := Nat.le_trans bottom below
  have high := above.le_top
  have top := runnerSound.top
  refine sound.replace runs rfl rfl unswitched ?_ ?_
  · let popped : Thread := { runner with frames := rest }
    have atAfter : popped.sp after = after.sp := Thread.sp_running unswitched
    have spAfter : popped.sp after = frame.state.sp := atAfter.trans sp
    refine ⟨runnerSound.inTable, top, runnerSound.contexts, ?_, ?_, ?_, ?_⟩
    · rw [spAfter]
      change runner.bottom ≤ _
      omega
    · rw [spAfter]
      exact above
    · intro other listed
      have inRunner : other ∈ runner.frames := frames ▸ List.mem_cons_of_mem frame listed
      have bounds := above.frame listed
      refine (runnerSound.frames other inRunner).keep other.state.laidOut (by omega) ?_
      intro place within
      refine same place fun inside => ?_
      rw [Within] at within inside
      omega
    · intro context switched
      cases unswitched.symm.trans switched
  · intro slot thread lives other place guarded
    refine same place fun inside => ?_
    have free : thread.protects (layout.ctx slot) place = false := by
      rw [Within] at inside
      refine (sound.threads slot thread lives).outside_stack frame.base.toNat
        (frame.base.toNat + frameSize) ?_ ?_ inside.1 inside.2
      · intro further listed
        have away := sound.apart exec.current slot runner thread runs lives (Ne.symm other)
        have bounds := (sound.threads slot thread lives).stacked.frame listed
        have theirs := (sound.threads slot thread lives).bottom
        rw [Apart] at away ⊢
        omega
      · intro further inTable
        have away := runnerSound.contexts further inTable
        rw [Apart] at away ⊢
        omega
    rw [guarded] at free
    cases free

theorem callSwitch_frame (hart : Hart) (old new ttbr0 link : Word) :
    (hart.callSwitch old new ttbr0 link).memory = hart.memory ∧
      (hart.callSwitch old new ttbr0 link).sp = hart.sp ∧
      (hart.callSwitch old new ttbr0 link).x 0 = old ∧
      (hart.callSwitch old new ttbr0 link).x 1 = new := ⟨rfl, rfl, rfl, rfl⟩

/-- The running code is saved where no frame and no context of a parked thread lies. -/
theorem Execution.Sound.saves_apart (sound : exec.Sound layout) (called : TaskContext)
    (lives : exec.threads slot = some thread) (place : Word)
    (guarded : thread.protects (layout.ctx slot) place = true) :
    writeAll exec.hart.memory (placed (layout.ctx exec.oldSlot) called.contents) place =
      exec.hart.memory place := by
  obtain ⟨runner, runs, unswitched⟩ := sound.running
  have oldInTable : exec.oldSlot ≤ deadSlot := by
    rw [Execution.oldSlot]
    split
    · exact Nat.le_refl _
    · exact Nat.le_succ_of_le (sound.threads _ _ runs).inTable
  refine called.laidOut.outside (layout.fits exec.oldSlot oldInTable) fun within => ?_
  have unguarded : thread.protects (layout.ctx slot) place = false := by
    refine (sound.threads slot thread lives).outside_context oldInTable ?_ within
    intro parked here
    rw [Execution.oldSlot] at here
    split at here
    · have inTable := (sound.threads slot thread lives).inTable
      rw [here, idleSlot, deadSlot] at inTable
      omega
    · subst here
      obtain rfl := Option.some.inj (lives.symm.trans runs)
      exact parked unswitched
  rw [guarded] at unguarded
  cases unguarded

theorem Execution.Sound.switch (sound : exec.Sound layout)
    (runs : exec.threads exec.current = some runner) {target : Thread} {context : TaskContext}
    (lives : exec.threads slot = some target) (switched : target.switched = some context)
    {after : Hart} {called : TaskContext} (atCall : called.sp = exec.hart.sp)
    (memory : after.memory = writeAll exec.hart.memory
      (placed (layout.ctx exec.oldSlot) called.contents))
    (loaded : after.context = context) :
    Execution.Sound layout { exec with
      hart := after
      threads := Function.update
        (Function.update exec.threads exec.current (exec.leaveThread runner called))
        slot (some { target with switched := none })
      current := slot
      dying := false } := by
  obtain ⟨unswitched, atSp⟩ := sound.running_sp runs
  have same : ∀ slot thread, exec.threads slot = some thread → ∀ place,
      thread.protects (layout.ctx slot) place = true →
      after.memory place = exec.hart.memory place := by
    intro slot thread lives place guarded
    rw [memory]
    exact sound.saves_apart called lives place guarded
  have sp : after.sp = context.sp := congrArg TaskContext.sp loaded
  have region : ∀ other thread,
      Function.update (Function.update exec.threads exec.current (exec.leaveThread runner called))
        slot (some { target with switched := none }) other = some thread →
      ∃ before, exec.threads other = some before ∧ before.bottom = thread.bottom ∧
        before.top = thread.top ∧ thread.Sound layout after other ∧
        (other ≠ slot → thread.switched ≠ none) := by
    intro other thread now
    by_cases entered : other = slot
    · subst entered
      rw [Function.update_self, Option.some.injEq] at now
      subst now
      refine ⟨target, lives, rfl, rfl, ?_, fun away => absurd rfl away⟩
      have parked : target.switched ≠ none := switched ▸ Option.some_ne_none context
      refine ((sound.threads other target lives).keep_parked parked
        (same other target lives)).switchTo ?_
      rw [sp, Thread.sp, switched]
    · rw [Function.update_of_ne entered] at now
      by_cases left : other = exec.current
      · subst left
        rw [Function.update_self, Execution.leaveThread] at now
        split at now
        · cases now
        · obtain rfl := Option.some.inj now
          refine ⟨runner, runs, rfl, rfl, ?_, fun _ => Option.some_ne_none called⟩
          have runnerSound := sound.threads exec.current runner runs
          refine runnerSound.switchFrom (atCall.trans atSp.symm) ?_ ?_
          · intro frame listed
            have bounds := runnerSound.stacked.frame listed
            have top := runnerSound.top
            exact (runnerSound.frames frame listed).keep frame.state.laidOut (by omega)
              fun place within => same _ runner runs place (protects_frame listed within)
          · rw [memory, Execution.oldSlot, if_neg ‹_›]
            exact called.laidOut.written
      · rw [Function.update_of_ne left] at now
        have parked := sound.parked other thread now left
        exact ⟨thread, now, rfl, rfl,
          (sound.threads other thread now).keep_parked parked (same other thread now),
          fun _ => parked⟩
  refine ⟨⟨_, Function.update_self .., rfl⟩, ?_, ?_, ?_⟩
  · intro other thread now away
    obtain ⟨_, _, _, _, _, parked⟩ := region other thread now
    exact parked away
  · intro first second one other firstNow secondNow apart
    obtain ⟨before, livedFirst, bottom, top, _⟩ := region first one firstNow
    obtain ⟨before', livedSecond, bottom', top', _⟩ := region second other secondNow
    rw [← bottom, ← top, ← bottom', ← top']
    exact sound.apart first second before before' livedFirst livedSecond apart
  · intro other thread now
    obtain ⟨_, _, _, _, kept, _⟩ := region other thread now
    exact kept

theorem stackTop_toNat {stack : Nat} (aligned : stack % pageSize = 0)
    (fits : stack + taskStackSize < 2 ^ 64) : (stackTop stack).toNat = stack + taskStackSize := by
  obtain ⟨count, top⟩ : ∃ count, stack + taskStackSize = 2 ^ 4 * count := by
    refine ⟨(stack + taskStackSize) / 2 ^ 4, ?_⟩
    rw [pageSize] at aligned
    rw [taskStackSize]
    omega
  have mask : ∀ position : Fin 64, (~~~0xF : Word).getLsbD position = decide (4 ≤ position.val) := by
    decide
  have bits : stackTop stack = BitVec.ofNat 64 (stack + taskStackSize) := by
    apply BitVec.eq_of_getLsbD_eq
    intro position bound
    rw [stackTop, BitVec.getLsbD_and, mask ⟨position, bound⟩, BitVec.getLsbD_ofNat, top,
      Nat.testBit_two_pow_mul]
    by_cases low : 4 ≤ position
    · simp [low]
    · simp [low]
  rw [bits, BitVec.toNat_ofNat, Nat.mod_eq_of_lt fits]

theorem Execution.Sound.create (sound : exec.Sound layout) (inTable : slot < maxTasks)
    (vacant : exec.threads slot = none) {stack : Nat} (free : exec.StackFree layout stack)
    {context : TaskContext} (sp : context.sp = stackTop stack) :
    Execution.Sound layout { exec with
      hart := { exec.hart with
        memory := writeAll exec.hart.memory (placed (layout.ctx slot) context.contents) }
      threads := Function.update exec.threads slot
        (some ⟨stack, stack + taskStackSize, [], some context⟩) } := by
  obtain ⟨aligned, fits, contexts, around⟩ := free
  have away : ∀ other thread, exec.threads other = some thread →
      Apart stack (stack + taskStackSize) thread.bottom thread.top := by
    intro other thread lives
    have inRange := (sound.threads other thread lives).inTable
    have here := List.all_eq_true.mp around other (List.mem_range.mpr (Nat.lt_succ_of_le inRange))
    rw [lives] at here
    exact of_decide_eq_true here
  have below : slot ≤ deadSlot := by
    rw [deadSlot]
    omega
  have laid := context.laidOut
  obtain ⟨runner, runs, unswitched⟩ := sound.running
  have other : exec.current ≠ slot := by
    intro same
    rw [same, vacant] at runs
    cases runs
  have same : ∀ number thread, exec.threads number = some thread → ∀ place,
      thread.protects (layout.ctx number) place = true →
      writeAll exec.hart.memory (placed (layout.ctx slot) context.contents) place =
        exec.hart.memory place := by
    intro number thread lives place guarded
    refine laid.outside (layout.fits slot below) fun within => ?_
    have unguarded : thread.protects (layout.ctx number) place = false := by
      refine (sound.threads number thread lives).outside_context below ?_ within
      intro _ here
      rw [here, vacant] at lives
      cases lives
    rw [guarded] at unguarded
    cases unguarded
  have top := stackTop_toNat aligned fits
  have region : ∀ number thread,
      Function.update exec.threads slot
        (some ⟨stack, stack + taskStackSize, [], some context⟩) number = some thread →
      number ≠ slot ∧ exec.threads number = some thread ∨ number = slot ∧
        thread = ⟨stack, stack + taskStackSize, [], some context⟩ := by
    intro number thread now
    by_cases here : number = slot
    · subst here
      rw [Function.update_self] at now
      exact .inr ⟨rfl, (Option.some.inj now).symm⟩
    · rw [Function.update_of_ne here] at now
      exact .inl ⟨here, now⟩
  refine ⟨⟨runner, ?_, unswitched⟩, ?_, ?_, ?_⟩
  · exact (Function.update_of_ne other _ _).trans runs
  · intro number thread now parked
    rcases region number thread now with ⟨_, before⟩ | ⟨_, rfl⟩
    · exact sound.parked number thread before parked
    · exact Option.some_ne_none context
  · intro first second one two firstNow secondNow different
    rcases region first one firstNow with ⟨_, before⟩ | ⟨here, rfl⟩
    · rcases region second two secondNow with ⟨_, before'⟩ | ⟨_, rfl⟩
      · exact sound.apart first second one two before before' different
      · exact (away first one before).symm
    · rcases region second two secondNow with ⟨_, before'⟩ | ⟨there, _⟩
      · exact away second two before'
      · exact absurd (here.trans there.symm) different
  · intro number thread now
    rcases region number thread now with ⟨_, before⟩ | ⟨rfl, rfl⟩
    · by_cases runningNow : number = exec.current
      · subst runningNow
        obtain rfl := Option.some.inj (before.symm.trans runs)
        have kept := sound.threads _ _ before
        have atSp : thread.sp exec.hart = exec.hart.sp := Thread.sp_running unswitched
        refine kept.keep (same _ thread before) ?_ ?_
        · exact (Thread.sp_running unswitched).trans atSp.symm ▸ kept.bottom
        · exact (Thread.sp_running unswitched).trans atSp.symm ▸ kept.stacked.le_limit
      · exact (sound.threads number thread before).keep_parked
          (sound.parked number thread before runningNow) (same number thread before)
    · refine ⟨by rw [idleSlot]; omega, fits, fun other inTable => contexts other ?_, ?_, ?_, ?_, ?_⟩
      · exact Nat.lt_succ_of_le inTable
      · change stack ≤ context.sp.toNat
        rw [sp, top]
        exact Nat.le_add_right stack taskStackSize
      · change context.sp.toNat ≤ stack + taskStackSize
        rw [sp, top]
      · intro frame listed
        cases listed
      · intro saved same
        obtain rfl := Option.some.inj same
        exact laid.written

theorem Execution.Sound.destroy (sound : exec.Sound layout) (parked : slot ≠ exec.current) :
    Execution.Sound layout
      { exec with threads := Function.update exec.threads slot none } := by
  have region : ∀ number thread,
      Function.update exec.threads slot none number = some thread →
      exec.threads number = some thread := by
    intro number thread now
    by_cases here : number = slot
    · subst here
      rw [Function.update_self] at now
      cases now
    · rwa [Function.update_of_ne here] at now
  obtain ⟨runner, runs, unswitched⟩ := sound.running
  refine ⟨⟨runner, (Function.update_of_ne parked.symm _ _).trans runs, unswitched⟩, ?_, ?_, ?_⟩
  · exact fun number thread now => sound.parked number thread (region number thread now)
  · exact fun first second one two firstNow secondNow =>
      sound.apart first second one two (region _ _ firstNow) (region _ _ secondNow)
  · exact fun number thread now => sound.threads number thread (region number thread now)

theorem Execution.Sound.sync (sound : exec.Sound layout)
    (runs : exec.threads exec.current = some runner)
    (room : runner.bottom + frameSize ≤ exec.hart.sp.toNat) (returnAddress esr : Word)
    (svc : esr >>> 26 = ecSvc) :
    ∃ entered,
      (Hart.takeException { exec.hart with sys := Function.update exec.hart.sys .esr esr }
        returnAddress).handlerSync layout.symbols = (entered, true) ∧
      (exec.enter runner .svc returnAddress entered).Sound layout ∧
      entered.PassesArguments exec.hart := by
  let hart : Hart := { exec.hart with sys := Function.update exec.hart.sys .esr esr }
  have isSvc : hart.sys .esr >>> 26 = ecSvc := svc
  obtain ⟨entered, handler, memory, sp, passes⟩ :=
    handlerSync_entered hart layout.symbols returnAddress isSvc
  refine ⟨entered, handler, sound.enter runs .svc room memory sp, ?_⟩
  exact ⟨passes.number, passes.first, passes.second, passes.third, passes.fourth⟩

theorem Execution.Sound.resumes (sound : exec.Sound layout)
    (runs : exec.threads exec.current = some runner) {frame : ExceptionFrame}
    {rest : List ExceptionFrame} (frames : runner.frames = frame :: rest)
    (returned : exec.hart.sp = frame.base) :
    (exec.hart.afterHandler frame.kind).Resumes (match frame.kind with
      | .irq => frame.state
      | .svc => frame.state.withResult (exec.hart.x 0)) ∧
    ∀ place, ¬Within frame.base frameSize place →
      (exec.hart.afterHandler frame.kind).memory place = exec.hart.memory place := by
  have listed : frame ∈ runner.frames := frames ▸ List.mem_cons_self
  have held := (sound.threads exec.current runner runs).frames frame listed
  rw [← returned] at held
  have stacked : exec.hart.sp = frame.state.sp - 272 := returned
  cases kind : frame.kind with
  | irq =>
      obtain ⟨resumes, memory⟩ := afterIrq_resumes held stacked
      exact ⟨resumes, fun place _ => congrFun memory place⟩
  | svc =>
      obtain ⟨resumes, memory⟩ := afterSyscall_resumes held stacked
      refine ⟨resumes, fun place outside => ?_⟩
      refine (congrFun memory place).trans (Function.update_of_ne ?_ _ _)
      rintro rfl
      have first : exec.hart.sp + 0 = frame.base := returned ▸ BitVec.add_zero exec.hart.sp
      rw [first, Within, frameSize] at outside
      omega

end Steps

section Runs

variable {layout : Layout} {exec next : Execution}

/-- Nothing happens any more on a halted CPU. -/
def Execution.Good (layout : Layout) (exec : Execution) : Prop :=
  exec.halted = true ∨ exec.Sound layout

theorem Execution.Sound.step (sound : exec.Sound layout) {action : VectorAction}
    (stepped : exec.step layout action = some next) :
    next.Good layout ∧ GoesOn exec action next := by
  rw [Execution.step] at stepped
  split at stepped
  · cases stepped
  obtain ⟨runner, runs, step⟩ := Option.bind_eq_some_iff.mp stepped
  cases action with
  | compute after writes =>
      obtain ⟨⟨inside, free⟩, rfl⟩ := Option.ite_none_right_eq_some.mp step |>.imp_right Option.some.inj
      have apart : ∀ write ∈ writes, exec.protects layout write.1 = false := by
        intro write listed
        have checked := List.all_eq_true.mp free write listed
        exact Bool.not_eq_true' _ |>.mp (Bool.and_elim_right checked)
      exact ⟨.inr (sound.compute runs inside apart), trivial⟩
  | irq =>
      obtain ⟨⟨_, room⟩, rfl⟩ := Option.ite_none_right_eq_some.mp step |>.imp_right Option.some.inj
      obtain ⟨memory, sp⟩ := handlerIrq_entered exec.hart layout.symbols exec.hart.pc
      exact ⟨.inr (sound.enter runs .irq room memory sp), trivial⟩
  | sync esr =>
      simp only [Option.ite_none_right_eq_some] at step
      obtain ⟨room, entry⟩ := step
      by_cases svc : esr >>> 26 = ecSvc
      · obtain ⟨entered, handler, kept, passes⟩ :=
          sound.sync runs room (exec.hart.pc + 4) esr svc
        rw [if_pos svc, handler] at entry
        obtain rfl := Option.some.inj entry
        exact ⟨.inr kept, fun _ => passes⟩
      · refine ⟨.inl ?_, fun same => absurd same svc⟩
        have fault : ∃ entered,
            (Hart.takeException { exec.hart with sys := Function.update exec.hart.sys .esr esr }
              exec.hart.pc).handlerSync layout.symbols = (entered, false) := handlerSync_other svc
        obtain ⟨entered, handler⟩ := fault
        rw [if_neg svc, handler] at entry
        obtain rfl := Option.some.inj entry
        rfl
  | invalid =>
      obtain rfl := Option.some.inj step
      exact ⟨.inl rfl, trivial⟩
  | leave =>
      cases frames : runner.frames with
      | nil =>
          simp only [frames] at step
          cases step
      | cons frame rest =>
          simp only [frames] at step
          obtain ⟨⟨returned, _⟩, rfl⟩ :=
            Option.ite_none_right_eq_some.mp step |>.imp_right Option.some.inj
          obtain ⟨resumes, memory⟩ := sound.resumes runs frames returned
          refine ⟨.inr (sound.leave runs frames ?_ memory), ?_⟩
          · rw [resumes.sp]
            cases frame.kind <;> rfl
          · intro thread first others lives entries
            obtain rfl := Option.some.inj (runs.symm.trans lives)
            obtain ⟨rfl, rfl⟩ := List.cons.inj (frames.symm.trans entries)
            exact resumes
  | contextSwitch slot ttbr0 link =>
      obtain ⟨target, lives, switch⟩ := Option.bind_eq_some_iff.mp step
      obtain ⟨parked, rfl⟩ :=
        Option.ite_none_right_eq_some.mp switch |>.imp_right Option.some.inj
      obtain ⟨context, switched⟩ := Option.isSome_iff_exists.mp parked
      let hart := exec.hart.callSwitch (layout.ctx exec.oldSlot) (layout.ctx slot) ttbr0 link
      obtain ⟨sameMemory, sameSp, old, new⟩ :=
        callSwitch_frame exec.hart (layout.ctx exec.oldSlot) (layout.ctx slot) ttbr0 link
      have held : HeldAt (writeAll exec.hart.memory
          (placed (layout.ctx exec.oldSlot) hart.context.contents))
          (layout.ctx slot) context.contents := by
        have targetSound := sound.threads slot target lives
        have inTable : slot ≤ deadSlot := Nat.le_succ_of_le targetSound.inTable
        exact (targetSound.context context switched).keep context.laidOut
          (layout.fits slot inTable) fun place within =>
            sound.saves_apart hart.context lives place (protects_context switched within)
      obtain ⟨memory, loaded, pc⟩ := contextSwitch_loads_held hart rfl held
      refine ⟨.inr (sound.switch runs lives switched sameSp memory loaded), ?_⟩
      intro other saved livesToo savedToo
      obtain rfl := Option.some.inj (lives.symm.trans livesToo)
      obtain rfl := Option.some.inj (switched.symm.trans savedToo)
      exact ⟨loaded, pc⟩
  | create slot stack entry =>
      obtain ⟨⟨inTable, vacant, free⟩, rfl⟩ :=
        Option.ite_none_right_eq_some.mp step |>.imp_right Option.some.inj
      exact ⟨.inr (sound.create inTable vacant free rfl), trivial⟩
  | exit =>
      obtain ⟨_, rfl⟩ := Option.ite_none_right_eq_some.mp step |>.imp_right Option.some.inj
      exact ⟨.inr ⟨sound.running, sound.parked, sound.apart, sound.threads⟩, trivial⟩
  | destroy slot =>
      obtain ⟨⟨_, parked⟩, rfl⟩ :=
        Option.ite_none_right_eq_some.mp step |>.imp_right Option.some.inj
      exact ⟨.inr (sound.destroy parked), trivial⟩

def smallContext (slot : Nat) : Word := BitVec.ofNat 64 (4096 + 128 * slot)

theorem smallContext_toNat {slot : Nat} (inTable : slot ≤ deadSlot) :
    (smallContext slot).toNat = 4096 + 128 * slot := by
  rw [deadSlot, maxTasks] at inTable
  rw [smallContext, BitVec.toNat_ofNat]
  omega

theorem smallContext_fits (slot : Nat) (inTable : slot ≤ deadSlot) :
    (smallContext slot).toNat + contextSize ≤ 2 ^ 64 := by
  rw [smallContext_toNat inTable, contextSize]
  rw [deadSlot, maxTasks] at inTable
  omega

theorem smallContext_distinct (first : Nat) (one : first ≤ deadSlot) (second : Nat)
    (two : second ≤ deadSlot) (different : first ≠ second) :
    Apart (smallContext first).toNat ((smallContext first).toNat + contextSize)
      (smallContext second).toNat ((smallContext second).toNat + contextSize) := by
  rw [smallContext_toNat one, smallContext_toNat two, Apart, contextSize]
  omega

theorem smallContext_belowStack (slot : Nat) (inTable : slot ≤ deadSlot) :
    Apart 16384 20480 (smallContext slot).toNat ((smallContext slot).toNat + contextSize) := by
  rw [smallContext_toNat inTable, Apart, contextSize]
  rw [deadSlot, maxTasks] at inTable
  omega

theorem smallStack_fits : 16384 ≤ 20480 ∧ 20480 < 2 ^ 64 := by decide

/-- Contexts from 4096 on and a page of boot stack at 16384. -/
def smallLayout : Layout where
  symbols := ⟨1, 2, 3, 4, 5, 6, 7, 8⟩
  ctx := smallContext
  bootBottom := 16384
  bootTop := 20480
  fits := smallContext_fits
  distinct := smallContext_distinct
  boot := smallStack_fits
  bootApart := smallContext_belowStack

/-- A new task makes a system call, whose handler lets an IRQ in and loses all registers to it. -/
example :
    let zero : Hart := ⟨fun _ => 0, 0, 0, 0, fun _ => 0, fun _ => 0⟩
    let inHandler : Hart := { zero with x := fun _ => 7, sp := 48800 }
    let returned : Hart := { zero with x := fun _ => 9, sp := 48800 - 272, pc := 4 }
    (Transition.exec (Execution.step smallLayout) (.boot smallLayout zero)
      [.create 0 32768 100, .contextSwitch 0 0 50, .sync 0x56000000, .compute inHandler [],
        .irq, .compute returned [], .leave]).map
      (fun exec => (exec.hart.x 30, exec.hart.sp)) = some (7, 48800) := by
  decide +kernel

end Runs

end DragoonKernel
