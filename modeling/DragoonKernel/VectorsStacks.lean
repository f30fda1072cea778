import DragoonKernel.VectorsThreads

/-!
What the stacks and the contexts hold: frames one above the other, and the context of each task
that does not run.
-/

namespace DragoonKernel

/-- Frames one above the other, from the stack pointer up to the top of the stack. -/
def Stacked (top : Nat) : Nat → List ExceptionFrame → Prop
  | sp, [] => sp ≤ top
  | sp, frame :: rest => sp ≤ frame.base.toNat ∧
      frame.base.toNat + frameSize = frame.state.sp.toNat ∧
      Stacked top frame.state.sp.toNat rest

/-- The stack pointer of the running thread is the CPU's. -/
def Thread.sp (thread : Thread) (hart : Hart) : Word :=
  match thread.switched with
  | some context => context.sp
  | none => hart.sp

structure Thread.Sound (layout : Layout) (hart : Hart) (slot : Nat) (thread : Thread) : Prop where
  inTable : slot ≤ idleSlot
  top : thread.top < 2 ^ 64
  contexts : ∀ other ≤ deadSlot, Apart thread.bottom thread.top
    (layout.ctx other).toNat ((layout.ctx other).toNat + contextSize)
  bottom : thread.bottom ≤ (thread.sp hart).toNat
  stacked : Stacked thread.top (thread.sp hart).toNat thread.frames
  frames : ∀ frame ∈ thread.frames, HeldAt hart.memory frame.base frame.state.contents
  context : ∀ context, thread.switched = some context →
    HeldAt hart.memory (layout.ctx slot) context.contents

structure Execution.Sound (layout : Layout) (exec : Execution) : Prop where
  running : ∃ thread, exec.threads exec.current = some thread ∧ thread.switched = none
  parked : ∀ slot thread, exec.threads slot = some thread → slot ≠ exec.current →
    thread.switched ≠ none
  apart : ∀ first second one other, exec.threads first = some one →
    exec.threads second = some other → first ≠ second →
    Apart one.bottom one.top other.bottom other.top
  threads : ∀ slot thread, exec.threads slot = some thread →
    thread.Sound layout exec.hart slot

section Stacks

variable {layout : Layout} {hart after : Hart} {slot : Nat} {thread : Thread}
  {frames : List ExceptionFrame} {top sp : Nat}

theorem Stacked.le_top (stacked : Stacked top sp frames) : sp ≤ top := by
  induction frames generalizing sp with
  | nil => exact stacked
  | cons frame rest ih =>
      obtain ⟨below, size, above⟩ := stacked
      have bound := ih above
      omega

theorem Stacked.frame (stacked : Stacked top sp frames) {frame : ExceptionFrame}
    (listed : frame ∈ frames) :
    sp ≤ frame.base.toNat ∧ frame.base.toNat + frameSize ≤ top := by
  induction frames generalizing sp with
  | nil => cases listed
  | cons first rest ih =>
      obtain ⟨below, size, above⟩ := stacked
      have bound := above.le_top
      rcases List.mem_cons.mp listed with rfl | later
      · exact ⟨below, by omega⟩
      · obtain ⟨low, high⟩ := ih above later
        exact ⟨by omega, high⟩

theorem Stacked.le_limit (stacked : Stacked thread.top sp thread.frames) : sp ≤ thread.limit := by
  rw [Thread.limit]
  cases listed : thread.frames with
  | nil => exact (listed ▸ stacked : Stacked thread.top sp [])
  | cons frame rest => exact (listed ▸ stacked : Stacked thread.top sp (frame :: rest)).1

theorem Stacked.move {moved : Nat} (stacked : Stacked thread.top sp thread.frames)
    (inside : moved ≤ thread.limit) : Stacked thread.top moved thread.frames := by
  rw [Thread.limit] at inside
  cases listed : thread.frames with
  | nil =>
      rw [listed] at inside
      exact inside
  | cons frame rest =>
      rw [listed] at inside stacked
      exact ⟨inside, stacked.2⟩

theorem Stacked.limit_le_frame (stacked : Stacked thread.top sp thread.frames)
    {frame : ExceptionFrame} (listed : frame ∈ thread.frames) :
    thread.limit ≤ frame.base.toNat := by
  rw [Thread.limit]
  cases all : thread.frames with
  | nil => rw [all] at listed; cases listed
  | cons first rest =>
      rw [all] at listed stacked
      rcases List.mem_cons.mp listed with rfl | later
      · exact Nat.le_refl _
      · have above := (stacked.2.2.frame later).1
        have size := stacked.2.1
        simp only
        omega

theorem protects_frame {ctx place : Word} {frame : ExceptionFrame}
    (listed : frame ∈ thread.frames) (within : Within frame.base frameSize place) :
    thread.protects ctx place = true := by
  rw [Thread.protects, Bool.or_eq_true]
  exact .inl (List.any_eq_true.mpr ⟨frame, listed, decide_eq_true within⟩)

theorem protects_context {ctx place : Word} {context : TaskContext}
    (switched : thread.switched = some context) (within : Within ctx contextSize place) :
    thread.protects ctx place = true := by
  rw [Thread.protects, Bool.or_eq_true, switched, Bool.and_eq_true]
  exact .inr ⟨rfl, decide_eq_true within⟩

theorem protects_cases {ctx place : Word} (guarded : thread.protects ctx place = true) :
    (∃ frame ∈ thread.frames, Within frame.base frameSize place) ∨
      thread.switched ≠ none ∧ Within ctx contextSize place := by
  rw [Thread.protects, Bool.or_eq_true, List.any_eq_true, Bool.and_eq_true] at guarded
  rcases guarded with ⟨frame, listed, within⟩ | ⟨switched, within⟩
  · exact .inl ⟨frame, listed, of_decide_eq_true within⟩
  · exact .inr ⟨Option.isSome_iff_ne_none.mp switched, of_decide_eq_true within⟩

theorem Thread.sp_running (unswitched : thread.switched = none) : thread.sp hart = hart.sp := by
  rw [Thread.sp, unswitched]

/-- A thread whose frames and context stay in memory. -/
theorem Thread.Sound.keep (sound : thread.Sound layout hart slot)
    (same : ∀ place, thread.protects (layout.ctx slot) place = true →
      after.memory place = hart.memory place)
    (low : thread.bottom ≤ (thread.sp after).toNat)
    (high : (thread.sp after).toNat ≤ thread.limit) : thread.Sound layout after slot := by
  refine ⟨sound.inTable, sound.top, sound.contexts, low, sound.stacked.move high, ?_, ?_⟩
  · intro frame listed
    have fits := (sound.stacked.frame listed).2
    have top := sound.top
    exact (sound.frames frame listed).keep frame.state.laidOut (by omega) fun place within =>
      same place (protects_frame listed within)
  · intro context switched
    have below : slot ≤ deadSlot := Nat.le_succ_of_le sound.inTable
    exact (sound.context context switched).keep context.laidOut (layout.fits slot below)
      fun place within => same place (protects_context switched within)

theorem Thread.Sound.keep_parked (sound : thread.Sound layout hart slot)
    (parked : thread.switched ≠ none)
    (same : ∀ place, thread.protects (layout.ctx slot) place = true →
      after.memory place = hart.memory place) : thread.Sound layout after slot := by
  obtain ⟨context, switched⟩ := Option.ne_none_iff_exists'.mp parked
  have sp : thread.sp after = thread.sp hart := by
    rw [Thread.sp, Thread.sp, switched]
  refine sound.keep same ?_ ?_
  · rw [sp]
    exact sound.bottom
  · rw [sp]
    exact sound.stacked.le_limit

theorem Thread.Sound.switchTo (sound : thread.Sound layout hart slot)
    (sp : hart.sp = thread.sp hart) :
    Thread.Sound layout hart slot { thread with switched := none } := by
  refine ⟨sound.inTable, sound.top, sound.contexts, ?_, ?_, sound.frames, fun _ some => by cases some⟩
  · rw [Thread.sp_running rfl, sp]
    exact sound.bottom
  · rw [Thread.sp_running rfl, sp]
    exact sound.stacked

theorem Thread.Sound.switchFrom (sound : thread.Sound layout hart slot) {context : TaskContext}
    (sp : context.sp = thread.sp hart)
    (frames : ∀ frame ∈ thread.frames, HeldAt after.memory frame.base frame.state.contents)
    (held : HeldAt after.memory (layout.ctx slot) context.contents) :
    Thread.Sound layout after slot { thread with switched := some context } := by
  have atSwitch : ({ thread with switched := some context } : Thread).sp after = thread.sp hart := sp
  refine ⟨sound.inTable, sound.top, sound.contexts, ?_, ?_, frames, ?_⟩
  · rw [atSwitch]
    exact sound.bottom
  · rw [atSwitch]
    exact sound.stacked
  · intro other same
    obtain rfl := Option.some.inj same
    exact held

/-- The free part of a stack belongs to no other thread. -/
theorem Thread.Sound.outside_stack (sound : thread.Sound layout hart slot) (bottom limit : Nat)
    (apart : ∀ frame ∈ thread.frames, Apart bottom limit frame.base.toNat
      (frame.base.toNat + frameSize))
    (contexts : ∀ other ≤ deadSlot, Apart bottom limit
      (layout.ctx other).toNat ((layout.ctx other).toNat + contextSize))
    {place : Word} (low : bottom ≤ place.toNat) (high : place.toNat < limit) :
    thread.protects (layout.ctx slot) place = false := by
  rw [← Bool.not_eq_true]
  intro guarded
  rcases protects_cases guarded with ⟨frame, listed, within⟩ | ⟨_, within⟩
  · have away := apart frame listed
    rw [Apart] at away
    rw [Within] at within
    omega
  · have away := contexts slot (Nat.le_succ_of_le sound.inTable)
    rw [Apart] at away
    rw [Within] at within
    omega

theorem Thread.Sound.outside_context (sound : thread.Sound layout hart slot) {other : Nat}
    (inTable : other ≤ deadSlot) (different : thread.switched ≠ none → slot ≠ other)
    {place : Word} (within : Within (layout.ctx other) contextSize place) :
    thread.protects (layout.ctx slot) place = false := by
  rw [← Bool.not_eq_true]
  intro guarded
  rw [Within] at within
  rcases protects_cases guarded with ⟨frame, listed, there⟩ | ⟨parked, there⟩
  · have away := sound.contexts other inTable
    have bounds := sound.stacked.frame listed
    have bottom := sound.bottom
    rw [Apart] at away
    rw [Within] at there
    omega
  · have away := layout.distinct slot (Nat.le_succ_of_le sound.inTable) other inTable
      (different parked)
    rw [Apart] at away
    rw [Within] at there
    omega

end Stacks

end DragoonKernel
