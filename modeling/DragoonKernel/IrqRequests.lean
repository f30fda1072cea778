import DragoonKernel.IrqCore
import DragoonKernel.Library.Transition

/-!
What `request_irq` and `free_irq` promise about later interrupts, and the runs in which they
keep it.
-/

namespace DragoonKernel

variable {Handler : Type}

/-- `request_irq` has returned 0 for the handler, and the number has not been freed since. -/
def Promised (irq : BitVec 32) (handler : Handler) : List (IrqEvent Handler) → Prop
  | [] => False
  | .requested other taken returned :: past =>
      (other = irq ∧ taken = some handler ∧ returned = 0) ∨ Promised irq handler past
  | .freed other :: past => other ≠ irq ∧ Promised irq handler past
  | .handled _ _ :: past => Promised irq handler past

def Accepted (irq : BitVec 32) (handler : Handler) (past : List (IrqEvent Handler)) : Prop :=
  .requested irq (some handler) 0 ∈ past

/-- The number has been freed after the handler was accepted for it, and the handler has not
been accepted again. -/
def Revoked (irq : BitVec 32) (handler : Handler) : List (IrqEvent Handler) → Prop
  | [] => False
  | .requested other taken returned :: past =>
      ¬(other = irq ∧ taken = some handler ∧ returned = 0) ∧ Revoked irq handler past
  | .freed other :: past => (other = irq ∧ Accepted irq handler past) ∨ Revoked irq handler past
  | .handled _ _ :: past => Revoked irq handler past

/-- What an event has to be like after those before it. -/
def IrqEvent.Serves [DecidableEq Handler] (past : List (IrqEvent Handler)) :
    IrqEvent Handler → Prop
  | .requested irq taken returned =>
      (∃ handler, Promised irq handler past ∧ taken ≠ some handler) → returned ≠ 0
  | .freed _ => True
  | .handled irq calls => irq.toNat < spuriousIrq →
      (∀ handler, Promised irq handler past → calls.count handler = 1) ∧
        ∀ handler, Revoked irq handler past → handler ∉ calls

def IrqHistory.Serves [DecidableEq Handler] (history : IrqHistory Handler)
    (_ : IrqCall Handler) (after : IrqHistory Handler) : Prop :=
  ∀ event, after.past = event :: history.past → event.Serves history.past

/-- Where the requests and frees of a number have left it. -/
inductive IrqLine (Handler : Type) where
  | idle
  | held (handler : Option Handler)
  | freed (handler : Option Handler)

def IrqLine.release : IrqLine Handler → IrqLine Handler
  | .held handler => .freed handler
  | line => line

/-- The handler that was requested last. -/
def IrqLine.last : IrqLine Handler → Option (Option Handler)
  | .idle => none
  | .held handler => some handler
  | .freed handler => some handler

def irqLine (irq : BitVec 32) : List (IrqEvent Handler) → IrqLine Handler
  | [] => .idle
  | .requested other taken _ :: past => if other = irq then .held taken else irqLine irq past
  | .freed other :: past => if other = irq then (irqLine irq past).release else irqLine irq past
  | .handled _ _ :: past => irqLine irq past

/-- No request displaces a handler that is held, and no interrupt arrives that is held beyond
the table or has been freed within it. -/
def IrqHistory.Careful (history : IrqHistory Handler) (action : IrqCall Handler)
    (_ : IrqHistory Handler) : Prop :=
  match action with
  | .requestIrq irq taken =>
      ∀ handler, irqLine irq history.past = .held (some handler) → taken = some handler
  | .freeIrq _ => True
  | .irqHandle iar => (irqNumber iar).toNat < spuriousIrq →
      (∀ handler, irqLine (irqNumber iar) history.past = .held (some handler) →
        (irqNumber iar).toNat < maxIrq) ∧
      ∀ handler, irqLine (irqNumber iar) history.past = .freed (some handler) →
        maxIrq ≤ (irqNumber iar).toNat

structure IrqHistory.Sound (history : IrqHistory Handler) : Prop where
  table : ∀ irq handler, irq.toNat < maxIrq → (irqLine irq history.past).last = some handler →
    history.irqs.irqHandlers irq.toNat = handler
  promised : ∀ irq handler, Promised irq handler history.past ↔
    irqLine irq history.past = .held (some handler)
  freed : ∀ irq handler, irqLine irq history.past = .freed (some handler) →
    Revoked irq handler history.past
  revoked : ∀ irq handler, Revoked irq handler history.past →
    irqLine irq history.past = .freed (some handler) ∨
      ∃ other, (irqLine irq history.past).last = some other ∧ other ≠ some handler

section Lines

variable {irq : BitVec 32} {handler : Handler} {past : List (IrqEvent Handler)}

theorem Promised.accepted (promised : Promised irq handler past) : Accepted irq handler past := by
  induction past with
  | nil => exact promised.elim
  | cons event past ih =>
      cases event with
      | requested other taken returned =>
          rcases promised with ⟨rfl, rfl, rfl⟩ | before
          · exact List.mem_cons_self
          · exact List.mem_cons_of_mem _ (ih before)
      | freed other => exact List.mem_cons_of_mem _ (ih promised.2)
      | handled other calls => exact List.mem_cons_of_mem _ (ih promised)

theorem IrqLine.last_release (line : IrqLine Handler) : line.release.last = line.last := by
  cases line <;> rfl

theorem Accepted.last (accepted : Accepted irq handler past) :
    ∃ last, (irqLine irq past).last = some last := by
  induction past with
  | nil => exact absurd accepted List.not_mem_nil
  | cons event past ih =>
      cases event with
      | requested other taken returned =>
          by_cases here : other = irq
          · rw [irqLine, if_pos here]
            exact ⟨taken, rfl⟩
          · rw [irqLine, if_neg here]
            refine ih ((List.mem_cons.mp accepted).resolve_left fun same => here ?_)
            exact (IrqEvent.requested.inj same).1.symm
      | freed other =>
          have before := ih ((List.mem_cons.mp accepted).resolve_left (by rintro ⟨⟩))
          rw [irqLine]
          split
          · exact before.imp fun last same => (IrqLine.last_release _).trans same
          · exact before
      | handled other calls => exact ih ((List.mem_cons.mp accepted).resolve_left (by rintro ⟨⟩))

theorem irqLine_ne_release {line : IrqLine Handler} {handler : Option Handler} :
    line.release ≠ .held handler := by
  cases line <;> rintro ⟨⟩

theorem IrqLine.release_eq_freed {line : IrqLine Handler} {handler : Option Handler}
    (released : line.release = .freed handler) : line = .held handler ∨ line = .freed handler := by
  cases line with
  | idle => cases released
  | held other => exact .inl (congrArg IrqLine.held (IrqLine.freed.inj released))
  | freed other => exact .inr released

/-- A line that has been let go of names its last handler, if it has had one. -/
theorem IrqLine.freed_or_other {line : IrqLine Handler} {last : Option Handler}
    (named : line.release.last = some last) (handler : Option Handler) :
    line.release = .freed handler ∨ ∃ other, line.release.last = some other ∧ other ≠ handler := by
  by_cases same : last = handler
  · subst same
    cases line with
    | idle => cases named
    | held other => exact .inl (congrArg IrqLine.freed (Option.some.inj named))
    | freed other => exact .inl (congrArg IrqLine.freed (Option.some.inj named))
  · exact .inr ⟨last, named, same⟩

end Lines

section Steps

variable {history after : IrqHistory Handler} {irq : BitVec 32}

theorem requestIrq_irqHandlers (irqs : Irqs Handler) (irq other : BitVec 32)
    (taken : Option Handler) (inside : other.toNat < maxIrq) :
    (irqs.requestIrq irq taken).1.irqHandlers other.toNat =
      if irq = other then taken else irqs.irqHandlers other.toNat := by
  change (irqs.irqRegister irq taken).irqHandlers other.toNat = _
  unfold Irqs.irqRegister
  split
  next =>
    split
    next same =>
      rw [same]
      exact Function.update_self _ _ _
    next apart =>
      exact Function.update_of_ne (fun same => apart (BitVec.eq_of_toNat_eq same.symm)) _ _
  next outside =>
    rw [if_neg]
    rintro rfl
    exact outside inside

theorem irqHandle_irqHandlers (irqs : Irqs Handler) (iar : BitVec 32) :
    (irqs.irqHandle iar).1.irqHandlers = irqs.irqHandlers := by
  unfold Irqs.irqHandle
  dsimp only
  split <;> rfl

theorem IrqHistory.Sound.request (sound : history.Sound) (taken : Option Handler)
    (careful : ∀ handler, irqLine irq history.past = .held (some handler) → taken = some handler) :
    IrqHistory.Sound ⟨(history.irqs.requestIrq irq taken).1,
      .requested irq taken 0 :: history.past⟩ where
  table other handler inside last := by
    rw [requestIrq_irqHandlers _ _ _ _ inside]
    rw [irqLine] at last
    split at last
    next here =>
      rw [if_pos here]
      exact Option.some.inj last
    next apart =>
      rw [if_neg apart]
      exact sound.table other handler inside last
  promised other handler := by
    rw [Promised, irqLine, sound.promised]
    split
    next here =>
      subst here
      constructor
      · rintro (⟨_, rfl, _⟩ | before)
        · rfl
        · rw [careful handler before]
      · intro held
        exact .inl ⟨rfl, IrqLine.held.inj held, rfl⟩
    next apart => exact or_iff_right fun new => apart new.1
  freed other handler line := by
    rw [irqLine] at line
    split at line
    next => cases line
    next apart => exact ⟨fun new => apart new.1, sound.freed other handler line⟩
  revoked other handler revoked := by
    rw [irqLine]
    split
    next here => exact .inr ⟨taken, rfl, fun same => revoked.1 ⟨here, same, rfl⟩⟩
    next => exact sound.revoked other handler revoked.2

theorem IrqHistory.Sound.free (sound : history.Sound) (irq : BitVec 32) :
    IrqHistory.Sound ⟨history.irqs.freeIrq irq, .freed irq :: history.past⟩ where
  table other handler inside last := by
    refine sound.table other handler inside ?_
    rw [irqLine] at last
    split at last
    next => exact (IrqLine.last_release _).symm.trans last
    next => exact last
  promised other handler := by
    rw [Promised, irqLine, sound.promised]
    split
    next here => exact iff_of_false (fun both => both.1 here) irqLine_ne_release
    next apart => exact and_iff_right apart
  freed other handler line := by
    rw [irqLine] at line
    split at line
    next here =>
      rcases IrqLine.release_eq_freed line with held | already
      · exact .inl ⟨here, ((sound.promised other handler).mpr held).accepted⟩
      · exact .inr (sound.freed other handler already)
    next => exact .inr (sound.freed other handler line)
  revoked other handler revoked := by
    rw [irqLine]
    split
    next here =>
      obtain ⟨last, named⟩ : ∃ last, (irqLine other history.past).last = some last := by
        rcases revoked with ⟨_, accepted⟩ | before
        · exact accepted.last
        · rcases sound.revoked other handler before with line | ⟨last, named, _⟩
          · exact ⟨some handler, by rw [line]; rfl⟩
          · exact ⟨last, named⟩
      exact IrqLine.freed_or_other ((IrqLine.last_release _).trans named) (some handler)
    next apart =>
      exact sound.revoked other handler (revoked.resolve_left fun new => apart new.1)

theorem IrqHistory.Sound.handle (sound : history.Sound) (iar : BitVec 32) (calls : List Handler) :
    IrqHistory.Sound ⟨(history.irqs.irqHandle iar).1,
      .handled (irqNumber iar) calls :: history.past⟩ where
  table other handler inside last := by
    rw [irqHandle_irqHandlers]
    exact sound.table other handler inside last
  promised := sound.promised
  freed := sound.freed
  revoked := sound.revoked

theorem IrqHistory.Sound.step (sound : history.Sound) {action : IrqCall Handler}
    (stepped : history.step action = some after) (careful : history.Careful action after) :
    after.Sound := by
  cases action with
  | requestIrq irq taken =>
      obtain rfl := Option.some.inj stepped
      exact sound.request taken careful
  | freeIrq irq =>
      obtain rfl := Option.some.inj stepped
      exact sound.free irq
  | irqHandle iar =>
      obtain rfl := Option.some.inj stepped
      exact sound.handle iar _

/-- The handlers that an interrupt calls, if it is not spurious. -/
theorem irqHandle_calls (irqs : Irqs Handler) {iar : BitVec 32}
    (real : (irqNumber iar).toNat < spuriousIrq) :
    (irqs.irqHandle iar).2 =
      if (irqNumber iar).toNat < maxIrq then (irqs.irqHandlers (irqNumber iar).toNat).toList
      else [] := by
  simp only [Irqs.irqHandle]
  rw [if_neg (Nat.not_le.mpr real)]

theorem irqHistory_start_sound (irqs : Irqs Handler) : IrqHistory.Sound ⟨irqs, []⟩ where
  table _ _ _ last := nomatch last
  promised _ _ := ⟨False.elim, fun held => nomatch held⟩
  freed _ _ line := nomatch line
  revoked _ _ revoked := revoked.elim

variable [DecidableEq Handler]

/-- What an action adds to the history. -/
def IrqHistory.event (history : IrqHistory Handler) : IrqCall Handler → IrqEvent Handler
  | .requestIrq irq taken => .requested irq taken 0
  | .freeIrq irq => .freed irq
  | .irqHandle iar => .handled (irqNumber iar) (history.irqs.irqHandle iar).2

theorem IrqHistory.serves_iff_event {action : IrqCall Handler}
    (stepped : history.step action = some after) :
    history.Serves action after ↔ (history.event action).Serves history.past := by
  have past : after.past = history.event action :: history.past := by
    cases action <;> exact congrArg IrqHistory.past (Option.some.inj stepped).symm
  constructor
  · exact fun serves => serves _ past
  · intro serves other same
    rw [← (List.cons.inj (past.symm.trans same)).1]
    exact serves

theorem IrqHistory.Sound.requested_iff (sound : history.Sound) (taken : Option Handler) :
    (IrqEvent.requested irq taken 0).Serves history.past ↔
      ∀ handler, irqLine irq history.past = .held (some handler) → taken = some handler := by
  constructor
  · intro serves handler held
    by_contra other
    exact serves ⟨handler, (sound.promised irq handler).mpr held, other⟩ rfl
  · rintro careful ⟨handler, promised, other⟩
    exact absurd (careful handler ((sound.promised irq handler).mp promised)) other

/-- A held handler is called by the interrupts of the table, and only by these. -/
theorem IrqHistory.Sound.count_iff (sound : history.Sound) {handler : Handler}
    (held : irqLine irq history.past = .held (some handler)) :
    (if irq.toNat < maxIrq then (history.irqs.irqHandlers irq.toNat).toList else []).count
        handler = 1 ↔ irq.toNat < maxIrq := by
  split
  next inside =>
    rw [sound.table irq (some handler) inside (by rw [held]; rfl)]
    simp [inside]
  next outside => simp [outside]

theorem IrqHistory.Sound.handled_iff (sound : history.Sound) {calls : List Handler}
    (called : calls = if irq.toNat < maxIrq then (history.irqs.irqHandlers irq.toNat).toList
      else []) :
    ((∀ handler, Promised irq handler history.past → calls.count handler = 1) ∧
        ∀ handler, Revoked irq handler history.past → handler ∉ calls) ↔
      (∀ handler, irqLine irq history.past = .held (some handler) → irq.toNat < maxIrq) ∧
        ∀ handler, irqLine irq history.past = .freed (some handler) → maxIrq ≤ irq.toNat := by
  subst called
  refine and_congr ?_ ⟨fun quiet handler freed => ?_, fun outside handler revoked listed => ?_⟩
  · refine forall_congr' fun handler => ?_
    rw [sound.promised]
    exact forall_congr' sound.count_iff
  · by_contra inside
    have named : (irqLine irq history.past).last = some (some handler) := by
      rw [freed]
      rfl
    refine quiet handler (sound.freed irq handler freed) ?_
    rw [if_pos (Nat.not_le.mp inside), sound.table irq _ (Nat.not_le.mp inside) named]
    exact List.mem_singleton_self handler
  · split at listed
    next inside =>
      rcases sound.revoked irq handler revoked with freed | ⟨other, named, apart⟩
      · exact absurd (outside handler freed) (Nat.not_le.mpr inside)
      · rw [sound.table irq other inside named] at listed
        exact apart (Option.mem_toList.mp listed)
    next => cases listed

theorem IrqHistory.Sound.serves_iff (sound : history.Sound) {action : IrqCall Handler}
    (stepped : history.step action = some after) :
    history.Serves action after ↔ history.Careful action after := by
  rw [IrqHistory.serves_iff_event stepped]
  cases action with
  | requestIrq irq taken => exact sound.requested_iff taken
  | freeIrq irq => exact Iff.rfl
  | irqHandle iar =>
      exact forall_congr' fun real => sound.handled_iff (irqHandle_calls history.irqs real)

/-- Whatever handlers the kernel has registered before. -/
theorem irqRequests_served_iff (irqs : Irqs Handler) (actions : List (IrqCall Handler)) :
    Transition.EveryStep IrqHistory.step IrqHistory.Serves ⟨irqs, []⟩ actions ↔
      Transition.EveryStep IrqHistory.step IrqHistory.Careful ⟨irqs, []⟩ actions := by
  refine Transition.everyStep_iff_everyStep ?_ ?_ (irqHistory_start_sound irqs) actions
  · exact fun history action after sound stepped careful =>
      ⟨sound.step stepped careful, (sound.serves_iff stepped).mpr careful⟩
  · exact fun history action after sound stepped careless serves =>
      careless ((sound.serves_iff stepped).mp serves)

/-- The request for interrupt 300 returns 0, and the handler is not called. -/
theorem irqRequests_not_served :
    ¬Transition.EveryStep IrqHistory.step IrqHistory.Serves ⟨⟨fun _ => none, []⟩, []⟩
      [.requestIrq 300 (some ()), .irqHandle 300] := by
  intro all
  obtain ⟨_, later⟩ := all _ rfl
  have served := (later _ rfl).1 _ rfl (by decide)
  exact absurd (served.1 () (.inl ⟨rfl, rfl, rfl⟩)) (by decide)

end Steps

end DragoonKernel
