import DragoonKernel.Library.Transition
import DragoonKernel.FutexSpec
import DragoonKernel.SchedSpec

/-!
When the slots and the blocked tasks agree. A slot can be given up or given to another
address while a task or a waker still carries its number.
-/

namespace DragoonKernel

def FutexSystem.OnQueue (system : FutexSystem) (queue task : Nat) : Prop :=
  ∃ list, system.wq.queues.Lists (system.wq.queues.heads queue) list ∧
    ∃ index ∈ list, (system.wq.queues.waiter index).taskId = task

structure FutexSystem.Intact (system : FutexSystem) : Prop where
  waits : ∀ task addr slot, system.Waits task addr slot →
    ∃ held, system.Holds addr held ∧ system.OnQueue held task
  distinct : ∀ addr first second, system.Holds addr first → system.Holds addr second →
    first = second

/-- The address of the `futex_wake` that the action is a part of. -/
def FutexSystem.wakeOf (system : FutexSystem) : FutexAction → Option Nat
  | .call _ (.wake addr _) _ => some addr
  | .proceed cpu _ =>
      match (system.running cpu).map system.controls with
      | some (.waking addr _ _ _) => some addr
      | some (.wakingOne addr _ _ _) => some addr
      | some (.finishing addr _ _) => some addr
      | _ => none
  | _ => none

def FutexSystem.ReadiesWaiters (before : FutexSystem) (action : FutexAction)
    (after : FutexSystem) : Prop :=
  ∀ addr, before.wakeOf action = some addr → ∀ task, before.wq.smp.states task ≠ .ready →
    after.wq.smp.states task = .ready → ∃ slot, before.Waits task addr slot

/-- The slot that the task carries is still the one of its address where it matters: at a
`wq_wait` that finds an unused entry and at a `wq_wake_one` that finds a waiting task. -/
def FutexSystem.Tended (system : FutexSystem) : FutexControl → Prop
  | .enqueueing addr slot _ =>
      (∃ index < wqPoolSize, (system.wq.queues.pool index).inUse = false) →
        system.slots slot = ⟨addr, true⟩
  | .wakingOne addr slot _ _ =>
      0 ≤ system.wq.queues.heads slot → (system.slots slot).addr = addr
  | _ => True

def FutexSystem.StepTended (system : FutexSystem) : FutexAction → Prop
  | .proceed cpu _ => ∀ task, system.running cpu = some task → system.Tended (system.controls task)
  | _ => True

structure FutexSystem.Tidy (system : FutexSystem) : Prop where
  coherent : ∃ entries, system.Coherent entries
  addressed : ∀ task addr slot, system.Waits task addr slot → system.Holds addr slot
  distinct : ∀ addr first second, system.Holds addr first → system.Holds addr second →
    first = second

theorem boot_tidy (system : FutexSystem) : system.boot.Tidy := by
  have inactive : ∀ addr slot, ¬system.boot.Holds addr slot := by
    rintro addr slot ⟨bound, held⟩
    simp [FutexSystem.boot, futexInit, bound] at held
  refine ⟨⟨_, boot_coherent system⟩, ?_, fun addr first _ held => absurd held (inactive addr first)⟩
  rintro task addr slot ⟨_, _, waiting⟩
  cases waiting

variable {system after : FutexSystem}

theorem FutexSystem.Tidy.intact (tidy : system.Tidy) : system.Intact := by
  refine ⟨fun task addr slot waits => ?_, tidy.distinct⟩
  obtain ⟨entries, coherent⟩ := tidy.coherent
  have holds := tidy.addressed task addr slot waits
  refine ⟨slot, holds, entries slot, ?_, coherent.queued task addr slot waits⟩
  exact coherent.threads.linked slot (Finset.mem_range.mpr holds.1)

theorem FutexSystem.Coherent.queue_eq {entries : Nat → List Nat} (coherent : system.Coherent entries)
    {queue task addr slot : Nat} (bound : queue < futexMax) (queued : system.OnQueue queue task)
    (waits : system.Waits task addr slot) : queue = slot := by
  obtain ⟨list, linked, index, listed, named⟩ := queued
  obtain rfl := linked.unique (coherent.threads.linked queue (Finset.mem_range.mpr bound))
  obtain ⟨other, also, known⟩ := coherent.queued task addr slot waits
  obtain rfl := coherent.apart queue slot index listed other also (named.trans known.symm)
  exact coherent.threads.apart listed also

theorem FutexSystem.Tidy.of_waits (tidy : system.Tidy)
    (coherent : ∃ entries, after.Coherent entries) (slots : after.slots = system.slots)
    (waits : ∀ task addr slot, after.Waits task addr slot → system.Waits task addr slot) :
    after.Tidy := by
  have holds_iff : ∀ addr slot, after.Holds addr slot ↔ system.Holds addr slot := by
    intro addr slot
    rw [FutexSystem.Holds, slots, FutexSystem.Holds]
  refine ⟨coherent, fun task addr slot waiting => ?_, fun addr first second => ?_⟩
  · exact (holds_iff addr slot).mpr (tidy.addressed task addr slot (waits task addr slot waiting))
  · rw [holds_iff, holds_iff]
    exact tidy.distinct addr first second

theorem FutexSystem.Tidy.setControl (tidy : system.Tidy) {task : Nat}
    (awake : system.wq.smp.states task ≠ .blocked) {control : FutexControl}
    (bounded : ∀ slot, control.slot = some slot → slot < futexMax) :
    (system.setControl task control).Tidy := by
  obtain ⟨entries, coherent⟩ := tidy.coherent
  exact tidy.of_waits ⟨entries, coherent.setControl awake bounded⟩ rfl
    fun _ _ _ => (setControl_waits awake control _ _ _).mp

theorem FutexSystem.Tidy.leave (tidy : system.Tidy) {task : Nat}
    (awake : system.wq.smp.states task ≠ .blocked) (status : Int) :
    (system.leave task status).Tidy := by
  obtain ⟨entries, coherent⟩ := tidy.coherent
  exact tidy.of_waits ⟨entries, coherent.leave awake status⟩ rfl
    fun _ _ _ => (setControl_waits awake .outside _ _ _).mp

theorem FutexSystem.Tidy.maybeFreeSlot (tidy : system.Tidy) {slot : Nat} (bound : slot < futexMax) :
    (system.maybeFreeSlot slot).Tidy := by
  obtain ⟨entries, coherent⟩ := tidy.coherent
  have stays := coherent.maybeFreeSlot slot
  rcases maybeFreeSlot_cases system slot with ⟨empty, freed⟩ | ⟨_, kept⟩
  · rw [freed] at stays ⊢
    have none := (coherent.empty_iff bound).mp empty
    refine ⟨⟨entries, stays⟩, ?_, ?_⟩
    · intro task addr other waits
      refine release_holds.mpr ⟨?_, tidy.addressed task addr other waits⟩
      rintro rfl
      obtain ⟨index, listed, _⟩ := coherent.queued task addr other waits
      rw [none] at listed
      exact List.not_mem_nil listed
    · intro addr first second one two
      exact tidy.distinct addr first second (release_holds.mp one).2 (release_holds.mp two).2
  · rwa [kept]

theorem FutexSystem.Tidy.activate (tidy : system.Tidy) {addr slot : Nat} (bound : slot < futexMax)
    (unheld : ∀ slot, ¬system.Holds addr slot) (inactive : (system.slots slot).active = false) :
    (system.activate addr slot).Tidy := by
  obtain ⟨entries, coherent⟩ := tidy.coherent
  have apart : ∀ {other held}, system.Holds other held → held ≠ slot := by
    rintro other held holds rfl
    rw [holds.2] at inactive
    cases inactive
  have empty : entries slot = [] := by
    refine List.eq_nil_iff_forall_not_mem.mpr fun index listed => ?_
    obtain ⟨task, _, _, other, waits⟩ := coherent.waits slot index listed
    exact apart (tidy.addressed task other slot waits) rfl
  refine ⟨⟨entries, coherent.activate bound empty addr⟩, ?_, ?_⟩
  · intro task other query waits
    have before := tidy.addressed task other query waits
    exact (activate_holds bound).mpr (Or.inr ⟨apart before, before⟩)
  · intro other first second one two
    rcases (activate_holds bound).mp one with ⟨rfl, same⟩ | ⟨_, before⟩ <;>
      rcases (activate_holds bound).mp two with ⟨rfl, also⟩ | ⟨_, earlier⟩
    · rfl
    · exact absurd (same ▸ earlier) (unheld second)
    · exact absurd (also ▸ before) (unheld first)
    · exact tidy.distinct other first second before earlier

theorem findSlot_tidy (tidy : system.Tidy) (addr : Nat) (create : Bool) :
    (system.findSlot addr create).1.Tidy ∧
      (system.findSlot addr create).1.wq.smp = system.wq.smp ∧
      ∀ slot, (system.findSlot addr create).2 = some slot → slot < futexMax := by
  rcases findSlot_cases system addr create with
    ⟨held, holds, found⟩ | ⟨unheld, found | ⟨_, free, bound, inactive, _, found⟩⟩
  · rw [found]
    refine ⟨tidy, rfl, fun slot same => ?_⟩
    obtain rfl := Option.some.inj same
    exact holds.1
  · rw [found]
    exact ⟨tidy, rfl, fun slot same => nomatch same⟩
  · rw [found]
    refine ⟨tidy.activate bound unheld inactive, rfl, fun slot same => ?_⟩
    obtain rfl := Option.some.inj same
    exact bound

theorem waitEnter_tidy (tidy : system.Tidy) (addr : Nat) (expected first second : BitVec 32) :
    (system.waitEnter addr expected first second).1.Tidy ∧
      (system.waitEnter addr expected first second).1.wq.smp = system.wq.smp ∧
      ∀ slot, (system.waitEnter addr expected first second).2 = some slot → slot < futexMax := by
  obtain ⟨stays, smp, bounded⟩ := findSlot_tidy tidy addr true
  unfold FutexSystem.waitEnter
  split
  next => exact ⟨tidy, rfl, fun slot same => nomatch same⟩
  next =>
    split
    next after found =>
      rw [found] at stays smp
      exact ⟨stays, smp, fun slot same => nomatch same⟩
    next after slot found =>
      rw [found] at stays smp bounded
      have inside := bounded slot rfl
      split
      next =>
        exact ⟨stays.maybeFreeSlot inside, (maybeFreeSlot_smp after slot).trans smp,
          fun slot same => nomatch same⟩
      next =>
        refine ⟨stays, smp, fun other same => ?_⟩
        obtain rfl := Option.some.inj same
        exact inside

theorem FutexSystem.Tidy.of_smp (tidy : system.Tidy) {smp : Smp}
    (same : ∀ task, smp.states task = .blocked ↔ system.wq.smp.states task = .blocked) :
    { system with wq := { system.wq with smp := smp } }.Tidy := by
  obtain ⟨entries, coherent⟩ := tidy.coherent
  exact tidy.of_waits ⟨entries, coherent.of_blocked same⟩ rfl
    fun task _ _ waits => ⟨(same task).mp waits.1, waits.2⟩

theorem FutexSystem.Tidy.store (tidy : system.Tidy) (addr : Nat) (value : BitVec 32) :
    (system.store addr value).Tidy := by
  obtain ⟨entries, coherent⟩ := tidy.coherent
  exact tidy.of_waits ⟨entries, coherent.store addr value⟩ rfl fun _ _ _ waits => waits

theorem FutexSystem.Tidy.storeBetween (tidy : system.Tidy) (addr : Nat)
    (between : Option (BitVec 32)) : (system.storeBetween addr between).Tidy := by
  cases between with
  | none => exact tidy
  | some value => exact tidy.store addr value

theorem FutexSystem.Tidy.call (tidy : system.Tidy) {task : Nat}
    (awake : system.wq.smp.states task ≠ .blocked) (between : Option (BitVec 32))
    (call : FutexCall) :
    (system.call task between call).Tidy ∧
      (system.call task between call).wq.smp = system.wq.smp := by
  -- the control of a task that starts a call carries the slot it has just been given
  have starts : ∀ {after : FutexSystem} {control : FutexControl} {slot : Nat}, after.Tidy →
      after.wq.smp = system.wq.smp → slot < futexMax → control.slot = some slot →
      (after.setControl task control).Tidy := by
    intro after control slot stays smp inside carries
    refine stays.setControl (smp ▸ awake) fun other carried => ?_
    obtain rfl := Option.some.inj (carries.symm.trans carried)
    exact inside
  cases call with
  | wait addr expected ticks =>
      have stored := storeBetween_smp system addr between
      obtain ⟨stays, smp, bounded⟩ := waitEnter_tidy (tidy.storeBetween addr between) addr expected
        (system.memory addr) ((system.storeBetween addr between).memory addr)
      rw [stored] at smp
      simp only [FutexSystem.call]
      split
      next after slot entered =>
        rw [entered] at stays smp bounded
        exact ⟨starts stays smp (bounded slot rfl) rfl, smp⟩
      next after entered =>
        rw [entered] at stays smp
        exact ⟨stays.leave (smp ▸ awake) (-1), smp⟩
  | wake addr count =>
      obtain ⟨stays, smp, bounded⟩ := findSlot_tidy tidy addr false
      simp only [FutexSystem.call]
      split
      next after slot found =>
        rw [found] at stays smp bounded
        exact ⟨starts stays smp (bounded slot rfl) rfl, smp⟩
      next after found =>
        rw [found] at stays smp
        exact ⟨stays.leave (smp ▸ awake) 0, smp⟩

theorem readies_of_smp {action : FutexAction} (same : after.wq.smp = system.wq.smp) :
    system.ReadiesWaiters action after := by
  intro addr _ task sleeping ready
  rw [same] at ready
  exact absurd ready sleeping

theorem FutexSystem.Tidy.enqueue (tidy : system.Tidy) {cpu task addr slot : Nat} {now : Word}
    {ticks : Option Word} (runs : system.running cpu = some task)
    (located : system.controls task = .enqueueing addr slot ticks)
    (tended : system.Tended (.enqueueing addr slot ticks))
    (proceeded : system.enqueue cpu task now addr slot ticks = some after) : after.Tidy := by
  obtain ⟨entries, coherent⟩ := tidy.coherent
  obtain ⟨_, inside, running⟩ := running_some runs
  have awake : system.wq.smp.states task ≠ .blocked := by simp [running]
  have bound := coherent.inside task slot (by rw [located]; rfl)
  rcases coherent.enqueue runs now addr bound ticks with
    ⟨_, ends⟩ | ⟨room, wq, index, joins, blocked, joined, _⟩
  · obtain rfl := Option.some.inj (ends.symm.trans proceeded)
    refine tidy.setControl awake fun other carried => ?_
    obtain rfl := Option.some.inj carried
    exact bound
  · obtain rfl := Option.some.inj (joins.symm.trans proceeded)
    refine ⟨⟨_, joined⟩, ?_, tidy.distinct⟩
    intro other query queue waits
    rcases (joined_waits inside running blocked).mp waits with ⟨rfl, rfl, rfl⟩ | ⟨_, before⟩
    · exact ⟨bound, tended room⟩
    · exact tidy.addressed other query queue before

theorem FutexSystem.Tidy.wakeOne (tidy : system.Tidy) {cpu task addr slot : Nat} {count woken : Int}
    {now : Word} (runs : system.running cpu = some task)
    (located : system.controls task = .wakingOne addr slot count woken)
    (tended : system.Tended (.wakingOne addr slot count woken))
    (proceeded : system.proceed cpu task now = some after) :
    after.Tidy ∧ system.ReadiesWaiters (.proceed cpu now) after := by
  obtain ⟨entries, coherent⟩ := tidy.coherent
  obtain ⟨_, _, running⟩ := running_some runs
  have bound := coherent.inside task slot (by rw [located]; rfl)
  have carries : ∀ other, (FutexControl.waking addr slot count (woken + 1)).slot = some other →
      other < futexMax := by
    intro other carried
    obtain rfl := Option.some.inj carried
    exact bound
  have awake : system.wq.smp.states task ≠ .blocked := by simp [running]
  simp only [FutexSystem.proceed, located] at proceeded
  rcases coherent.wakeOne bound with ⟨_, stays⟩ | ⟨index, rest, wq, listed, wakes, smp, left⟩
  · rw [stays, Option.map_some, Option.some.injEq] at proceeded
    subst proceeded
    exact ⟨tidy.setControl awake carries, readies_of_smp rfl⟩
  · rw [wakes, Option.map_some, Option.some.injEq] at proceeded
    subst proceeded
    have awakeAfter : wq.smp.states task ≠ .blocked := by
      rw [smp]
      exact fun blocked => awake (wakeTasks_blocked.mp blocked).1
    constructor
    · refine FutexSystem.Tidy.setControl (tidy.of_waits ⟨_, left⟩ rfl ?_) awakeAfter carries
      rintro other query queue ⟨blocked, waiting⟩
      replace blocked : wq.smp.states other = .blocked := blocked
      rw [smp] at blocked
      exact ⟨(wakeTasks_blocked.mp blocked).1, waiting⟩
    · intro query named other sleeping ready
      obtain rfl : addr = query := by simpa [FutexSystem.wakeOf, runs, located] using named
      obtain ⟨sleeper, _, known, query, waits⟩ := coherent.waits slot index (by simp [listed])
      have nonempty : 0 ≤ system.wq.queues.heads slot := by
        rw [(coherent.threads.head listed).1]
        omega
      -- the woken task waits on the address of the slot, which is that of the call
      have same : query = addr := by
        have holds := (tidy.addressed sleeper query slot waits).2
        rw [← tended nonempty, holds]
      have wakesOther : system.wq.smp.Wakes (· = (system.wq.queues.waiter index).taskId) other := by
        by_contra asleep
        refine sleeping ?_
        rw [← ready]
        exact congrArg Task.state ((wakeTasks_other 0 asleep).symm.trans (by rw [← smp]; rfl))
      obtain rfl : other = sleeper := Int.ofNat.inj (wakesOther.2.2.trans known)
      exact ⟨slot, same ▸ waits⟩

theorem FutexSystem.Tidy.proceed (tidy : system.Tidy) {cpu task : Nat} {now : Word}
    (runs : system.running cpu = some task) (tended : system.Tended (system.controls task))
    (proceeded : system.proceed cpu task now = some after) :
    after.Tidy ∧ system.ReadiesWaiters (.proceed cpu now) after := by
  obtain ⟨entries, coherent⟩ := tidy.coherent
  obtain ⟨_, _, running⟩ := running_some runs
  have awake : system.wq.smp.states task ≠ .blocked := by simp [running]
  have moves : ∀ {control : FutexControl} {slot : Nat}, slot < futexMax →
      control.slot = some slot → (system.setControl task control).Tidy := by
    intro control slot bound carries
    refine tidy.setControl awake fun other carried => ?_
    obtain rfl := Option.some.inj (carries.symm.trans carried)
    exact bound
  have ends : ∀ {slot : Nat} {status : Int}, slot < futexMax →
      ((system.maybeFreeSlot slot).leave task status).Tidy ∧
        system.ReadiesWaiters (.proceed cpu now)
          ((system.maybeFreeSlot slot).leave task status) := by
    intro slot status bound
    have smp := maybeFreeSlot_smp system slot
    exact ⟨(tidy.maybeFreeSlot bound).leave (smp ▸ awake) status, readies_of_smp smp⟩
  have carried : ∀ {slot}, (system.controls task).slot = some slot → slot < futexMax :=
    fun carries => coherent.inside task _ carries
  cases located : system.controls task with
  | outside => simp [FutexSystem.proceed, located] at proceeded
  | enqueueing addr slot ticks =>
      rw [located] at tended
      simp only [FutexSystem.proceed, located] at proceeded
      refine ⟨tidy.enqueue runs located tended proceeded, fun addr named => ?_⟩
      simp [FutexSystem.wakeOf, runs, located] at named
  | waiting addr slot timed =>
      simp only [FutexSystem.proceed, located, Option.some.injEq] at proceeded
      subst proceeded
      exact ⟨moves (carried (by rw [located]; rfl)) rfl, readies_of_smp rfl⟩
  | leaving slot status =>
      simp only [FutexSystem.proceed, located, Option.some.injEq] at proceeded
      subst proceeded
      exact ends (carried (by rw [located]; rfl))
  | waking addr slot count woken =>
      have bound := carried (by rw [located]; rfl)
      simp only [FutexSystem.proceed, located] at proceeded
      split at proceeded <;> obtain rfl := Option.some.inj proceeded <;>
        exact ⟨moves bound rfl, readies_of_smp rfl⟩
  | wakingOne addr slot count woken =>
      exact tidy.wakeOne runs located (located ▸ tended) proceeded
  | finishing addr slot woken =>
      simp only [FutexSystem.proceed, located, Option.some.injEq] at proceeded
      subst proceeded
      exact ends (carried (by rw [located]; rfl))

theorem FutexSystem.Tidy.step (tidy : system.Tidy) {action : FutexAction}
    (stepped : system.step action = some after) (tended : system.StepTended action) :
    after.Tidy ∧ system.ReadiesWaiters action after := by
  cases action with
  | schedule cpu =>
      obtain rfl := Option.some.inj stepped
      exact ⟨tidy.of_smp (schedule_blocked system.wq.smp cpu), fun _ named => nomatch named⟩
  | store addr value =>
      obtain rfl := Option.some.inj stepped
      exact ⟨tidy.store addr value, readies_of_smp rfl⟩
  | tick now =>
      obtain ⟨entries, coherent⟩ := tidy.coherent
      obtain ⟨wq, ticked, smp, left⟩ := coherent.tick now
      rw [FutexSystem.step, ticked, Option.map_some, Option.some.injEq] at stepped
      subst stepped
      refine ⟨tidy.of_waits ⟨_, left⟩ rfl ?_, fun _ named => nomatch named⟩
      rintro task _ _ ⟨blocked, waiting⟩
      rw [smp] at blocked
      exact ⟨(wakeTasks_blocked.mp blocked).1, waiting⟩
  | call cpu call between =>
      obtain ⟨task, runs, called⟩ := Option.bind_eq_some_iff.mp stepped
      split at called
      next =>
        obtain rfl := Option.some.inj called
        have awake : system.wq.smp.states task ≠ .blocked := by simp [(running_some runs).2.2]
        obtain ⟨stays, smp⟩ := tidy.call awake between call
        exact ⟨stays, readies_of_smp smp⟩
      next => cases called
  | proceed cpu now =>
      obtain ⟨task, runs, proceeded⟩ := Option.bind_eq_some_iff.mp stepped
      exact tidy.proceed runs (tended task runs) proceeded

/-- A step that is not tended blocks a task on a slot that is not its address's, or wakes one
that waits elsewhere. -/
theorem FutexSystem.Tidy.spoiled (tidy : system.Tidy) {action : FutexAction}
    (stepped : system.step action = some after) (untended : ¬system.StepTended action)
    (intact : after.Intact) : ¬system.ReadiesWaiters action after := by
  obtain ⟨entries, coherent⟩ := tidy.coherent
  cases action with
  | schedule cpu => exact absurd trivial untended
  | store addr value => exact absurd trivial untended
  | tick now => exact absurd trivial untended
  | call cpu call between => exact absurd trivial untended
  | proceed cpu now =>
      simp only [FutexSystem.StepTended, not_forall] at untended
      obtain ⟨task, runs, untended⟩ := untended
      obtain ⟨_, inside, running⟩ := running_some runs
      have proceeded : system.proceed cpu task now = some after := by
        simpa [FutexSystem.step, runs] using stepped
      cases located : system.controls task with
      | enqueueing addr slot ticks =>
          have bound := coherent.inside task slot (by rw [located]; rfl)
          simp only [located, FutexSystem.Tended, not_forall] at untended
          obtain ⟨⟨index, room, unused⟩, stale⟩ := untended
          simp only [FutexSystem.proceed, located] at proceeded
          rcases coherent.enqueue runs now addr bound ticks with
            ⟨full, _⟩ | ⟨_, wq, entry, joins, blocked, joined, _⟩
          · rw [full index room] at unused
            cases unused
          · obtain rfl := Option.some.inj (joins.symm.trans proceeded)
            obtain ⟨held, holds, queued⟩ := intact.waits task addr slot
              ((joined_waits inside running blocked).mpr (Or.inl ⟨rfl, rfl, rfl⟩))
            obtain rfl := joined.queue_eq holds.1 queued
              ((joined_waits inside running blocked).mpr (Or.inl ⟨rfl, rfl, rfl⟩))
            exact absurd holds.2 stale
      | wakingOne addr slot count woken =>
          have bound := coherent.inside task slot (by rw [located]; rfl)
          simp only [located, FutexSystem.Tended, not_forall] at untended
          obtain ⟨nonempty, stale⟩ := untended
          simp only [FutexSystem.proceed, located] at proceeded
          rcases coherent.wakeOne bound with ⟨empty, _⟩ | ⟨index, rest, wq, listed, wakes, smp, _⟩
          · rw [← coherent.empty_iff bound] at empty
            omega
          · obtain ⟨sleeper, small, known, query, waits⟩ :=
              coherent.waits slot index (by simp [listed])
            rw [wakes, Option.map_some, Option.some.injEq] at proceeded
            subst proceeded
            have ready : wq.smp.states sleeper = .ready := by
              rw [smp, Smp.states, wakeTasks_wakes 0 ⟨small, waits.1, known.symm⟩]
            intro readies
            obtain ⟨other, _, timed, waiting⟩ := readies addr
              (by simp [FutexSystem.wakeOf, runs, located]) sleeper (by simp [waits.1]) ready
            have holds := (tidy.addressed sleeper query slot waits).2
            obtain ⟨_, _, elsewhere⟩ := waits
            rw [waiting, FutexControl.waiting.injEq] at elsewhere
            exact stale (by rw [holds, elsewhere.1])
      | _ => simp [located, FutexSystem.Tended] at untended

/-- Over all interleavings the blocked tasks stay on the slots of their addresses, no address
has two slots and a wake readies only tasks that wait on its address, if and only if every step
is tended. -/
theorem futexTable_intact_iff (system : FutexSystem) (actions : List FutexAction) :
    (Transition.EveryState FutexSystem.step FutexSystem.Intact system.boot actions ∧
      Transition.EveryStep FutexSystem.step FutexSystem.ReadiesWaiters system.boot actions) ↔
    Transition.EveryStep FutexSystem.step (fun before action _ => before.StepTended action)
      system.boot actions := by
  refine Transition.everyState_and_everyStep_iff ?_ ?_ ?_ (boot_tidy system) actions
  · exact fun _ tidy => tidy.intact
  · exact fun _ _ _ tidy stepped tended => tidy.step stepped tended
  · exact fun _ _ _ tidy stepped untended intact => tidy.spoiled stepped untended intact

def twoRunning : FutexSystem where
  slots := fun _ => ⟨0, false⟩
  memory := fun _ => 0
  wq := {
    smp := {
      tasks := fun task => { Task.zero with state := if task < 2 then .running else .dead }
      percpu := fun cpu => Percpu.running (if cpu < 2 then cpu else -1) }
    queues := {
      pool := fun _ => ⟨0, 0, -1, false, none⟩
      heads := fun _ => -1 } }
  controls := fun _ => .outside
  returned := fun _ => 0

/-- Task 1's `futex_wake` runs between task 0's section in `futex_wait` and its `wq_wait`,
finds the queue empty and gives the slot up. -/
def slotGivenUp : List FutexAction :=
  [.call 0 (.wait 100 0 none) none, .call 1 (.wake 100 1) none, .proceed 1 0, .proceed 1 0,
    .proceed 0 0]

theorem slotGivenUp_blocks_outside : ¬∀ actions,
    Transition.EveryState FutexSystem.step FutexSystem.Intact twoRunning.boot actions ∧
      Transition.EveryStep FutexSystem.step FutexSystem.ReadiesWaiters twoRunning.boot actions := by
  intro all
  have stranded : (Transition.exec FutexSystem.step twoRunning.boot slotGivenUp).any (fun system =>
      decide (system.wq.smp.states 0 = .blocked) &&
        decide (system.controls 0 = .waiting 100 0 false) &&
        (List.range futexMax).all fun slot => !(system.slots slot).active) = true := by
    decide +kernel
  obtain ⟨system, run, facts⟩ := (Option.any_eq_true _ _).mp stranded
  simp only [Bool.and_eq_true, decide_eq_true_eq, List.all_eq_true, List.mem_range] at facts
  obtain ⟨⟨blocked, waiting⟩, inactive⟩ := facts
  obtain ⟨held, holds, _⟩ := ((all slotGivenUp).1.last run).waits 0 100 0 ⟨blocked, false, waiting⟩
  have free := inactive held holds.1
  simp [holds.2] at free

end DragoonKernel
