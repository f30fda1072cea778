import Mathlib.Data.Finset.Card
import DragoonKernel.FutexTable

/-!
One word that tasks wait on while it has the expected value, and a waker that stores
another value and then wakes as many tasks as there are waiters.
-/

namespace DragoonKernel

inductive WakeStage where
  | quiet
  | stored
  | called
  deriving DecidableEq

structure WakeSystem where
  futex : FutexSystem
  stage : WakeStage

/-- The steps of the tasks that wait and of the waker. In `waitAndStore` the waker's store
falls between the two reads of a wait. -/
inductive WakeAction where
  | schedule (cpu : Nat)
  | tick (now : Word)
  | wait (cpu : Nat) (ticks : Option Word)
  | waitAndStore (cpu : Nat) (ticks : Option Word) (value : BitVec 32)
  | store (value : BitVec 32)
  | wake (cpu : Nat) (count : Int)
  | proceed (cpu : Nat) (now : Word)

def FutexSystem.pending (system : FutexSystem) (task : Nat) : Bool :=
  match system.controls task with
  | .enqueueing _ _ _ => true
  | .waiting _ _ _ => system.wq.smp.states task = .blocked
  | _ => false

def FutexSystem.waiters (system : FutexSystem) : Nat :=
  ((Finset.range maxTasks).filter fun task => system.pending task).card

def WaitQueues.NoneExpires (queues : WaitQueues) (now : Word) : Prop :=
  ∀ index < wqPoolSize, (queues.pool index).inUse = true → ¬(queues.waiter index).Expired now

instance (queues : WaitQueues) (now : Word) : Decidable (queues.NoneExpires now) :=
  inferInstanceAs (Decidable (∀ index < wqPoolSize, _ → _))

def WakeSystem.futexStep (system : WakeSystem) (stage : WakeStage) (action : FutexAction) :
    Option WakeSystem :=
  (system.futex.step action).map fun futex => ⟨futex, stage⟩

def WakeSystem.step (addr : Nat) (expected : BitVec 32) (waker : Nat) (system : WakeSystem) :
    WakeAction → Option WakeSystem
  | .schedule cpu => system.futexStep system.stage (.schedule cpu)
  | .tick now =>
      if system.futex.wq.queues.NoneExpires now then system.futexStep system.stage (.tick now)
      else none
  | .wait cpu ticks =>
      if system.futex.running cpu ≠ some waker then
        system.futexStep system.stage (.call cpu (.wait addr expected ticks) none)
      else none
  | .waitAndStore cpu ticks value =>
      if system.futex.running cpu ≠ some waker ∧ system.stage = .quiet ∧ value ≠ expected then
        system.futexStep .stored (.call cpu (.wait addr expected ticks) (some value))
      else none
  | .store value =>
      if system.stage = .quiet ∧ value ≠ expected then
        system.futexStep .stored (.store addr value)
      else none
  | .wake cpu count =>
      if system.futex.running cpu = some waker ∧ system.stage = .stored ∧
          system.futex.waiters ≤ count then
        system.futexStep .called (.call cpu (.wake addr count) none)
      else none
  | .proceed cpu now => system.futexStep system.stage (.proceed cpu now)

/-- Once the wake has returned no task is blocked on the word. -/
def WakeSystem.NoneLost (addr waker : Nat) (system : WakeSystem) : Prop :=
  system.stage = .called → system.futex.controls waker = .outside →
    ∀ task slot, ¬system.futex.Waits task addr slot

def FutexControl.loops : FutexControl → Bool
  | .waking _ _ _ _ => true
  | .wakingOne _ _ _ _ => true
  | _ => false

/-- A task that blocks will be woken: before the wake its slot is the one that the wake will
find, and after that the waker is still in its loop. -/
def WakeSystem.reaches (addr waker : Nat) (system : WakeSystem) (slot : Nat) : Bool :=
  if system.stage = .called then (system.futex.controls waker).loops
  else system.futex.slots slot = ⟨addr, true⟩

/-- At a `wq_wait` that gets an entry the task can still be reached. -/
def WakeSystem.stepReaches (addr waker : Nat) (system : WakeSystem) : WakeAction → Bool
  | .proceed cpu _ =>
      match (system.futex.running cpu).map system.futex.controls with
      | some (.enqueueing _ slot _) =>
          (poolAlloc system.futex.wq.queues).2.isNone || system.reaches addr waker slot
      | _ => true
  | _ => true

/-- With one word only slot 0 is used, and only the waker wakes. -/
def FutexControl.Serves (addr : Nat) (isWaker : Prop) : FutexControl → Prop
  | .outside => True
  | .enqueueing other slot _ => ¬isWaker ∧ other = addr ∧ slot = 0
  | .waiting other slot _ => ¬isWaker ∧ other = addr ∧ slot = 0
  | .leaving slot _ => ¬isWaker ∧ slot = 0
  | .waking other slot _ _ => isWaker ∧ other = addr ∧ slot = 0
  | .wakingOne other slot _ _ => isWaker ∧ other = addr ∧ slot = 0
  | .finishing other slot _ => isWaker ∧ other = addr ∧ slot = 0

/-- The loop can still wake all who wait, and there is nobody left behind it. -/
def FutexSystem.Drains (system : FutexSystem) (entries : Nat → List Nat) : FutexControl → Prop
  | .waking _ _ count woken => woken + system.waiters ≤ count
  | .wakingOne _ _ count woken => woken + system.waiters ≤ count ∧ entries 0 ≠ []
  | _ => entries 0 = []

structure FutexSystem.Solo (addr waker : Nat) (system : FutexSystem) (entries : Nat → List Nat) :
    Prop where
  coherent : system.Coherent entries
  serves : ∀ task, (system.controls task).Serves addr (task = waker)
  single : ∀ slot < futexMax, (system.slots slot).active = true →
    slot = 0 ∧ system.slots slot = ⟨addr, true⟩

structure FutexSystem.Awaits (addr : Nat) (expected : BitVec 32) (waker : Nat)
    (system : FutexSystem) (stage : WakeStage) (entries : Nat → List Nat) : Prop
    extends system.Solo addr waker entries where
  memory : stage ≠ .quiet → system.memory addr ≠ expected
  ahead : stage ≠ .called → system.controls waker = .outside ∧
    (entries 0 ≠ [] → (system.slots 0).active = true)
  drains : stage = .called → system.Drains entries (system.controls waker)

variable {addr waker : Nat} {expected : BitVec 32} {system after : FutexSystem} {stage : WakeStage}
  {entries : Nat → List Nat}

theorem FutexSystem.Awaits.noneLost (awaits : system.Awaits addr expected waker stage entries) :
    WakeSystem.NoneLost addr waker ⟨system, stage⟩ := by
  intro called returned task slot waits
  have empty := awaits.drains called
  rw [returned] at empty
  obtain ⟨index, listed, _⟩ := awaits.coherent.queued task addr slot waits
  obtain ⟨_, timed, waiting⟩ := waits
  have serves := awaits.serves task
  rw [waiting] at serves
  obtain ⟨_, _, rfl⟩ := serves
  rw [show entries 0 = [] from empty] at listed
  exact List.not_mem_nil listed

theorem boot_awaits (system : FutexSystem) :
    system.boot.Awaits addr expected waker .quiet fun _ => [] := by
  refine ⟨⟨boot_coherent system, fun _ => trivial, ?_⟩, fun noisy => absurd rfl noisy, ?_,
    fun called => nomatch called⟩
  · intro slot bound active
    simp [FutexSystem.boot, futexInit, bound] at active
  · exact fun _ => ⟨rfl, fun filled => absurd rfl filled⟩

theorem pending_iff {task : Nat} : system.pending task = true ↔
    (∃ addr slot ticks, system.controls task = .enqueueing addr slot ticks) ∨
      ∃ addr slot, system.Waits task addr slot := by
  unfold FutexSystem.pending FutexSystem.Waits
  cases located : system.controls task <;> simp

theorem setControl_pending {task other : Nat} {control : FutexControl}
    (awake : system.wq.smp.states task ≠ .blocked)
    (calm : ∀ addr slot ticks, control ≠ .enqueueing addr slot ticks)
    (pending : (system.setControl task control).pending other = true) :
    system.pending other = true := by
  rcases pending_iff.mp pending with ⟨addr, slot, ticks, enters⟩ | ⟨addr, slot, waits⟩
  · rw [setControl_controls] at enters
    split at enters
    next => exact absurd enters (calm addr slot ticks)
    next => exact pending_iff.mpr (Or.inl ⟨addr, slot, ticks, enters⟩)
  · exact pending_iff.mpr (Or.inr ⟨addr, slot, (setControl_waits awake control _ _ _).mp waits⟩)

theorem waiters_le (fewer : ∀ task, after.pending task = true → system.pending task = true) :
    after.waiters ≤ system.waiters :=
  Finset.card_le_card (Finset.monotone_filter_right _ fun task _ => fewer task)

theorem FutexSystem.Drains.of_waiters {control : FutexControl} (drains : system.Drains entries control)
    (fewer : after.waiters ≤ system.waiters) : after.Drains entries control := by
  cases control with
  | waking _ _ count woken =>
      have enough : woken + system.waiters ≤ count := drains
      show woken + after.waiters ≤ count
      omega
  | wakingOne _ _ count woken =>
      have enough : woken + system.waiters ≤ count := drains.1
      refine ⟨?_, drains.2⟩
      omega
  | _ => exact drains

theorem FutexSystem.Awaits.setControl (awaits : system.Awaits addr expected waker stage entries)
    {task : Nat} {control : FutexControl} (awake : system.wq.smp.states task ≠ .blocked)
    (isWaiter : task ≠ waker) (serves : control.Serves addr (task = waker))
    (calm : stage = .called → ∀ other slot ticks, control ≠ .enqueueing other slot ticks) :
    (system.setControl task control).Awaits addr expected waker stage entries := by
  have keeps : (system.setControl task control).controls waker = system.controls waker := by
    rw [setControl_controls, if_neg isWaiter.symm]
  refine ⟨⟨awaits.coherent.setControl awake ?_, ?_, awaits.single⟩, awaits.memory, ?_, ?_⟩
  · intro slot carried
    have zero : slot = 0 := by
      cases control <;> simp_all [FutexControl.slot, FutexControl.Serves]
    subst zero
    decide
  · intro other
    rw [setControl_controls]
    split
    next here => exact here ▸ serves
    next => exact awaits.serves other
  · rw [keeps]
    exact awaits.ahead
  · intro called
    rw [keeps]
    exact (awaits.drains called).of_waiters (waiters_le fun _ => setControl_pending awake (calm called))

theorem FutexSystem.Awaits.leave (awaits : system.Awaits addr expected waker stage entries)
    {task : Nat} (awake : system.wq.smp.states task ≠ .blocked) (isWaiter : task ≠ waker)
    (status : Int) : (system.leave task status).Awaits addr expected waker stage entries :=
  have left : (system.setControl task .outside).Awaits addr expected waker stage entries :=
    awaits.setControl awake isWaiter trivial fun _ _ _ _ same => nomatch same
  ⟨⟨awaits.coherent.leave awake status, left.serves, left.single⟩, left.memory, left.ahead,
    left.drains⟩

theorem FutexSystem.Awaits.maybeFreeSlot (awaits : system.Awaits addr expected waker stage entries) :
    (system.maybeFreeSlot 0).Awaits addr expected waker stage entries := by
  have stays := awaits.coherent.maybeFreeSlot 0
  rcases maybeFreeSlot_cases system 0 with ⟨empty, freed⟩ | ⟨_, kept⟩
  · rw [freed] at stays ⊢
    have none := (awaits.coherent.empty_iff (by decide)).mp empty
    refine ⟨⟨stays, awaits.serves, ?_⟩, awaits.memory, ?_, awaits.drains⟩
    · intro slot bound active
      by_cases here : slot = 0
      · subst here
        simp [FutexSystem.release] at active
      · simp only [FutexSystem.release, Function.update_of_ne here] at active
        exact absurd (awaits.single slot bound active).1 here
    · exact fun early => ⟨(awaits.ahead early).1, fun filled => absurd none filled⟩
  · rwa [kept]

theorem FutexSystem.Awaits.activate (awaits : system.Awaits addr expected waker stage entries)
    (early : stage ≠ .called) (inactive : (system.slots 0).active = false) :
    (system.activate addr 0).Awaits addr expected waker stage entries := by
  have empty : entries 0 = [] := by
    by_contra filled
    rw [(awaits.ahead early).2 filled] at inactive
    cases inactive
  refine ⟨⟨awaits.coherent.activate (by decide) empty addr, awaits.serves, ?_⟩, awaits.memory,
    fun _ => ⟨(awaits.ahead early).1, fun _ => by simp [FutexSystem.activate]⟩,
    fun called => absurd called early⟩
  intro slot bound active
  by_cases here : slot = 0
  · subst here
    exact ⟨rfl, by simp [FutexSystem.activate]⟩
  · simp only [FutexSystem.activate, Function.update_of_ne here] at active
    exact absurd (awaits.single slot bound active).1 here

theorem findSlot_awaits (awaits : system.Awaits addr expected waker stage entries)
    (early : stage ≠ .called) :
    (system.findSlot addr true).1.Awaits addr expected waker stage entries ∧
      (system.findSlot addr true).1.wq.smp = system.wq.smp ∧
      ∀ slot, (system.findSlot addr true).2 = some slot → slot = 0 := by
  rcases findSlot_cases system addr true with
    ⟨held, holds, found⟩ | ⟨unheld, found | ⟨_, free, bound, inactive, earlier, found⟩⟩
  · rw [found]
    refine ⟨awaits, rfl, fun slot same => ?_⟩
    obtain rfl := Option.some.inj same
    exact (awaits.single held holds.1 (by rw [holds.2])).1
  · rw [found]
    exact ⟨awaits, rfl, fun slot same => nomatch same⟩
  · -- a free slot after slot 0 would mean that slot 0 is active, hence the word's
    obtain rfl : free = 0 := by
      by_contra later
      have first := earlier 0 (Nat.pos_of_ne_zero later)
      exact unheld 0 ⟨by decide, (awaits.single 0 (by decide) first).2⟩
    rw [found]
    refine ⟨awaits.activate early inactive, rfl, fun slot same => ?_⟩
    exact (Option.some.inj same).symm

theorem waitEnter_awaits (awaits : system.Awaits addr expected waker stage entries)
    {first : BitVec 32} (early : first = expected → stage ≠ .called) (second : BitVec 32) :
    (system.waitEnter addr expected first second).1.Awaits addr expected waker stage entries ∧
      (system.waitEnter addr expected first second).1.wq.smp = system.wq.smp ∧
      ∀ slot, (system.waitEnter addr expected first second).2 = some slot →
        slot = 0 ∧ stage ≠ .called := by
  unfold FutexSystem.waitEnter
  split
  next => exact ⟨awaits, rfl, fun slot same => nomatch same⟩
  next matched =>
    have early := early (not_not.mp matched)
    obtain ⟨stays, smp, zero⟩ := findSlot_awaits awaits early
    split
    next after found =>
      rw [found] at stays smp
      exact ⟨stays, smp, fun slot same => nomatch same⟩
    next after slot found =>
      rw [found] at stays smp zero
      obtain rfl := zero slot rfl
      split
      next =>
        exact ⟨stays.maybeFreeSlot, (maybeFreeSlot_smp after 0).trans smp,
          fun slot same => nomatch same⟩
      next => exact ⟨stays, smp, fun slot same => ⟨(Option.some.inj same).symm, early⟩⟩

theorem FutexSystem.Awaits.wait {task : Nat} {between : Option (BitVec 32)} {ticks : Option Word}
    (awaits : (system.storeBetween addr between).Awaits addr expected waker stage entries)
    (awake : system.wq.smp.states task ≠ .blocked) (isWaiter : task ≠ waker)
    (early : system.memory addr = expected → stage ≠ .called) :
    (system.call task between (.wait addr expected ticks)).Awaits addr expected waker stage
      entries := by
  obtain ⟨stays, smp, zero⟩ :=
    waitEnter_awaits awaits early ((system.storeBetween addr between).memory addr)
  rw [storeBetween_smp] at smp
  simp only [FutexSystem.call]
  split
  next after slot entered =>
    rw [entered] at stays smp zero
    obtain ⟨rfl, early⟩ := zero slot rfl
    exact stays.setControl (smp ▸ awake) isWaiter ⟨isWaiter, rfl, rfl⟩
      fun called => absurd called early
  next after entered =>
    rw [entered] at stays smp
    exact stays.leave (smp ▸ awake) isWaiter (-1)

theorem FutexSystem.Awaits.store (awaits : system.Awaits addr expected waker .quiet entries)
    {value : BitVec 32} (different : value ≠ expected) :
    (system.store addr value).Awaits addr expected waker .stored entries := by
  refine ⟨⟨awaits.coherent.store addr value, awaits.serves, awaits.single⟩, fun _ => ?_,
    fun _ => awaits.ahead (by decide), fun called => nomatch called⟩
  simpa [FutexSystem.store] using different

theorem FutexSystem.Solo.wakerMoves {control : FutexControl} (solo : system.Solo addr waker entries)
    (awake : system.wq.smp.states waker ≠ .blocked) (serves : control.Serves addr True)
    (memory : system.memory addr ≠ expected) (drains : system.Drains entries control) :
    (system.setControl waker control).Awaits addr expected waker .called entries := by
  refine ⟨⟨solo.coherent.setControl awake ?_, ?_, solo.single⟩, fun _ => memory,
    fun early => absurd rfl early, fun _ => ?_⟩
  · intro slot carried
    have zero : slot = 0 := by
      cases control <;> simp_all [FutexControl.slot, FutexControl.Serves]
    subst zero
    decide
  · intro other
    rw [setControl_controls]
    split
    next here => simpa [here] using serves
    next => exact solo.serves other
  · rw [setControl_controls, if_pos rfl]
    refine drains.of_waiters (waiters_le fun _ => setControl_pending awake ?_)
    rintro other slot ticks rfl
    exact serves.1 trivial

theorem FutexSystem.Coherent.empty_of_waiters (coherent : system.Coherent entries)
    (none : system.waiters = 0) (slot : Nat) : entries slot = [] := by
  refine List.eq_nil_iff_forall_not_mem.mpr fun index listed => ?_
  obtain ⟨task, bound, _, other, waits⟩ := coherent.waits slot index listed
  rw [FutexSystem.waiters, Finset.card_eq_zero, Finset.filter_eq_empty_iff] at none
  exact none (Finset.mem_range.mpr bound) (pending_iff.mpr (Or.inr ⟨other, slot, waits⟩))

theorem FutexSystem.Awaits.wake (awaits : system.Awaits addr expected waker .stored entries)
    (awake : system.wq.smp.states waker ≠ .blocked) {count : Int}
    (enough : system.waiters ≤ count) :
    (system.call waker none (.wake addr count)).Awaits addr expected waker .called entries := by
  have early : WakeStage.stored ≠ .called := by decide
  rcases findSlot_cases system addr false with
    ⟨held, holds, found⟩ | ⟨unheld, found | ⟨created, _⟩⟩
  · obtain rfl := (awaits.single held holds.1 (by rw [holds.2])).1
    simp only [FutexSystem.call, found]
    refine awaits.wakerMoves awake ⟨trivial, rfl, rfl⟩ (awaits.memory (by decide)) ?_
    show (0 : Int) + system.waiters ≤ count
    omega
  · have empty : entries 0 = [] := by
      by_contra filled
      have active := (awaits.ahead early).2 filled
      exact unheld 0 ⟨by decide, (awaits.single 0 (by decide) active).2⟩
    have moved : (system.setControl waker .outside).Awaits addr expected waker .called entries :=
      awaits.wakerMoves awake trivial (awaits.memory (by decide)) empty
    simp only [FutexSystem.call, found]
    exact ⟨⟨awaits.coherent.leave awake 0, moved.serves, moved.single⟩, moved.memory, moved.ahead,
      moved.drains⟩
  · cases created

theorem FutexSystem.Awaits.wakeOne (awaits : system.Awaits addr expected waker .called entries)
    (awake : system.wq.smp.states waker ≠ .blocked) {count woken : Int}
    (located : system.controls waker = .wakingOne addr 0 count woken) :
    ∃ wq entries, system.wq.wakeOne 0 = some wq ∧
      ({ system with wq := wq }.setControl waker (.waking addr 0 count (woken + 1))).Awaits addr
        expected waker .called entries := by
  obtain ⟨enough, filled⟩ : woken + system.waiters ≤ count ∧ entries 0 ≠ [] := by
    have drains := awaits.drains rfl
    rwa [located] at drains
  have first : 0 < futexMax := by decide
  rcases awaits.coherent.wakeOne first with
    ⟨empty, _⟩ | ⟨index, rest, wq, listed, wakes, smp, left⟩
  · exact absurd empty filled
  · have still : ∀ task, wq.smp.states task = .blocked → system.wq.smp.states task = .blocked ∧
        ¬system.wq.smp.Wakes (· = (system.wq.queues.waiter index).taskId) task := by
      intro task blocked
      rw [smp] at blocked
      exact wakeTasks_blocked.mp blocked
    have awakeAfter : wq.smp.states waker ≠ .blocked := fun blocked => awake (still waker blocked).1
    obtain ⟨sleeper, bound, known, other, waits⟩ := awaits.coherent.waits 0 index (by simp [listed])
    have fewer : ∀ task, { system with wq := wq }.pending task = true →
        system.pending task = true ∧ task ≠ sleeper := by
      intro task pends
      rcases pending_iff.mp pends with ⟨query, slot, ticks, enters⟩ | ⟨query, slot, blocked, waiting⟩
      · refine ⟨pending_iff.mpr (Or.inl ⟨query, slot, ticks, enters⟩), ?_⟩
        rintro rfl
        obtain ⟨_, _, waiting⟩ := waits
        exact nomatch waiting.symm.trans enters
      · obtain ⟨before, asleep⟩ := still task blocked
        refine ⟨pending_iff.mpr (Or.inr ⟨query, slot, before, waiting⟩), ?_⟩
        rintro rfl
        exact asleep ⟨bound, before, known.symm⟩
    have lessWaiters : { system with wq := wq }.waiters < system.waiters := by
      refine Finset.card_lt_card (Finset.ssubset_iff_subset_ne.mpr ⟨?_, ?_⟩)
      · exact Finset.monotone_filter_right _ fun task _ pends => (fewer task pends).1
      · intro same
        have member : sleeper ∈ (Finset.range maxTasks).filter fun task => system.pending task :=
          Finset.mem_filter.mpr
            ⟨Finset.mem_range.mpr bound, pending_iff.mpr (Or.inr ⟨other, 0, waits⟩)⟩
        rw [← same, Finset.mem_filter] at member
        exact (fewer sleeper member.2).2 rfl
    have solo : { system with wq := wq }.Solo addr waker (withoutEntry entries index) :=
      ⟨left, awaits.serves, awaits.single⟩
    refine ⟨wq, _, wakes, solo.wakerMoves awakeAfter ⟨trivial, rfl, rfl⟩ ?_ ?_⟩
    · exact awaits.memory (by decide)
    · show woken + 1 + (_ : Int) ≤ count
      omega

theorem FutexSystem.Awaits.proceedWaker (awaits : system.Awaits addr expected waker stage entries)
    {cpu : Nat} {now : Word} (awake : system.wq.smp.states waker ≠ .blocked)
    (proceeded : system.proceed cpu waker now = some after) :
    ∃ entries, after.Awaits addr expected waker stage entries := by
  have called : stage = .called := by
    by_contra early
    simp [FutexSystem.proceed, (awaits.ahead early).1] at proceeded
  subst called
  have first : 0 < futexMax := by decide
  have memory := awaits.memory (by decide)
  have serves := awaits.serves waker
  have drains := awaits.drains rfl
  cases located : system.controls waker with
  | waking other slot count woken =>
      rw [located] at serves drains
      obtain ⟨_, rfl, rfl⟩ := serves
      have enough : woken + system.waiters ≤ count := drains
      simp only [FutexSystem.proceed, located] at proceeded
      split at proceeded
      next more =>
        obtain rfl := Option.some.inj proceeded
        refine ⟨entries, awaits.wakerMoves awake ⟨trivial, rfl, rfl⟩ memory ⟨enough, ?_⟩⟩
        rw [Ne, ← awaits.coherent.empty_iff first]
        omega
      next done =>
        obtain rfl := Option.some.inj proceeded
        refine ⟨entries, awaits.wakerMoves awake ⟨trivial, rfl, rfl⟩ memory ?_⟩
        show entries 0 = []
        by_cases nonempty : 0 ≤ system.wq.queues.heads 0
        · refine awaits.coherent.empty_of_waiters ?_ 0
          have noMore : ¬woken < count := fun less => done ⟨less, nonempty⟩
          omega
        · exact (awaits.coherent.empty_iff first).mp (by omega)
  | wakingOne other slot count woken =>
      rw [located] at serves
      obtain ⟨_, rfl, rfl⟩ := serves
      obtain ⟨wq, left, wakes, moved⟩ := awaits.wakeOne awake located
      simp only [FutexSystem.proceed, located, wakes, Option.map_some, Option.some.injEq] at proceeded
      subst proceeded
      exact ⟨left, moved⟩
  | finishing other slot woken =>
      rw [located] at serves drains
      obtain ⟨_, rfl, rfl⟩ := serves
      simp only [FutexSystem.proceed, located, Option.some.injEq] at proceeded
      subst proceeded
      have freed := awaits.maybeFreeSlot
      have smp := maybeFreeSlot_smp system 0
      have moved : ((system.maybeFreeSlot 0).setControl waker .outside).Awaits other expected waker
          .called entries :=
        freed.wakerMoves (smp ▸ awake) trivial (freed.memory (by decide)) drains
      exact ⟨entries, ⟨freed.coherent.leave (smp ▸ awake) woken, moved.serves, moved.single⟩,
        moved.memory, moved.ahead, moved.drains⟩
  | outside => simp [FutexSystem.proceed, located] at proceeded
  | _ =>
      rw [located] at serves
      exact absurd rfl serves.1

theorem FutexSystem.Awaits.enqueue (awaits : system.Awaits addr expected waker stage entries)
    {cpu task : Nat} {now : Word} {ticks : Option Word} (runs : system.running cpu = some task)
    (isWaiter : task ≠ waker) (located : system.controls task = .enqueueing addr 0 ticks)
    (reaches : ((poolAlloc system.wq.queues).2.isNone ||
      WakeSystem.reaches addr waker ⟨system, stage⟩ 0) = true)
    (proceeded : system.enqueue cpu task now addr 0 ticks = some after) :
    ∃ entries, after.Awaits addr expected waker stage entries := by
  obtain ⟨_, inside, running⟩ := running_some runs
  have awake : system.wq.smp.states task ≠ .blocked := by simp [running]
  have first : 0 < futexMax := by decide
  rcases awaits.coherent.enqueue runs now addr first ticks with
    ⟨_, ends⟩ | ⟨room, wq, index, joins, blocked, joined, _⟩
  · obtain rfl := Option.some.inj (ends.symm.trans proceeded)
    exact ⟨entries, awaits.setControl awake isWaiter ⟨isWaiter, rfl⟩
      fun _ _ _ _ same => nomatch same⟩
  · obtain rfl := Option.some.inj (joins.symm.trans proceeded)
    obtain ⟨free, bound, unused⟩ := room
    have allocates : (poolAlloc system.wq.queues).2.isNone = false := by
      rcases poolAlloc_cases system.wq.queues with ⟨full, _⟩ | ⟨_, _, _, allocated⟩
      · rw [full free bound] at unused
        cases unused
      · simp [allocated]
    rw [allocates, Bool.false_or] at reaches
    have keeps : ({ system with wq := wq }.setControl task
        (.waiting addr 0 ticks.isSome)).controls waker = system.controls waker := by
      rw [setControl_controls, if_neg isWaiter.symm]
    refine ⟨_, ⟨joined, ?_, awaits.single⟩, awaits.memory, fun early => ?_, fun called => ?_⟩
    · intro other
      rw [setControl_controls]
      split
      next here => exact here ▸ ⟨isWaiter, rfl, rfl⟩
      next => exact awaits.serves other
    · rw [keeps]
      refine ⟨(awaits.ahead early).1, fun _ => ?_⟩
      rw [WakeSystem.reaches, if_neg early, decide_eq_true_eq] at reaches
      exact congrArg FutexSlot.active reaches
    · have fewer : ∀ other, ({ system with wq := wq }.setControl task
          (.waiting addr 0 ticks.isSome)).pending other = true → system.pending other = true := by
        intro other pends
        by_cases here : other = task
        · subst here
          exact pending_iff.mpr (Or.inl ⟨addr, 0, ticks, located⟩)
        · rcases pending_iff.mp pends with ⟨query, slot, ticks, enters⟩ | ⟨query, slot, waits⟩
          · rw [setControl_controls, if_neg here] at enters
            exact pending_iff.mpr (Or.inl ⟨query, slot, ticks, enters⟩)
          · have before := ((joined_waits inside running blocked).mp waits).resolve_left
              fun same => here same.1
            exact pending_iff.mpr (Or.inr ⟨query, slot, before.2⟩)
      rw [keeps]
      have drains := (awaits.drains called).of_waiters (waiters_le fewer)
      rw [WakeSystem.reaches, if_pos called] at reaches
      -- the loop will look at the queue again before it ends
      cases waking : system.controls waker with
      | waking _ _ count woken =>
          rw [waking] at drains
          exact drains
      | wakingOne _ _ count woken =>
          rw [waking] at drains
          exact ⟨drains.1, by simp⟩
      | _ =>
          rw [waking] at reaches
          cases reaches

theorem FutexSystem.Awaits.proceed (awaits : system.Awaits addr expected waker stage entries)
    {cpu task : Nat} {now : Word} (runs : system.running cpu = some task)
    (reaches : WakeSystem.stepReaches addr waker ⟨system, stage⟩ (.proceed cpu now) = true)
    (proceeded : system.proceed cpu task now = some after) :
    ∃ entries, after.Awaits addr expected waker stage entries := by
  have awake : system.wq.smp.states task ≠ .blocked := by simp [(running_some runs).2.2]
  by_cases isWaker : task = waker
  · subst isWaker
    exact awaits.proceedWaker awake proceeded
  · have serves := awaits.serves task
    cases located : system.controls task with
    | outside => simp [FutexSystem.proceed, located] at proceeded
    | enqueueing other slot ticks =>
        rw [located] at serves
        obtain ⟨_, rfl, rfl⟩ := serves
        simp only [FutexSystem.proceed, located] at proceeded
        simp only [WakeSystem.stepReaches, runs, Option.map_some, located] at reaches
        exact awaits.enqueue runs isWaker located reaches proceeded
    | waiting other slot timed =>
        rw [located] at serves
        simp only [FutexSystem.proceed, located, Option.some.injEq] at proceeded
        subst proceeded
        exact ⟨entries, awaits.setControl awake isWaker ⟨serves.1, serves.2.2⟩
          fun _ _ _ _ same => by cases same⟩
    | leaving slot status =>
        rw [located] at serves
        obtain ⟨_, rfl⟩ := serves
        simp only [FutexSystem.proceed, located, Option.some.injEq] at proceeded
        subst proceeded
        have smp := maybeFreeSlot_smp system 0
        exact ⟨entries, awaits.maybeFreeSlot.leave (smp ▸ awake) isWaker status⟩
    | _ =>
        rw [located] at serves
        exact absurd serves.1 isWaker

theorem FutexSystem.Awaits.schedule (awaits : system.Awaits addr expected waker stage entries)
    (cpu : Nat) :
    { system with wq := { system.wq with smp := (system.wq.smp.schedule cpu).1 } }.Awaits addr
      expected waker stage entries := by
  have same := schedule_blocked system.wq.smp cpu
  refine ⟨⟨awaits.coherent.of_blocked same, awaits.serves, awaits.single⟩, awaits.memory,
    awaits.ahead, fun called => (awaits.drains called).of_waiters (waiters_le fun task pends => ?_)⟩
  rcases pending_iff.mp pends with enters | ⟨other, slot, blocked, waiting⟩
  · exact pending_iff.mpr (Or.inl enters)
  · exact pending_iff.mpr (Or.inr ⟨other, slot, (same task).mp blocked, waiting⟩)

theorem FutexSystem.Awaits.tick (awaits : system.Awaits addr expected waker stage entries)
    {now : Word} (none : system.wq.queues.NoneExpires now) :
    ∃ wq, system.wq.tick now = some wq ∧
      { system with wq := wq }.Awaits addr expected waker stage entries := by
  have fresh : ∀ queue, ∀ index ∈ entries queue,
      ¬(system.wq.queues.waiter index).Expired now := by
    intro queue index listed
    have threads := awaits.coherent.threads
    have bound := threads.inside queue index listed
    exact none index bound
      ((threads.inUse index bound).mpr ⟨queue, threads.ready_of_mem listed, listed⟩)
  obtain ⟨wq, ticked, smp, left⟩ := awaits.coherent.tick now
  have same : (fun queue => (entries queue).filter fun index =>
      ¬(system.wq.queues.waiter index).Expired now) = entries := by
    funext queue
    exact List.filter_eq_self.mpr fun index listed => by simpa using fresh queue index listed
  rw [same] at left
  rw [wakeTasks_none] at smp
  · refine ⟨wq, ticked, ⟨left, awaits.serves, awaits.single⟩, awaits.memory, awaits.ahead,
      fun called => (awaits.drains called).of_waiters (waiters_le fun task pends => ?_)⟩
    rcases pending_iff.mp pends with enters | ⟨other, slot, blocked, waiting⟩
    · exact pending_iff.mpr (Or.inl enters)
    · exact pending_iff.mpr (Or.inr ⟨other, slot, smp ▸ blocked, waiting⟩)
  · rintro task ⟨_, _, queue, index, listed, expired, _⟩
    exact fresh queue index listed expired

def WakeSystem.Awaits (addr : Nat) (expected : BitVec 32) (waker : Nat) (system : WakeSystem) :
    Prop :=
  ∃ entries, system.futex.Awaits addr expected waker system.stage entries

theorem WakeSystem.Awaits.step {before next : WakeSystem} {action : WakeAction}
    (awaits : before.Awaits addr expected waker)
    (stepped : before.step addr expected waker action = some next)
    (reaches : before.stepReaches addr waker action = true) :
    next.Awaits addr expected waker := by
  obtain ⟨entries, awaits⟩ := awaits
  have quietly : before.futex.memory addr = expected → before.stage ≠ .called := by
    intro matched called
    exact awaits.memory (by simp [called]) matched
  have calls : ∀ {cpu call between next}, before.futex.step (.call cpu call between) = some next →
      ∃ task, before.futex.running cpu = some task ∧
        before.futex.wq.smp.states task ≠ .blocked ∧
        next = before.futex.call task between call := by
    intro cpu call between next called
    obtain ⟨task, runs, called⟩ := Option.bind_eq_some_iff.mp called
    have awake : before.futex.wq.smp.states task ≠ .blocked := by simp [(running_some runs).2.2]
    split at called
    next => exact ⟨task, runs, awake, (Option.some.inj called).symm⟩
    next => cases called
  cases action with
  | schedule cpu =>
      obtain rfl := Option.some.inj stepped
      exact ⟨entries, awaits.schedule cpu⟩
  | tick now =>
      simp only [WakeSystem.step, Option.ite_none_right_eq_some, WakeSystem.futexStep,
        FutexSystem.step] at stepped
      obtain ⟨wq, ticked, left⟩ := awaits.tick stepped.1
      rw [ticked] at stepped
      obtain rfl := Option.some.inj stepped.2
      exact ⟨entries, left⟩
  | wait cpu ticks =>
      simp only [WakeSystem.step, Option.ite_none_right_eq_some, WakeSystem.futexStep,
        Option.map_eq_some_iff] at stepped
      obtain ⟨isWaiter, after, called, rfl⟩ := stepped
      obtain ⟨task, runs, awake, rfl⟩ := calls called
      have other : task ≠ waker := fun same => isWaiter (same ▸ runs)
      exact ⟨entries, FutexSystem.Awaits.wait awaits awake other quietly⟩
  | waitAndStore cpu ticks value =>
      simp only [WakeSystem.step, Option.ite_none_right_eq_some, WakeSystem.futexStep,
        Option.map_eq_some_iff] at stepped
      obtain ⟨⟨isWaiter, quiet, different⟩, after, called, rfl⟩ := stepped
      obtain ⟨task, runs, awake, rfl⟩ := calls called
      have other : task ≠ waker := fun same => isWaiter (same ▸ runs)
      rw [quiet] at awaits
      exact ⟨entries, FutexSystem.Awaits.wait (awaits.store different) awake other
        fun _ called => by cases called⟩
  | store value =>
      simp only [WakeSystem.step, Option.ite_none_right_eq_some] at stepped
      obtain ⟨⟨quiet, different⟩, stored⟩ := stepped
      obtain rfl := Option.some.inj stored
      rw [quiet] at awaits
      exact ⟨entries, awaits.store different⟩
  | wake cpu count =>
      simp only [WakeSystem.step, Option.ite_none_right_eq_some, WakeSystem.futexStep,
        Option.map_eq_some_iff] at stepped
      obtain ⟨⟨isWaker, stored, enough⟩, after, called, rfl⟩ := stepped
      obtain ⟨task, runs, awake, rfl⟩ := calls called
      obtain rfl := Option.some.inj (isWaker.symm.trans runs)
      rw [stored] at awaits
      exact ⟨entries, awaits.wake awake enough⟩
  | proceed cpu now =>
      obtain ⟨after, moved, rfl⟩ := Option.map_eq_some_iff.mp stepped
      obtain ⟨task, runs, proceeded⟩ := Option.bind_eq_some_iff.mp moved
      exact awaits.proceed runs reaches proceeded

/-- In every interleaving in which each task that joins a queue can still be reached by the
wake, no task is blocked on the word once the wake has returned. -/
theorem futexWake_loses_none (addr : Nat) (expected : BitVec 32) (waker : Nat)
    (system : FutexSystem) (actions : List WakeAction)
    (reaches : Transition.EveryStep (WakeSystem.step addr expected waker)
      (fun before action _ => before.stepReaches addr waker action = true)
      ⟨system.boot, .quiet⟩ actions) :
    Transition.EveryState (WakeSystem.step addr expected waker) (WakeSystem.NoneLost addr waker)
      ⟨system.boot, .quiet⟩ actions := by
  have start : WakeSystem.Awaits addr expected waker ⟨system.boot, .quiet⟩ :=
    ⟨_, boot_awaits system⟩
  refine (Transition.everyState_of_guard ?_ start reaches).mono ?_
  · exact fun _ _ _ awaits stepped met => awaits.step stepped met
  · rintro state ⟨entries, awaits⟩
    exact awaits.noneLost

theorem futexWake_loses_none_oneWaiter :
    Transition.EveryState (WakeSystem.step 100 0 1) (WakeSystem.NoneLost 100 1)
      ⟨twoRunning.boot, .quiet⟩
      [.wait 0 none, .proceed 0 0, .schedule 0, .store 1, .wake 1 1, .proceed 1 0, .proceed 1 0,
        .proceed 1 0, .proceed 1 0] :=
  futexWake_loses_none 100 0 1 twoRunning _ (Transition.checkSteps_iff.mp (by decide +kernel))

/-- The store and the whole wake fall between task 0's section in `futex_wait` and its
`wq_wait`. -/
def wakeBeforeWait : List WakeAction :=
  [.wait 0 none, .store 1, .wake 1 1, .proceed 1 0, .proceed 1 0, .proceed 0 0]

theorem wakeBeforeWait_lost : ¬∀ actions,
    Transition.EveryState (WakeSystem.step 100 0 1) (WakeSystem.NoneLost 100 1)
      ⟨twoRunning.boot, .quiet⟩ actions := by
  intro all
  have lost : (Transition.exec (WakeSystem.step 100 0 1) ⟨twoRunning.boot, .quiet⟩
      wakeBeforeWait).any (fun system => decide (system.stage = .called) &&
        decide (system.futex.controls 1 = .outside) &&
        decide (system.futex.wq.smp.states 0 = .blocked) &&
        decide (system.futex.controls 0 = .waiting 100 0 false)) = true := by
    decide +kernel
  obtain ⟨system, run, facts⟩ := (Option.any_eq_true _ _).mp lost
  simp only [Bool.and_eq_true, decide_eq_true_eq] at facts
  obtain ⟨⟨⟨called, returned⟩, blocked⟩, waiting⟩ := facts
  exact (all wakeBeforeWait).last run called returned 0 0 ⟨blocked, false, waiting⟩

end DragoonKernel
