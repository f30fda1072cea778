import DragoonKernel.FutexCore
import DragoonKernel.WaitQueueSections

/-!
What the sections of a futex call do to the slots, the wait queues and the tasks, and
that the tasks which block in a wait are the ones on the queues.
-/

namespace DragoonKernel

variable {system : FutexSystem} {entries : Nat → List Nat}

def FutexSystem.Holds (system : FutexSystem) (addr slot : Nat) : Prop :=
  slot < futexMax ∧ system.slots slot = ⟨addr, true⟩

def FutexSystem.activate (system : FutexSystem) (addr slot : Nat) : FutexSystem :=
  { system.withQueues (wqInit system.wq.queues slot) with
    slots := Function.update system.slots slot ⟨addr, true⟩ }

theorem findSlot_cases (system : FutexSystem) (addr : Nat) (create : Bool) :
    (∃ slot, system.Holds addr slot ∧ system.findSlot addr create = (system, some slot)) ∨
    ((∀ slot, ¬system.Holds addr slot) ∧
      (system.findSlot addr create = (system, none) ∨
        create = true ∧ ∃ slot < futexMax, (system.slots slot).active = false ∧
          (∀ earlier < slot, (system.slots earlier).active = true) ∧
          system.findSlot addr create = (system.activate addr slot, some slot))) := by
  unfold FutexSystem.findSlot
  cases held : (List.range futexMax).find? fun slot =>
      (system.slots slot).active && decide ((system.slots slot).addr = addr) with
  | some slot =>
      have bound := List.mem_range.mp (List.mem_of_find?_eq_some held)
      have found := List.find?_some held
      rw [Bool.and_eq_true, decide_eq_true_eq] at found
      refine Or.inl ⟨slot, ⟨bound, ?_⟩, rfl⟩
      rw [← found.1, ← found.2]
  | none =>
      right
      refine ⟨fun slot holds => ?_, ?_⟩
      · have other := List.find?_eq_none.mp held slot (List.mem_range.mpr holds.1)
        simp [holds.2] at other
      · cases free : (List.range futexMax).find? fun slot => !(system.slots slot).active with
        | none => exact Or.inl rfl
        | some slot =>
            cases create with
            | false => exact Or.inl rfl
            | true =>
                rw [List.find?_range_eq_some] at free
                refine Or.inr ⟨rfl, slot, List.mem_range.mp free.2.1, by simpa using free.1, ?_, rfl⟩
                exact fun earlier before => by simpa using free.2.2 earlier before

def FutexSystem.release (system : FutexSystem) (slot : Nat) : FutexSystem :=
  { system with
    slots := Function.update system.slots slot ⟨(system.slots slot).addr, false⟩ }

theorem maybeFreeSlot_cases (system : FutexSystem) (slot : Nat) :
    (system.wq.queues.heads slot < 0 ∧ system.maybeFreeSlot slot = system.release slot) ∨
    (¬system.wq.queues.heads slot < 0 ∧ system.maybeFreeSlot slot = system) := by
  by_cases empty : system.wq.queues.heads slot < 0
  · exact Or.inl ⟨empty, if_pos empty⟩
  · exact Or.inr ⟨empty, if_neg empty⟩

theorem release_holds {addr slot other : Nat} :
    (system.release slot).Holds addr other ↔ other ≠ slot ∧ system.Holds addr other := by
  by_cases here : other = slot
  · subst here
    simp [FutexSystem.Holds, FutexSystem.release]
  · simp [FutexSystem.Holds, FutexSystem.release, here]

theorem activate_holds {addr other slot query : Nat} (bound : slot < futexMax) :
    (system.activate addr slot).Holds other query ↔
      query = slot ∧ other = addr ∨ query ≠ slot ∧ system.Holds other query := by
  by_cases here : query = slot
  · subst here
    simp [FutexSystem.Holds, FutexSystem.activate, bound, eq_comm]
  · simp [FutexSystem.Holds, FutexSystem.activate, here]

theorem maybeFreeSlot_smp (system : FutexSystem) (slot : Nat) :
    (system.maybeFreeSlot slot).wq.smp = system.wq.smp := by
  rcases maybeFreeSlot_cases system slot with ⟨_, freed⟩ | ⟨_, kept⟩
  · rw [freed]
    rfl
  · rw [kept]

theorem storeBetween_smp (system : FutexSystem) (addr : Nat) (between : Option (BitVec 32)) :
    (system.storeBetween addr between).wq.smp = system.wq.smp := by
  cases between <;> rfl

theorem running_some {cpu task : Nat} (runs : system.running cpu = some task) :
    system.wq.smp.current cpu = task ∧ task < maxTasks ∧
      system.wq.smp.states task = .running := by
  unfold FutexSystem.running at runs
  cases found : taskGet system.wq.smp.states (system.wq.smp.current cpu) with
  | none => simp [found] at runs
  | some current =>
      obtain ⟨same, bound, _⟩ := taskGet_some.mp found
      simp only [found] at runs
      split at runs
      next running =>
        obtain rfl := Option.some.inj runs
        exact ⟨same, bound, running⟩
      next => cases runs

theorem block_states {smp : Smp} {task : Nat} (bound : task < maxTasks)
    (live : smp.states task ≠ .dead) :
    (smp.block task).states = Function.update smp.states task .blocked := by
  rw [Smp.block, taskGet_some.mpr ⟨rfl, bound, live⟩]
  funext other
  rw [Smp.states, setWakeup_tasks]
  by_cases here : other = task
  · subst here
    simp
  · simp [here, Smp.states]

/-- The slot number that a task carries from one section of its call to the next. -/
def FutexControl.slot : FutexControl → Option Nat
  | .outside => none
  | .enqueueing _ slot _ => some slot
  | .waiting _ slot _ => some slot
  | .leaving slot _ => some slot
  | .waking _ slot _ _ => some slot
  | .wakingOne _ slot _ _ => some slot
  | .finishing _ slot _ => some slot

def FutexSystem.Waits (system : FutexSystem) (task addr slot : Nat) : Prop :=
  system.wq.smp.states task = .blocked ∧ ∃ timed, system.controls task = .waiting addr slot timed

/-- The entries of the pool are those of the tasks that are blocked in a wait, one each, on
the queue of the slot that the task has been given. -/
structure FutexSystem.Coherent (system : FutexSystem) (entries : Nat → List Nat) : Prop where
  threads : system.wq.queues.Threads (Finset.range futexMax) entries
  waits : ∀ queue, ∀ index ∈ entries queue, ∃ task < maxTasks,
    (system.wq.queues.waiter index).taskId = task ∧ ∃ addr, system.Waits task addr queue
  queued : ∀ task addr slot, system.Waits task addr slot →
    ∃ index ∈ entries slot, (system.wq.queues.waiter index).taskId = task
  apart : ∀ first second : Nat, ∀ index ∈ entries first, ∀ other ∈ entries second,
    (system.wq.queues.waiter index).taskId = (system.wq.queues.waiter other).taskId →
      index = other
  inside : ∀ task slot, (system.controls task).slot = some slot → slot < futexMax

/-- After `wq_pool_init` and `futex_init`, with no call under way. -/
def FutexSystem.boot (system : FutexSystem) : FutexSystem :=
  futexInit { system with
    wq := { system.wq with queues := wqPoolInit system.wq.queues }
    controls := fun _ => .outside }

theorem boot_coherent (system : FutexSystem) : system.boot.Coherent fun _ => [] := by
  have inits : ∀ count, ((List.range count).foldl wqInit (wqPoolInit system.wq.queues)).Threads
      (Finset.range count) fun _ => [] := by
    intro count
    induction count with
    | zero => exact wqPoolInit_threads system.wq.queues
    | succ count ih =>
        rw [List.range_succ, List.foldl_append, Finset.range_add_one]
        exact ih.init rfl
  refine ⟨inits futexMax, ?_, ?_, ?_, ?_⟩
  · exact fun _ index listed => absurd listed List.not_mem_nil
  · rintro task addr slot ⟨_, _, waiting⟩
    cases waiting
  · exact fun _ _ index listed => absurd listed List.not_mem_nil
  · exact fun _ _ carried => nomatch carried

theorem FutexSystem.Coherent.empty_iff (coherent : system.Coherent entries) {slot : Nat}
    (bound : slot < futexMax) : system.wq.queues.heads slot < 0 ↔ entries slot = [] :=
  coherent.threads.empty_iff (Finset.mem_range.mpr bound)

theorem FutexSystem.Coherent.of_waits (coherent : system.Coherent entries) {smp : Smp}
    (same : ∀ task addr slot,
      { system with wq := { system.wq with smp := smp } }.Waits task addr slot ↔
        system.Waits task addr slot) :
    { system with wq := { system.wq with smp := smp } }.Coherent entries := by
  refine ⟨coherent.threads, ?_, ?_, coherent.apart, coherent.inside⟩
  · intro queue index listed
    simpa only [same] using coherent.waits queue index listed
  · exact fun task addr slot waits => coherent.queued task addr slot ((same _ _ _).mp waits)

theorem FutexSystem.Coherent.of_blocked (coherent : system.Coherent entries) {smp : Smp}
    (same : ∀ task, smp.states task = .blocked ↔ system.wq.smp.states task = .blocked) :
    { system with wq := { system.wq with smp := smp } }.Coherent entries :=
  coherent.of_waits fun task _ _ => and_congr_left fun _ => same task

theorem setControl_controls (system : FutexSystem) (task other : Nat) (control : FutexControl) :
    (system.setControl task control).controls other =
      if other = task then control else system.controls other :=
  Function.update_apply ..

theorem setControl_waits {task : Nat} (awake : system.wq.smp.states task ≠ .blocked)
    (control : FutexControl) (other addr slot : Nat) :
    (system.setControl task control).Waits other addr slot ↔ system.Waits other addr slot := by
  refine and_congr_right fun blocked => ?_
  have different : other ≠ task := by
    rintro rfl
    exact awake blocked
  simp [FutexSystem.setControl, different]

theorem FutexSystem.Coherent.setControl (coherent : system.Coherent entries) {task : Nat}
    (awake : system.wq.smp.states task ≠ .blocked) {control : FutexControl}
    (bounded : ∀ slot, control.slot = some slot → slot < futexMax) :
    (system.setControl task control).Coherent entries := by
  refine ⟨coherent.threads, ?_, ?_, coherent.apart, ?_⟩
  · intro queue index listed
    obtain ⟨other, bound, named, addr, waits⟩ := coherent.waits queue index listed
    exact ⟨other, bound, named, addr, (setControl_waits awake control _ _ _).mpr waits⟩
  · intro other addr slot waits
    exact coherent.queued other addr slot ((setControl_waits awake control _ _ _).mp waits)
  · intro other slot carried
    rw [setControl_controls] at carried
    split at carried
    next => exact bounded slot carried
    next => exact coherent.inside other slot carried

theorem FutexSystem.Coherent.leave (coherent : system.Coherent entries) {task : Nat}
    (awake : system.wq.smp.states task ≠ .blocked) (status : Int) :
    (system.leave task status).Coherent entries :=
  have left : (system.setControl task .outside).Coherent entries :=
    coherent.setControl awake fun _ carried => nomatch carried
  ⟨left.threads, left.waits, left.queued, left.apart, left.inside⟩

theorem FutexSystem.Coherent.release (coherent : system.Coherent entries) (slot : Nat) :
    (system.release slot).Coherent entries :=
  ⟨coherent.threads, coherent.waits, coherent.queued, coherent.apart, coherent.inside⟩

theorem FutexSystem.Coherent.store (coherent : system.Coherent entries) (addr : Nat)
    (value : BitVec 32) : (system.store addr value).Coherent entries :=
  ⟨coherent.threads, coherent.waits, coherent.queued, coherent.apart, coherent.inside⟩

theorem FutexSystem.Coherent.maybeFreeSlot (coherent : system.Coherent entries) (slot : Nat) :
    (system.maybeFreeSlot slot).Coherent entries := by
  rcases maybeFreeSlot_cases system slot with ⟨_, freed⟩ | ⟨_, kept⟩
  · rw [freed]
    exact coherent.release slot
  · rwa [kept]

theorem FutexSystem.Coherent.activate (coherent : system.Coherent entries) {slot : Nat}
    (bound : slot < futexMax) (empty : entries slot = []) (addr : Nat) :
    (system.activate addr slot).Coherent entries := by
  have threads := coherent.threads.init empty
  rw [Finset.insert_eq_self.mpr (Finset.mem_range.mpr bound)] at threads
  exact ⟨threads, coherent.waits, coherent.queued, coherent.apart, coherent.inside⟩

theorem FutexSystem.Coherent.remove (coherent : system.Coherent entries) {keep : Nat → Prop}
    [DecidablePred keep] {wq : WqSystem} {woken : Int → Prop} {reason : Int}
    (threads : wq.queues.Threads (Finset.range futexMax) fun queue => (entries queue).filter keep)
    (smp : wq.smp = system.wq.smp.wakeTasks woken reason)
    (waiter : wq.queues.waiter = system.wq.queues.waiter)
    (removed : ∀ taskId, woken taskId ↔ ∃ queue, ∃ index ∈ entries queue,
      ¬keep index ∧ taskId = (system.wq.queues.waiter index).taskId) :
    { system with wq := wq }.Coherent fun queue => (entries queue).filter keep := by
  have listed_iff : ∀ {queue index : Nat}, index ∈ (entries queue).filter (fun index => keep index) ↔
      index ∈ entries queue ∧ keep index := by
    simp
  have blocked_iff : ∀ task, wq.smp.states task = .blocked ↔
      system.wq.smp.states task = .blocked ∧ ¬system.wq.smp.Wakes woken task := by
    intro task
    rw [smp]
    exact wakeTasks_blocked
  refine ⟨threads, ?_, ?_, ?_, coherent.inside⟩
  · intro queue index member
    obtain ⟨listed, kept⟩ := listed_iff.mp member
    obtain ⟨task, bound, named, addr, blocked, waiting⟩ := coherent.waits queue index listed
    refine ⟨task, bound, waiter ▸ named, addr, (blocked_iff task).mpr ⟨blocked, ?_⟩, waiting⟩
    rintro ⟨_, _, wakes⟩
    obtain ⟨other, again, also, gone, same⟩ := (removed task).mp wakes
    obtain rfl := coherent.apart queue other index listed again also (named.trans same)
    exact gone kept
  · rintro task addr slot ⟨blocked, waiting⟩
    obtain ⟨before, asleep⟩ := (blocked_iff task).mp blocked
    obtain ⟨index, listed, named⟩ := coherent.queued task addr slot ⟨before, waiting⟩
    obtain ⟨owner, bound, known, _⟩ := coherent.waits slot index listed
    obtain rfl : task = owner := Int.ofNat.inj (named.symm.trans known)
    refine ⟨index, listed_iff.mpr ⟨listed, ?_⟩, waiter ▸ named⟩
    by_contra gone
    exact asleep ⟨bound, before, (removed task).mpr ⟨slot, index, listed, gone, named.symm⟩⟩
  · intro first second index listed other also same
    rw [waiter] at same
    exact coherent.apart first second index (listed_iff.mp listed).1 other (listed_iff.mp also).1 same

theorem FutexSystem.Coherent.tick (coherent : system.Coherent entries) (now : Word) :
    ∃ wq, system.wq.tick now = some wq ∧
      wq.smp = system.wq.smp.wakeTasks (fun taskId => ∃ queue, ∃ index ∈ entries queue,
        (system.wq.queues.waiter index).Expired now ∧
          taskId = (system.wq.queues.waiter index).taskId) (-1) ∧
      { system with wq := wq }.Coherent fun queue =>
        (entries queue).filter fun index => ¬(system.wq.queues.waiter index).Expired now := by
  obtain ⟨wq, ticked, threads, smp, waiter⟩ := tick_spec coherent.threads now
  exact ⟨wq, ticked, smp, coherent.remove threads smp waiter fun taskId => by simp only [not_not]⟩

theorem FutexSystem.Coherent.wakeOne (coherent : system.Coherent entries) {slot : Nat}
    (bound : slot < futexMax) :
    (entries slot = [] ∧ system.wq.wakeOne slot = some system.wq) ∨
    ∃ index rest wq, entries slot = index :: rest ∧ system.wq.wakeOne slot = some wq ∧
      wq.smp = system.wq.smp.wakeTasks (· = (system.wq.queues.waiter index).taskId) 0 ∧
      { system with wq := wq }.Coherent (withoutEntry entries index) := by
  rcases wakeOne_spec coherent.threads (Finset.mem_range.mpr bound) with
    ⟨empty, stays⟩ | ⟨index, rest, wq, listed, woken, removes⟩
  · exact Or.inl ⟨empty, stays⟩
  · have smp := removes.smp.trans (wake_eq _ _ _)
    refine Or.inr ⟨index, rest, wq, listed, woken, smp, ?_⟩
    refine coherent.remove removes.threads smp removes.waiter fun taskId => ?_
    constructor
    · rintro rfl
      exact ⟨slot, index, by simp [listed], by simp, rfl⟩
    · rintro ⟨_, other, _, gone, same⟩
      obtain rfl : other = index := by simpa using gone
      exact same

theorem joined_waits {wq : WqSystem} {task : Nat} (inside : task < maxTasks)
    (running : system.wq.smp.states task = .running) (blocked : wq.smp = system.wq.smp.block task)
    {addr slot other query queue : Nat} {timed : Bool} :
    ({ system with wq := wq }.setControl task (.waiting addr slot timed)).Waits other query queue ↔
      other = task ∧ query = addr ∧ queue = slot ∨ other ≠ task ∧ system.Waits other query queue := by
  have live : system.wq.smp.states task ≠ .dead := by simp [running]
  by_cases here : other = task
  · subst here
    simp [FutexSystem.Waits, FutexSystem.setControl, blocked, block_states inside live, eq_comm]
  · simp [FutexSystem.Waits, FutexSystem.setControl, blocked, block_states inside live, here]

theorem FutexSystem.Coherent.join (coherent : system.Coherent entries) {task slot index : Nat}
    {after : WaitQueues} {deadline : Word} (inside : task < maxTasks)
    (running : system.wq.smp.states task = .running) (bound : slot < futexMax)
    (unused : (system.wq.queues.pool index).inUse = false)
    (threads : after.Threads (Finset.range futexMax)
      (Function.update entries slot (entries slot ++ [index])))
    (waiter : after.waiter = Function.update system.wq.queues.waiter index ⟨task, deadline⟩)
    (addr : Nat) (timed : Bool) :
    ({ system with wq := { smp := system.wq.smp.block task, queues := after } }.setControl task
      (.waiting addr slot timed)).Coherent
        (Function.update entries slot (entries slot ++ [index])) := by
  have unlisted := coherent.threads.unlisted unused
  have listed_iff : ∀ queue query, query ∈ Function.update entries slot
      (entries slot ++ [index]) queue ↔ query ∈ entries queue ∨ queue = slot ∧ query = index := by
    intro queue query
    by_cases here : queue = slot
    · subst here
      simp
    · simp [here]
  have named : ∀ query, after.waiter query =
      if query = index then ⟨task, deadline⟩ else system.wq.queues.waiter query := by
    intro query
    rw [waiter, Function.update_apply]
  have old : ∀ queue, ∀ query ∈ entries queue,
      after.waiter query = system.wq.queues.waiter query := by
    intro queue query listed
    rw [named, if_neg]
    rintro rfl
    exact unlisted queue listed
  have waits_iff := @joined_waits system { smp := system.wq.smp.block task, queues := after } task
    inside running rfl addr slot
  have awake : ∀ {addr' queue : Nat}, ¬system.Waits task addr' queue := fun waits => by
    rw [FutexSystem.Waits, running] at waits
    cases waits.1
  have others : ∀ queue, ∀ query ∈ entries queue,
      (after.waiter query).taskId ≠ (task : Int) := by
    intro queue query listed same
    obtain ⟨other, _, known, addr', waits⟩ := coherent.waits queue query listed
    rw [old queue query listed, known] at same
    obtain rfl : other = task := Int.ofNat.inj same
    exact awake waits
  have newest : (after.waiter index).taskId = task := by
    rw [named, if_pos rfl]
  refine ⟨threads, ?_, ?_, ?_, ?_⟩
  · intro queue query member
    rcases (listed_iff queue query).mp member with listed | ⟨rfl, rfl⟩
    · obtain ⟨other, room, known, addr', waits⟩ := coherent.waits queue query listed
      have different : other ≠ task := by
        rintro rfl
        exact awake waits
      refine ⟨other, room, ?_, addr', waits_iff.mpr (Or.inr ⟨different, waits⟩)⟩
      exact (congrArg Waiter.taskId (old queue query listed)).trans known
    · exact ⟨task, inside, newest, addr, waits_iff.mpr (Or.inl ⟨rfl, rfl, rfl⟩)⟩
  · intro other addr' queue waits
    rcases waits_iff.mp waits with ⟨rfl, rfl, rfl⟩ | ⟨_, before⟩
    · exact ⟨index, by simp, newest⟩
    · obtain ⟨query, listed, known⟩ := coherent.queued other addr' queue before
      refine ⟨query, (listed_iff queue query).mpr (Or.inl listed), ?_⟩
      exact (congrArg Waiter.taskId (old queue query listed)).trans known
  · intro first second query listed other also same
    replace same : (after.waiter query).taskId = (after.waiter other).taskId := same
    rcases (listed_iff first query).mp listed with before | ⟨_, rfl⟩ <;>
      rcases (listed_iff second other).mp also with earlier | ⟨_, rfl⟩
    · rw [old first query before, old second other earlier] at same
      exact coherent.apart first second query before other earlier same
    · exact absurd (same.trans newest) (others first query before)
    · exact absurd (same.symm.trans newest) (others second other earlier)
    · rfl
  · intro other carried holding
    rw [setControl_controls] at holding
    split at holding
    next =>
      obtain rfl := Option.some.inj holding
      exact bound
    next => exact coherent.inside other carried holding

theorem poolAlloc_full {queues : WaitQueues}
    (full : ∀ index < wqPoolSize, (queues.pool index).inUse = true) :
    poolAlloc queues = (queues, none) := by
  rcases poolAlloc_cases queues with ⟨_, none⟩ | ⟨index, room, unused, _⟩
  · exact none
  · rw [full index room] at unused
    cases unused

def waitDeadline (now : Word) : Option Word → Word
  | none => 0
  | some ticks => now + ticks

/-- The wait-queue section of a wait: without an unused entry it ends at once. -/
theorem FutexSystem.Coherent.enqueue (coherent : system.Coherent entries) {cpu task : Nat}
    (runs : system.running cpu = some task) (now : Word) (addr : Nat) {slot : Nat}
    (bound : slot < futexMax) (ticks : Option Word) :
    ((∀ index < wqPoolSize, (system.wq.queues.pool index).inUse = true) ∧
      system.enqueue cpu task now addr slot ticks =
        some (system.setControl task (.leaving slot (if ticks.isSome then -1 else 0)))) ∨
    ((∃ index < wqPoolSize, (system.wq.queues.pool index).inUse = false) ∧ ∃ wq index,
      system.enqueue cpu task now addr slot ticks =
        some ({ system with wq := wq }.setControl task (.waiting addr slot ticks.isSome)) ∧
      wq.smp = system.wq.smp.block task ∧
      ({ system with wq := wq }.setControl task (.waiting addr slot ticks.isSome)).Coherent
        (Function.update entries slot (entries slot ++ [index])) ∧
      wq.queues.waiter =
        Function.update system.wq.queues.waiter index ⟨task, waitDeadline now ticks⟩) := by
  obtain ⟨current, inside, running⟩ := running_some runs
  have busy : ¬system.wq.smp.current cpu < 0 := by omega
  have waited : system.joinQueue cpu slot now ticks =
      system.wq.wait cpu slot (waitDeadline now ticks) := by
    cases ticks with
    | none => exact if_neg busy
    | some ticks => exact if_neg busy
  simp only [FutexSystem.enqueue, waited]
  rcases wait_spec coherent.threads (Finset.mem_range.mpr bound) (waitDeadline now ticks) busy with
    ⟨full, stays⟩ | ⟨index, after, unused, joined, threads, waiter⟩
  · exact Or.inl ⟨full, by simp [stays, poolAlloc_full full]⟩
  · rw [current] at joined waiter
    have room : index < wqPoolSize := threads.inside slot index (by simp)
    have joins := coherent.join inside running bound unused threads waiter addr ticks.isSome
    refine Or.inr ⟨⟨index, room, unused⟩, _, index, ?_, rfl, joins, waiter⟩
    rcases poolAlloc_cases system.wq.queues with ⟨full, _⟩ | ⟨_, _, _, allocated⟩
    · rw [full index room] at unused
      cases unused
    · rw [joined, allocated, Option.map_some]

end DragoonKernel
