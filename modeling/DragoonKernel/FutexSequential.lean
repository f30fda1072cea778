import DragoonKernel.FutexTable

/-!
Futex calls on one CPU that no other call comes in between of: the table is a map from
addresses to queues of waiting tasks.
-/

namespace DragoonKernel

/-- The calls and what happens around them. `elsewhere` is the rest of the kernel. -/
inductive FutexEvent where
  | schedule
  | store (addr : Nat) (value : BitVec 32)
  | tick (now : Word)
  | elsewhere (smp : Smp)
  | wait (addr : Nat) (expected : BitVec 32) (ticks : Option Word) (now : Word)
  | wake (addr : Nat) (count : Int)
  | resume

/-- `futex_wait`, or `futex_wait_timeout` for some `ticks`, until it blocks or returns. -/
def FutexSystem.futexWait (system : FutexSystem) (cpu task addr : Nat) (expected : BitVec 32)
    (ticks : Option Word) (now : Word) : Option FutexSystem :=
  match system.waitEnter addr expected (system.memory addr) (system.memory addr) with
  | (entered, none) => some (entered.leave task (-1))
  | (entered, some slot) =>
      (entered.enqueue cpu task now addr slot ticks).map fun after =>
        match after.controls task with
        | .leaving slot status => (after.maybeFreeSlot slot).leave task status
        | _ => after

/-- The loop of `futex_wake`, with the number of tasks woken so far. -/
def WqSystem.futexWakeLoop (slot : Nat) (count : Int) :
    Nat → WqSystem → Int → Option (WqSystem × Int)
  | 0, _, _ => none
  | fuel + 1, wq, woken =>
      if woken < count ∧ 0 ≤ wq.queues.heads slot then
        (wq.wakeOne slot).bind fun wq => WqSystem.futexWakeLoop slot count fuel wq (woken + 1)
      else some (wq, woken)

def FutexSystem.futexWake (system : FutexSystem) (task addr : Nat) (count : Int) :
    Option FutexSystem :=
  match system.findSlot addr false with
  | (system, none) => some (system.leave task 0)
  | (system, some slot) =>
      (WqSystem.futexWakeLoop slot count (wqPoolSize + 1) system.wq 0).map fun result =>
        ({ system with wq := result.1 }.maybeFreeSlot slot).leave task result.2

/-- What a wait does after it has been woken. -/
def FutexSystem.futexResume (system : FutexSystem) (task : Nat) : Option FutexSystem :=
  match system.controls task with
  | .waiting _ slot timed =>
      some ((system.maybeFreeSlot slot).leave task
        (if timed then (system.wq.smp.tasks task).wakeupReason else 0))
  | _ => none

def FutexControl.waits : FutexControl → Bool
  | .waiting _ _ _ => true
  | _ => false

/-- No task that is in a wait is changed, and none is destroyed. -/
def FutexSystem.keepWaiting (system : FutexSystem) (smp : Smp) : Smp :=
  { smp with tasks := fun task =>
      if (system.controls task).waits then system.wq.smp.tasks task else smp.tasks task }

def FutexSystem.caller (system : FutexSystem) : Option Nat :=
  (system.running 0).filter fun task => system.controls task = .outside

def FutexSystem.sequentialStep (system : FutexSystem) : FutexEvent → Option FutexSystem
  | .schedule => some { system with wq := { system.wq with smp := (system.wq.smp.schedule 0).1 } }
  | .store addr value => some (system.store addr value)
  | .tick now => (system.wq.tick now).map fun wq => { system with wq := wq }
  | .elsewhere smp =>
      some { system with wq := { system.wq with smp := system.keepWaiting smp } }
  | .wait addr expected ticks now =>
      system.caller.bind fun task => system.futexWait 0 task addr expected ticks now
  | .wake addr count => system.caller.bind fun task => system.futexWake task addr count
  | .resume => (system.running 0).bind system.futexResume

/-- The table is `map`: the slots in use have different addresses, the list of each is what the
map has for its address, and the tasks on the lists are blocked and wait once. -/
structure FutexSystem.Tabulates (system : FutexSystem) (map : Nat → List Waiter) : Prop where
  distinct : ∀ addr first second, system.Holds addr first → system.Holds addr second →
    first = second
  held : ∀ addr slot, system.Holds addr slot →
    ∃ list, system.wq.queues.Lists (system.wq.queues.heads slot) list ∧
      map addr = list.map system.wq.queues.waiter
  unheld : ∀ addr, (∀ slot, ¬system.Holds addr slot) → map addr = []
  blocked : ∀ addr, ∀ waiter ∈ map addr, ∃ task < maxTasks,
    waiter.taskId = task ∧ system.wq.smp.states task = .blocked
  once : ∀ addr, ((map addr).map Waiter.taskId).Nodup
  apart : ∀ first second, ∀ waiter ∈ map first, ∀ other ∈ map second,
    waiter.taskId = other.taskId → first = second

/-- The blocked tasks among `woken`, which are all of them, become ready. -/
structure Readies (before after : Smp) (woken : Int → Prop) : Prop where
  readied : ∀ task : Nat, woken task → before.states task = .blocked ∧ after.states task = .ready
  others : ∀ task : Nat, ¬woken task → after.states task = before.states task

/-- There is a slot for the address, or one that is not in use. -/
def FutexSystem.FindsSlot (system : FutexSystem) (addr : Nat) : Prop :=
  ∃ slot < futexMax, (system.slots slot).active = true → (system.slots slot).addr = addr

/-- There is an unused entry of the pool. -/
def WaitQueues.HasRoom (queues : WaitQueues) : Prop :=
  ∃ index < wqPoolSize, (queues.pool index).inUse = false

instance (system : FutexSystem) (addr : Nat) : Decidable (system.FindsSlot addr) :=
  inferInstanceAs (Decidable (∃ slot, slot < futexMax ∧ _))

instance (queues : WaitQueues) : Decidable queues.HasRoom :=
  inferInstanceAs (Decidable (∃ index, index < wqPoolSize ∧ _))

/-- A wait finds its word unchanged and a slot. -/
def FutexSystem.Enters (system : FutexSystem) (addr : Nat) (expected : BitVec 32) : Prop :=
  system.memory addr = expected ∧ system.FindsSlot addr

instance (system : FutexSystem) (addr : Nat) (expected : BitVec 32) :
    Decidable (system.Enters addr expected) := inferInstanceAs (Decidable (_ ∧ _))

/-- What a wait returns that does not block. `futex_wait` does not say that the pool is
exhausted. -/
def FutexSystem.refusal (system : FutexSystem) (addr : Nat) (expected : BitVec 32)
    (ticks : Option Word) : Int :=
  if system.Enters addr expected ∧ ticks = none then 0 else -1

def FutexSystem.HasReturned (system : FutexSystem) (task : Nat) (status : Int) : Prop :=
  system.controls task = .outside ∧ system.returned task = status

/-- What an event does to the map and to the tasks. -/
def FutexSystem.MapStep (before after : FutexSystem) (map next : Nat → List Waiter) :
    FutexEvent → Prop
  | .wait addr expected ticks now => ∃ task, before.caller = some task ∧
      if before.Enters addr expected ∧ before.wq.queues.HasRoom then
        after.wq.smp.states = Function.update before.wq.smp.states task .blocked ∧
          next = Function.update map addr (map addr ++ [⟨task, waitDeadline now ticks⟩]) ∧
          ∃ slot, after.controls task = .waiting addr slot ticks.isSome
      else after.wq.smp.states = before.wq.smp.states ∧ next = map ∧
        after.HasReturned task (before.refusal addr expected ticks)
  | .wake addr count => ∃ task, before.caller = some task ∧
      after.HasReturned task (min count.toNat (map addr).length : Nat) ∧
      next = Function.update map addr ((map addr).drop (min count.toNat (map addr).length)) ∧
      Readies before.wq.smp after.wq.smp fun taskId =>
        ∃ waiter ∈ (map addr).take (min count.toNat (map addr).length), taskId = waiter.taskId
  | .tick now =>
      next = (fun addr => (map addr).filter fun waiter => ¬waiter.Expired now) ∧
      Readies before.wq.smp after.wq.smp fun taskId =>
        ∃ addr, ∃ waiter ∈ map addr, waiter.Expired now ∧ taskId = waiter.taskId
  | .resume => next = map ∧ ∃ task addr slot timed, before.running 0 = some task ∧
      before.controls task = .waiting addr slot timed ∧
      after.HasReturned task (if timed then (before.wq.smp.tasks task).wakeupReason else 0) ∧
      after.wq.smp = before.wq.smp
  | .schedule | .store _ _ | .elsewhere _ => next = map

/-- The words of the memory after an event. -/
def FutexEvent.memory (memory : Nat → BitVec 32) : FutexEvent → Nat → BitVec 32
  | .store addr value => Function.update memory addr value
  | _ => memory

/-- The events that have a result: a call of the task that runs, its return from a wait, and a
tick. -/
structure FutexSystem.Answers (system : FutexSystem) : Prop where
  wait : ∀ task, system.caller = some task → ∀ addr expected ticks now,
    (system.sequentialStep (.wait addr expected ticks now)).isSome
  wake : ∀ task, system.caller = some task → ∀ addr count,
    (system.sequentialStep (.wake addr count)).isSome
  resume : ∀ task, system.running 0 = some task → (system.controls task).waits = true →
    (system.sequentialStep .resume).isSome
  tick : ∀ now, (system.sequentialStep (.tick now)).isSome

variable {system after : FutexSystem} {entries : Nat → List Nat} {map : Nat → List Waiter}

theorem wakeOne_waiter {wq woken : WqSystem} {queue : Nat} (wakes : wq.wakeOne queue = some woken) :
    woken.queues.waiter = wq.queues.waiter := by
  unfold WqSystem.wakeOne at wakes
  split at wakes
  · obtain rfl := Option.some.inj wakes
    rfl
  · obtain ⟨index, _, rfl⟩ := Option.map_eq_some_iff.mp wakes
    exact poolFree_waiter _ index

theorem FutexSystem.Coherent.wakeLoop {slot : Nat} (bound : slot < futexMax) (count : Int)
    (list : List Nat) :
    ∀ (fuel : Nat) (system : FutexSystem) (entries : Nat → List Nat) (woken : Int),
      system.Coherent entries → entries slot = list → list.length < fuel →
      ∃ wq, WqSystem.futexWakeLoop slot count fuel system.wq woken =
          some (wq, woken + (min (count - woken).toNat list.length : Nat)) ∧
        { system with wq := wq }.Coherent
          (Function.update entries slot (list.drop (min (count - woken).toNat list.length))) ∧
        wq.smp = system.wq.smp.wakeTasks (fun taskId =>
          ∃ index ∈ list.take (min (count - woken).toNat list.length),
            taskId = (system.wq.queues.waiter index).taskId) 0 ∧
        wq.queues.waiter = system.wq.queues.waiter := by
  induction list with
  | nil =>
      intro fuel system entries woken coherent listed enough
      obtain ⟨fuel, rfl⟩ := Nat.exists_eq_succ_of_ne_zero (Nat.ne_of_gt enough)
      have empty := (coherent.empty_iff bound).mpr listed
      have ended : ¬(woken < count ∧ 0 ≤ system.wq.queues.heads slot) := by omega
      refine ⟨system.wq, ?_, ?_, (wakeTasks_none 0 ?_).symm, rfl⟩
      · rw [WqSystem.futexWakeLoop, if_neg ended]
        simp
      · rw [List.drop_nil, ← listed, Function.update_eq_self]
        exact coherent
      · rintro task ⟨_, _, index, member, _⟩
        simp at member
  | cons index rest ih =>
      intro fuel system entries woken coherent listed enough
      obtain ⟨fuel, rfl⟩ := Nat.exists_eq_succ_of_ne_zero (Nat.ne_of_gt (Nat.zero_lt_of_lt enough))
      have nonempty : 0 ≤ system.wq.queues.heads slot := by
        rw [(coherent.threads.head listed).1]
        omega
      by_cases more : woken < count
      · rcases coherent.wakeOne bound with ⟨none, _⟩ | ⟨first, others, wq, split, wakes, smp, left⟩
        · rw [listed] at none
          cases none
        · rw [listed, List.cons.injEq] at split
          obtain ⟨rfl, rfl⟩ := split
          rw [coherent.threads.without_head listed] at left
          have waiter := wakeOne_waiter wakes
          obtain ⟨final, looped, drained, woke, kept⟩ := ih fuel { system with wq := wq } _ (woken + 1)
            left (by simp) (by simpa using enough)
          have number : min (count - woken).toNat (index :: rest).length =
              min (count - (woken + 1)).toNat rest.length + 1 := by
            rw [List.length_cons, ← Nat.add_min_add_right]
            congr 1
            omega
          refine ⟨final, ?_, ?_, ?_, kept.trans waiter⟩
          · rw [WqSystem.futexWakeLoop, if_pos ⟨more, nonempty⟩, wakes, Option.bind_some, looped,
              number]
            congr 2
            omega
          · rw [number, List.drop_succ_cons]
            rwa [Function.update_idem] at drained
          · rw [woke, smp, wakeTasks_wakeTasks, number]
            refine wakeTasks_congr 0 fun taskId => ?_
            simp only [List.take_succ_cons, List.mem_cons, exists_eq_or_imp, waiter]
      · have none : (count - woken).toNat = 0 := by omega
        have ended : ¬(woken < count ∧ 0 ≤ system.wq.queues.heads slot) := by omega
        refine ⟨system.wq, ?_, ?_, (wakeTasks_none 0 ?_).symm, rfl⟩
        · rw [WqSystem.futexWakeLoop, if_neg ended, none]
          simp
        · rw [none, Nat.zero_min, List.drop_zero, ← listed, Function.update_eq_self]
          exact coherent
        · rintro task ⟨_, _, index, member, _⟩
          simp [none] at member

/-- The invariant of sequential runs, with the pool entries behind the map. -/
structure FutexSystem.Maps (system : FutexSystem) (entries : Nat → List Nat)
    (map : Nat → List Waiter) : Prop where
  tidy : system.Tidy
  coherent : system.Coherent entries
  held : ∀ addr slot, system.Holds addr slot →
    map addr = (entries slot).map system.wq.queues.waiter
  unheld : ∀ addr, (∀ slot, ¬system.Holds addr slot) → map addr = []

theorem boot_maps (system : FutexSystem) : system.boot.Maps (fun _ => []) fun _ => [] :=
  ⟨boot_tidy system, boot_coherent system, fun _ _ _ => rfl, fun _ _ => rfl⟩

theorem FutexSystem.Maps.entry_of_mem (maps : system.Maps entries map) {addr : Nat}
    {waiter : Waiter} (member : waiter ∈ map addr) :
    ∃ slot, system.Holds addr slot ∧ ∃ index ∈ entries slot,
      system.wq.queues.waiter index = waiter := by
  by_cases held : ∃ slot, system.Holds addr slot
  · obtain ⟨slot, holds⟩ := held
    rw [maps.held addr slot holds] at member
    exact ⟨slot, holds, List.mem_map.mp member⟩
  · rw [maps.unheld addr (not_exists.mp held)] at member
    exact absurd member List.not_mem_nil

/-- Every listed entry belongs to the address of its slot. -/
theorem FutexSystem.Maps.holds_of_mem (maps : system.Maps entries map) {slot index : Nat}
    (listed : index ∈ entries slot) :
    ∃ addr, system.Holds addr slot ∧ system.wq.queues.waiter index ∈ map addr := by
  obtain ⟨task, _, _, addr, waits⟩ := maps.coherent.waits slot index listed
  have holds := maps.tidy.addressed task addr slot waits
  refine ⟨addr, holds, ?_⟩
  rw [maps.held addr slot holds]
  exact List.mem_map_of_mem listed

theorem FutexSystem.Maps.tabulates (maps : system.Maps entries map) : system.Tabulates map := by
  refine ⟨maps.tidy.distinct, ?_, maps.unheld, ?_, ?_, ?_⟩
  · intro addr slot holds
    exact ⟨entries slot, maps.coherent.threads.linked slot (Finset.mem_range.mpr holds.1),
      maps.held addr slot holds⟩
  · intro addr waiter member
    obtain ⟨slot, _, index, listed, rfl⟩ := maps.entry_of_mem member
    obtain ⟨task, bound, named, _, blocked, _⟩ := maps.coherent.waits slot index listed
    exact ⟨task, bound, named, blocked⟩
  · intro addr
    by_cases held : ∃ slot, system.Holds addr slot
    · obtain ⟨slot, holds⟩ := held
      rw [maps.held addr slot holds, List.map_map]
      refine (maps.coherent.threads.acyclic slot).map_on fun index listed other also same => ?_
      exact maps.coherent.apart slot slot index listed other also same
    · rw [maps.unheld addr (not_exists.mp held)]
      exact List.nodup_nil
  · intro first second waiter member other also same
    obtain ⟨slot, holds, index, listed, rfl⟩ := maps.entry_of_mem member
    obtain ⟨place, holdsAlso, query, present, rfl⟩ := maps.entry_of_mem also
    obtain rfl := maps.coherent.apart slot place index listed query present same
    obtain rfl := maps.coherent.threads.apart listed present
    have slots := holds.2.symm.trans holdsAlso.2
    exact congrArg FutexSlot.addr slots

theorem FutexSystem.Maps.congr (maps : system.Maps entries map) (tidy : after.Tidy)
    (coherent : after.Coherent entries) (slots : after.slots = system.slots)
    (waiter : after.wq.queues.waiter = system.wq.queues.waiter) : after.Maps entries map := by
  have holds_iff : ∀ addr slot, after.Holds addr slot ↔ system.Holds addr slot := by
    intro addr slot
    rw [FutexSystem.Holds, slots, FutexSystem.Holds]
  refine ⟨tidy, coherent, ?_, ?_⟩
  · intro addr slot holds
    rw [waiter]
    exact maps.held addr slot ((holds_iff addr slot).mp holds)
  · intro addr unheld
    exact maps.unheld addr fun slot holds => unheld slot ((holds_iff addr slot).mpr holds)

theorem leave_hasReturned (system : FutexSystem) (task : Nat) (status : Int) :
    (system.leave task status).HasReturned task status := by
  simp [FutexSystem.HasReturned, FutexSystem.leave, FutexSystem.setControl]

theorem FutexSystem.Maps.leave (maps : system.Maps entries map) {task : Nat}
    (awake : system.wq.smp.states task ≠ .blocked) (status : Int) :
    (system.leave task status).Maps entries map :=
  maps.congr (maps.tidy.leave awake status) (maps.coherent.leave awake status) rfl rfl

theorem FutexSystem.Maps.maybeFreeSlot (maps : system.Maps entries map) {slot : Nat}
    (bound : slot < futexMax) : (system.maybeFreeSlot slot).Maps entries map := by
  have tidy := maps.tidy.maybeFreeSlot bound
  have coherent := maps.coherent.maybeFreeSlot slot
  rcases maybeFreeSlot_cases system slot with ⟨empty, freed⟩ | ⟨_, kept⟩
  · rw [freed] at tidy coherent ⊢
    refine ⟨tidy, coherent, ?_, ?_⟩
    · intro addr other holds
      exact maps.held addr other (release_holds.mp holds).2
    · intro addr unheld
      by_cases here : system.Holds addr slot
      · rw [maps.held addr slot here, (maps.coherent.empty_iff bound).mp empty, List.map_nil]
      · refine maps.unheld addr fun other holds => ?_
        refine unheld other (release_holds.mpr ⟨?_, holds⟩)
        rintro rfl
        exact here holds
  · rwa [kept]

theorem FutexSystem.Maps.activate (maps : system.Maps entries map) {addr slot : Nat}
    (bound : slot < futexMax) (unheld : ∀ slot, ¬system.Holds addr slot)
    (inactive : (system.slots slot).active = false) :
    (system.activate addr slot).Maps entries map := by
  have empty : entries slot = [] := by
    refine List.eq_nil_iff_forall_not_mem.mpr fun index listed => ?_
    obtain ⟨other, holds, _⟩ := maps.holds_of_mem listed
    rw [holds.2] at inactive
    cases inactive
  refine ⟨maps.tidy.activate bound unheld inactive, maps.coherent.activate bound empty addr, ?_, ?_⟩
  · intro other query holds
    rcases (activate_holds bound).mp holds with ⟨rfl, rfl⟩ | ⟨_, before⟩
    · rw [empty, maps.unheld _ unheld, List.map_nil]
    · exact maps.held other query before
  · intro other free
    refine maps.unheld other fun query holds => ?_
    refine free query ((activate_holds bound).mpr (Or.inr ⟨?_, holds⟩))
    rintro rfl
    rw [holds.2] at inactive
    cases inactive

theorem findSlot_maps (maps : system.Maps entries map) (addr : Nat) (create : Bool) :
    (system.findSlot addr create).1.Maps entries map ∧
      (system.findSlot addr create).1.wq.smp = system.wq.smp ∧
      (∀ slot, (system.findSlot addr create).2 = some slot →
        (system.findSlot addr create).1.Holds addr slot) ∧
      (create = false → (system.findSlot addr create).2 = none → map addr = []) := by
  rcases findSlot_cases system addr create with
    ⟨held, holds, found⟩ | ⟨unheld, found | ⟨created, free, bound, inactive, _, found⟩⟩
  · rw [found]
    refine ⟨maps, rfl, fun slot same => ?_, (fun _ missing => by cases missing)⟩
    obtain rfl := Option.some.inj same
    exact holds
  · rw [found]
    exact ⟨maps, rfl, (fun slot same => by cases same), fun _ _ => maps.unheld addr unheld⟩
  · rw [found]
    refine ⟨maps.activate bound unheld inactive, rfl, fun slot same => ?_, fun none => ?_⟩
    · obtain rfl := Option.some.inj same
      exact (activate_holds bound).mpr (Or.inl ⟨rfl, rfl⟩)
    · rw [created] at none
      cases none

theorem waitEnter_maps (maps : system.Maps entries map) (addr : Nat) (expected : BitVec 32)
    (value : BitVec 32) :
    (system.waitEnter addr expected value value).1.Maps entries map ∧
      (system.waitEnter addr expected value value).1.wq.smp = system.wq.smp ∧
      ∀ slot, (system.waitEnter addr expected value value).2 = some slot →
        (system.waitEnter addr expected value value).1.Holds addr slot := by
  obtain ⟨found, smp, holds, _⟩ := findSlot_maps maps addr true
  unfold FutexSystem.waitEnter
  by_cases mismatch : value ≠ expected
  · rw [if_pos mismatch]
    exact ⟨maps, rfl, (fun slot same => by cases same)⟩
  · rw [if_neg mismatch]
    rcases located : system.findSlot addr true with ⟨entered, _ | slot⟩
    · rw [located] at found smp
      exact ⟨found, smp, (fun slot same => by cases same)⟩
    · rw [located] at found smp holds
      simp only [if_neg mismatch]
      refine ⟨found, smp, fun other same => ?_⟩
      obtain rfl := Option.some.inj same
      exact holds _ rfl

theorem findSlot_none_iff (system : FutexSystem) (addr : Nat) :
    (system.findSlot addr true).2 = none ↔ ¬system.FindsSlot addr := by
  unfold FutexSystem.findSlot
  split
  next slot held =>
    have found := List.find?_some held
    rw [Bool.and_eq_true, decide_eq_true_eq] at found
    have bound := List.mem_range.mp (List.mem_of_find?_eq_some held)
    exact iff_of_false (Option.some_ne_none slot) (not_not_intro ⟨slot, bound, fun _ => found.2⟩)
  next unheld =>
    split
    next slot free =>
      have bound := List.mem_range.mp (List.mem_of_find?_eq_some free)
      have inactive : (system.slots slot).active = false := by simpa using List.find?_some free
      refine iff_of_false (Option.some_ne_none slot)
        (not_not_intro ⟨slot, bound, fun active => ?_⟩)
      exact Bool.noConfusion (inactive.symm.trans active)
    next full =>
      refine iff_of_true rfl ?_
      rintro ⟨slot, bound, fits⟩
      have listed := List.mem_range.mpr bound
      have active : (system.slots slot).active = true := by
        simpa using List.find?_eq_none.mp full slot listed
      have other := List.find?_eq_none.mp unheld slot listed
      simp [active, fits active] at other

theorem findSlot_pool (system : FutexSystem) (addr : Nat) (create : Bool) :
    (system.findSlot addr create).1.wq.queues.pool = system.wq.queues.pool := by
  unfold FutexSystem.findSlot
  split
  · rfl
  · split
    · split <;> rfl
    · rfl

theorem waitEnter_none_iff (system : FutexSystem) (addr : Nat) (expected : BitVec 32) :
    (system.waitEnter addr expected (system.memory addr) (system.memory addr)).2 = none ↔
      ¬system.Enters addr expected := by
  have finds := findSlot_none_iff system addr
  unfold FutexSystem.waitEnter
  by_cases mismatch : system.memory addr ≠ expected
  · rw [if_pos mismatch]
    exact iff_of_true rfl fun enters => mismatch enters.1
  · rw [if_neg mismatch, FutexSystem.Enters, and_iff_right (not_not.mp mismatch), ← finds]
    rcases system.findSlot addr true with ⟨entered, _ | slot⟩
    · exact Iff.rfl
    · simp only [if_neg mismatch, reduceCtorEq]

theorem waitEnter_pool (system : FutexSystem) (addr : Nat) (expected value : BitVec 32) :
    (system.waitEnter addr expected value value).1.wq.queues.pool = system.wq.queues.pool := by
  have pool := findSlot_pool system addr true
  unfold FutexSystem.waitEnter
  by_cases mismatch : value ≠ expected
  · rw [if_pos mismatch]
  · rw [if_neg mismatch]
    rcases found : system.findSlot addr true with ⟨entered, _ | slot⟩
    · rwa [found] at pool
    · simp only [if_neg mismatch]
      rwa [found] at pool

theorem FutexSystem.Holds.addr_eq {addr other slot : Nat} (holds : system.Holds addr slot)
    (also : system.Holds other slot) : addr = other :=
  congrArg FutexSlot.addr (holds.2.symm.trans also.2)

/-- Only the list of one address changes, and the map with it. -/
theorem FutexSystem.Maps.update (maps : system.Maps entries map) {wq : WqSystem} {addr slot : Nat}
    (holds : system.Holds addr slot) {list : List Nat}
    (tidy : { system with wq := wq }.Tidy)
    (coherent : { system with wq := wq }.Coherent (Function.update entries slot list))
    (waiter : ∀ other, other ≠ slot → ∀ index ∈ entries other,
      wq.queues.waiter index = system.wq.queues.waiter index) :
    { system with wq := wq }.Maps (Function.update entries slot list)
      (Function.update map addr (list.map wq.queues.waiter)) := by
  refine ⟨tidy, coherent, ?_, ?_⟩
  · intro other query held
    by_cases here : query = slot
    · subst here
      obtain rfl := holds.addr_eq held
      simp
    · have apart : other ≠ addr := by
        rintro rfl
        exact here (maps.tidy.distinct other query slot held holds)
      rw [Function.update_of_ne here, Function.update_of_ne apart, maps.held other query held]
      exact List.map_congr_left fun index listed => (waiter query here index listed).symm
  · intro other unheld
    have apart : other ≠ addr := by
      rintro rfl
      exact unheld slot holds
    rw [Function.update_of_ne apart]
    exact maps.unheld other unheld

theorem FutexSystem.Maps.setControl (maps : system.Maps entries map) {task : Nat}
    (awake : system.wq.smp.states task ≠ .blocked) {control : FutexControl}
    (bounded : ∀ slot, control.slot = some slot → slot < futexMax) :
    (system.setControl task control).Maps entries map :=
  maps.congr (maps.tidy.setControl awake bounded) (maps.coherent.setControl awake bounded) rfl rfl

theorem running_congr (same : after.wq.smp = system.wq.smp) (cpu : Nat) :
    after.running cpu = system.running cpu := by
  rw [FutexSystem.running, same, FutexSystem.running]

theorem running_awake {cpu task : Nat} (runs : system.running cpu = some task) :
    system.wq.smp.states task ≠ .blocked := by
  simp [(running_some runs).2.2]

/-- A task joins the queue of its address. -/
theorem FutexSystem.Maps.enqueue (maps : system.Maps entries map) {task addr slot : Nat}
    (runs : system.running 0 = some task) (holds : system.Holds addr slot) (ticks : Option Word)
    (now : Word) :
    (¬system.wq.queues.HasRoom ∧ system.enqueue 0 task now addr slot ticks =
        some (system.setControl task (.leaving slot (if ticks.isSome then -1 else 0)))) ∨
    system.wq.queues.HasRoom ∧ ∃ after entries, system.enqueue 0 task now addr slot ticks = some after ∧
      after.controls task = .waiting addr slot ticks.isSome ∧
      after.Maps entries
        (Function.update map addr (map addr ++ [⟨task, waitDeadline now ticks⟩])) ∧
      after.wq.smp.states = Function.update system.wq.smp.states task .blocked := by
  obtain ⟨_, inside, running⟩ := running_some runs
  rcases maps.coherent.enqueue runs now addr holds.1 ticks with
    ⟨full, ends⟩ | ⟨room, wq, index, joins, blocked, joined, waiter⟩
  · refine Or.inl ⟨?_, ends⟩
    rintro ⟨index, inPool, unused⟩
    exact Bool.noConfusion (unused.symm.trans (full index inPool))
  · refine Or.inr ⟨room, ?_⟩
    have fresh : ∀ queue, index ∉ entries queue := by
      intro queue listed
      have acyclic := joined.threads.acyclic slot
      rw [Function.update_self] at acyclic
      have last : index ∉ entries slot :=
        fun also => (List.nodup_append.mp acyclic).2.2 index also index (by simp) rfl
      by_cases here : queue = slot
      · exact last (here ▸ listed)
      · have atQueue : index ∈ Function.update entries slot (entries slot ++ [index]) queue := by
          rwa [Function.update_of_ne here]
        exact here (joined.threads.apart atQueue (by simp))
    have old : ∀ queue, ∀ query ∈ entries queue,
        wq.queues.waiter query = system.wq.queues.waiter query := by
      intro queue query listed
      rw [waiter, Function.update_of_ne]
      rintro rfl
      exact fresh queue listed
    have list : (entries slot ++ [index]).map wq.queues.waiter =
        map addr ++ [⟨task, waitDeadline now ticks⟩] := by
      rw [List.map_append, List.map_congr_left (old slot), ← maps.held addr slot holds, waiter]
      simp
    have tidy : ({ system with wq := wq }.setControl task
        (.waiting addr slot ticks.isSome)).Tidy := by
      refine ⟨⟨_, joined⟩, ?_, maps.tidy.distinct⟩
      intro other query queue waits
      rcases (joined_waits inside running blocked).mp waits with ⟨rfl, rfl, rfl⟩ | ⟨_, before⟩
      · exact holds
      · exact maps.tidy.addressed other query queue before
    refine ⟨_, Function.update entries slot (entries slot ++ [index]), joins, ?_, ?_, ?_⟩
    · simp [FutexSystem.setControl]
    · have controlled : (system.setControl task (.waiting addr slot ticks.isSome)).Maps entries map :=
        maps.setControl (running_awake runs) fun other carried => by
          obtain rfl := Option.some.inj carried
          exact holds.1
      rw [← list]
      exact controlled.update holds tidy joined fun other _ => old other
    · have live : system.wq.smp.states task ≠ .dead := by simp [running]
      rw [← block_states inside live, ← blocked]
      rfl

theorem FutexSystem.Maps.futexWait (maps : system.Maps entries map) {task : Nat}
    (runs : system.running 0 = some task) (addr : Nat) (expected : BitVec 32)
    (ticks : Option Word) (now : Word) :
    ∃ after entries next, system.futexWait 0 task addr expected ticks now = some after ∧
      after.Maps entries next ∧
      if system.Enters addr expected ∧ system.wq.queues.HasRoom then
        after.wq.smp.states = Function.update system.wq.smp.states task .blocked ∧
          next = Function.update map addr (map addr ++ [⟨task, waitDeadline now ticks⟩]) ∧
          ∃ slot, after.controls task = .waiting addr slot ticks.isSome
      else after.wq.smp.states = system.wq.smp.states ∧ next = map ∧
        after.HasReturned task (system.refusal addr expected ticks) := by
  obtain ⟨entered, smp, holds⟩ :=
    waitEnter_maps maps addr expected (system.memory addr)
  have refused := waitEnter_none_iff system addr expected
  have pool := waitEnter_pool system addr expected (system.memory addr)
  unfold FutexSystem.futexWait
  rcases found : system.waitEnter addr expected (system.memory addr) (system.memory addr) with
    ⟨middle, _ | slot⟩
  · rw [found] at entered smp refused
    have stays : ¬system.Enters addr expected := refused.mp rfl
    have awake : middle.wq.smp.states task ≠ .blocked := smp ▸ running_awake runs
    refine ⟨_, entries, map, rfl, entered.leave awake (-1), ?_⟩
    rw [if_neg fun enters => stays enters.1, FutexSystem.refusal, if_neg fun enters => stays enters.1]
    exact ⟨congrArg Smp.states smp, rfl, leave_hasReturned middle task (-1)⟩
  · rw [found] at entered smp holds refused pool
    have enters : system.Enters addr expected := not_not.mp fun stays => by
      cases refused.mpr stays
    replace holds := holds slot rfl
    have room : middle.wq.queues.HasRoom ↔ system.wq.queues.HasRoom := by
      rw [WaitQueues.HasRoom, pool, WaitQueues.HasRoom]
    have middleRuns : middle.running 0 = some task := (running_congr smp 0).trans runs
    have awake := running_awake middleRuns
    have states : middle.wq.smp.states = system.wq.smp.states := congrArg Smp.states smp
    rcases entered.enqueue middleRuns holds ticks now with
      ⟨full, ends⟩ | ⟨hasRoom, after, joined, joins, waiting, joinedMaps, blocked⟩
    · have status : system.refusal addr expected ticks = if ticks.isSome then -1 else 0 := by
        rw [FutexSystem.refusal]
        cases ticks with
        | none => exact if_pos ⟨enters, rfl⟩
        | some ticks => exact if_neg fun untimed => Option.some_ne_none ticks untimed.2
      have left : (middle.setControl task
          (.leaving slot (if ticks.isSome then -1 else 0))).Maps entries map :=
        entered.setControl awake fun other carried => by
          obtain rfl := Option.some.inj carried
          exact holds.1
      have freed := left.maybeFreeSlot holds.1
      have smpKept := maybeFreeSlot_smp
        (middle.setControl task (.leaving slot (if ticks.isSome then -1 else 0))) slot
      refine ⟨_, entries, map, ?_,
        freed.leave (smpKept ▸ awake) (if ticks.isSome then -1 else 0), ?_⟩
      · simp [ends, FutexSystem.setControl]
      · rw [if_neg fun blocks => full (room.mpr blocks.2), status]
        exact ⟨(congrArg Smp.states smpKept).trans states, rfl, leave_hasReturned _ task _⟩
    · refine ⟨after, joined, _, ?_, joinedMaps, ?_⟩
      · simp [joins, waiting]
      · rw [if_pos ⟨enters, room.mp hasRoom⟩]
        exact ⟨states ▸ blocked, rfl, slot, waiting⟩

theorem readies_of_wakeTasks {smp : Smp} {woken : Int → Prop} (reason : Int)
    (asleep : ∀ task : Nat, woken task → task < maxTasks ∧ smp.states task = .blocked) :
    Readies smp (smp.wakeTasks woken reason) woken := by
  constructor
  · intro task wakes
    obtain ⟨bound, blocked⟩ := asleep task wakes
    exact ⟨blocked, congrArg Task.state (wakeTasks_wakes reason ⟨bound, blocked, wakes⟩)⟩
  · intro task sleeps
    exact congrArg Task.state (wakeTasks_other reason fun wakes => sleeps wakes.2.2)

theorem FutexSystem.Maps.asleep (maps : system.Maps entries map) {addr task : Nat} {waiter : Waiter}
    (member : waiter ∈ map addr) (named : (task : Int) = waiter.taskId) :
    task < maxTasks ∧ system.wq.smp.states task = .blocked := by
  obtain ⟨other, bound, known, blocked⟩ := maps.tabulates.blocked addr waiter member
  obtain rfl : task = other := Int.ofNat.inj (named.trans known)
  exact ⟨bound, blocked⟩

/-- The loop takes the oldest waiters off the queue of the address and wakes them. -/
theorem FutexSystem.Maps.wakeLoop (maps : system.Maps entries map) {addr slot : Nat}
    (holds : system.Holds addr slot) (count : Int) :
    ∃ wq entries, WqSystem.futexWakeLoop slot count (wqPoolSize + 1) system.wq 0 =
        some (wq, ((min count.toNat (map addr).length : Nat) : Int)) ∧
      { system with wq := wq }.Maps entries
        (Function.update map addr ((map addr).drop (min count.toNat (map addr).length))) ∧
      wq.smp = system.wq.smp.wakeTasks (fun taskId =>
        ∃ waiter ∈ (map addr).take (min count.toNat (map addr).length),
          taskId = waiter.taskId) 0 := by
  have listed := maps.held addr slot holds
  have short : (entries slot).length = (map addr).length := by rw [listed, List.length_map]
  obtain ⟨wq, looped, drained, woke, waiter⟩ := maps.coherent.wakeLoop holds.1 count
    (entries slot) (wqPoolSize + 1) system entries 0 rfl
    (Nat.lt_succ_of_le (maps.coherent.threads.length_le slot))
  simp only [Int.sub_zero, Int.zero_add, short] at looped drained woke
  have drop : ((entries slot).drop (min count.toNat (map addr).length)).map wq.queues.waiter =
      (map addr).drop (min count.toNat (map addr).length) := by
    rw [waiter, List.map_drop, ← listed]
  have take : ((entries slot).take (min count.toNat (map addr).length)).map
      system.wq.queues.waiter = (map addr).take (min count.toNat (map addr).length) := by
    rw [List.map_take, ← listed]
  have tidy : { system with wq := wq }.Tidy := by
    refine maps.tidy.of_waits ⟨_, drained⟩ rfl fun other query queue waits => ⟨?_, waits.2⟩
    have blocked : wq.smp.states other = .blocked := waits.1
    rw [woke] at blocked
    exact (wakeTasks_blocked.mp blocked).1
  have taken : { system with wq := wq }.Maps _ (Function.update map addr
      ((map addr).drop (min count.toNat (map addr).length))) :=
    drop ▸ maps.update holds tidy drained fun _ _ index _ => congrFun waiter index
  refine ⟨wq, _, looped, taken, woke.trans (wakeTasks_congr 0 fun taskId => ?_)⟩
  simp only [← take, List.mem_map, exists_exists_and_eq_and]

theorem FutexSystem.Maps.futexWake (maps : system.Maps entries map) {task : Nat}
    (awake : system.wq.smp.states task ≠ .blocked) (addr : Nat) (count : Int) :
    ∃ after entries, system.futexWake task addr count = some after ∧
      after.Maps entries
        (Function.update map addr ((map addr).drop (min count.toNat (map addr).length))) ∧
      after.HasReturned task (min count.toNat (map addr).length : Nat) ∧
      Readies system.wq.smp after.wq.smp fun taskId =>
        ∃ waiter ∈ (map addr).take (min count.toNat (map addr).length), taskId = waiter.taskId := by
  obtain ⟨foundMaps, smp, holds, unheld⟩ := findSlot_maps maps addr false
  unfold FutexSystem.futexWake
  rcases found : system.findSlot addr false with ⟨middle, _ | slot⟩
  · rw [found] at foundMaps smp unheld
    have none : map addr = [] := unheld rfl rfl
    refine ⟨_, entries, rfl, ?_, ?_, ?_⟩
    · rw [none, List.drop_nil, ← none, Function.update_eq_self]
      exact foundMaps.leave (smp ▸ awake) 0
    · simpa [none] using leave_hasReturned middle task 0
    · have same : (middle.leave task 0).wq.smp = system.wq.smp := smp
      rw [same]
      refine ⟨?_, fun _ _ => rfl⟩
      rintro other ⟨waiter, member, _⟩
      simp [none] at member
  · rw [found] at foundMaps smp holds
    replace holds := holds slot rfl
    obtain ⟨wq, left, looped, taken, woke⟩ := foundMaps.wakeLoop holds count
    have freed := taken.maybeFreeSlot holds.1
    have smpKept := maybeFreeSlot_smp { middle with wq := wq } slot
    have awakeAfter : ({ middle with wq := wq }.maybeFreeSlot slot).wq.smp.states task ≠ .blocked := by
      rw [smpKept]
      intro blocked
      change wq.smp.states task = .blocked at blocked
      rw [woke] at blocked
      exact awake (smp ▸ (wakeTasks_blocked.mp blocked).1)
    refine ⟨_, _, ?_, freed.leave awakeAfter (min count.toNat (map addr).length : Nat), ?_, ?_⟩
    · simp only [looped, Option.map_some]
    · exact leave_hasReturned _ task _
    · have result : (({ middle with wq := wq }.maybeFreeSlot slot).leave task
          (min count.toNat (map addr).length : Nat)).wq.smp = wq.smp := smpKept
      rw [result, woke, smp]
      apply readies_of_wakeTasks
      rintro other ⟨waiter, member, named⟩
      exact maps.asleep (List.mem_of_mem_take member) named

theorem FutexSystem.Maps.tick (maps : system.Maps entries map) (now : Word) :
    ∃ wq entries, system.wq.tick now = some wq ∧
      { system with wq := wq }.Maps entries
        (fun addr => (map addr).filter fun waiter => ¬waiter.Expired now) ∧
      Readies system.wq.smp wq.smp fun taskId =>
        ∃ addr, ∃ waiter ∈ map addr, waiter.Expired now ∧ taskId = waiter.taskId := by
  obtain ⟨wq, ticked, smp, left⟩ := maps.coherent.tick now
  obtain ⟨other, also, _, _, waiter⟩ := tick_spec maps.coherent.threads now
  obtain rfl := Option.some.inj (ticked.symm.trans also)
  have tidy : { system with wq := wq }.Tidy :=
    maps.tidy.of_waits ⟨_, left⟩ rfl fun task query queue waits => by
      refine ⟨?_, waits.2⟩
      have blocked : wq.smp.states task = .blocked := waits.1
      rw [smp] at blocked
      exact (wakeTasks_blocked.mp blocked).1
  refine ⟨wq, _, ticked, ⟨tidy, left, ?_, ?_⟩, ?_⟩
  · intro addr slot holds
    rw [maps.held addr slot holds, waiter, List.filter_map]
    rfl
  · intro addr unheld
    rw [maps.unheld addr unheld, List.filter_nil]
  · have woken : (fun taskId : Int => ∃ queue, ∃ index ∈ entries queue,
        (system.wq.queues.waiter index).Expired now ∧
          taskId = (system.wq.queues.waiter index).taskId) = fun taskId =>
        ∃ addr, ∃ waiter ∈ map addr, waiter.Expired now ∧ taskId = waiter.taskId := by
      funext taskId
      refine propext ⟨?_, ?_⟩
      · rintro ⟨queue, index, listed, expired, named⟩
        obtain ⟨addr, _, member⟩ := maps.holds_of_mem listed
        exact ⟨addr, _, member, expired, named⟩
      · rintro ⟨addr, waiter, member, expired, named⟩
        obtain ⟨slot, _, index, listed, rfl⟩ := maps.entry_of_mem member
        exact ⟨slot, index, listed, expired, named⟩
    rw [smp, woken]
    apply readies_of_wakeTasks
    rintro task ⟨addr, waiter, member, _, named⟩
    exact maps.asleep member named

theorem keepWaiting_waits (system : FutexSystem) (smp : Smp) (task addr slot : Nat) :
    { system with wq := { system.wq with smp := system.keepWaiting smp } }.Waits task addr slot ↔
      system.Waits task addr slot := by
  refine and_congr_left ?_
  rintro ⟨timed, waiting⟩
  replace waiting : system.controls task = .waiting addr slot timed := waiting
  simp [Smp.states, FutexSystem.keepWaiting, waiting, FutexControl.waits]

theorem caller_some {task : Nat} (calls : system.caller = some task) :
    system.running 0 = some task :=
  (Option.filter_eq_some_iff.mp calls).1

theorem FutexSystem.Maps.sequentialStep (maps : system.Maps entries map) {event : FutexEvent}
    (stepped : system.sequentialStep event = some after) :
    ∃ entries next, after.Maps entries next ∧ system.MapStep after map next event := by
  cases event with
  | schedule =>
      obtain rfl := Option.some.inj stepped
      have same := schedule_blocked system.wq.smp 0
      exact ⟨entries, map, maps.congr (maps.tidy.of_smp same) (maps.coherent.of_blocked same) rfl rfl,
        rfl⟩
  | store addr value =>
      obtain rfl := Option.some.inj stepped
      exact ⟨entries, map, maps.congr (maps.tidy.store addr value) (maps.coherent.store addr value)
        rfl rfl, rfl⟩
  | tick now =>
      obtain ⟨wq, left, ticked, leftMaps, readies⟩ := maps.tick now
      simp only [FutexSystem.sequentialStep, ticked, Option.map_some, Option.some.injEq] at stepped
      subst stepped
      exact ⟨left, _, leftMaps, rfl, readies⟩
  | elsewhere smp =>
      obtain rfl := Option.some.inj stepped
      have coherent := maps.coherent.of_waits (keepWaiting_waits system smp)
      refine ⟨entries, map, maps.congr (maps.tidy.of_waits ⟨_, coherent⟩ rfl ?_) coherent rfl rfl, rfl⟩
      exact fun task addr slot => (keepWaiting_waits system smp task addr slot).mp
  | wait addr expected ticks now =>
      obtain ⟨task, calls, waited⟩ := Option.bind_eq_some_iff.mp stepped
      obtain ⟨result, joined, next, same, resultMaps, outcome⟩ :=
        maps.futexWait (caller_some calls) addr expected ticks now
      obtain rfl := Option.some.inj (same.symm.trans waited)
      exact ⟨joined, next, resultMaps, task, calls, outcome⟩
  | wake addr count =>
      obtain ⟨task, calls, woken⟩ := Option.bind_eq_some_iff.mp stepped
      obtain ⟨result, left, same, resultMaps, returned, readies⟩ :=
        maps.futexWake (running_awake (caller_some calls)) addr count
      obtain rfl := Option.some.inj (same.symm.trans woken)
      exact ⟨left, _, resultMaps, task, calls, returned, rfl, readies⟩
  | resume =>
      obtain ⟨task, runs, resumed⟩ := Option.bind_eq_some_iff.mp stepped
      unfold FutexSystem.futexResume at resumed
      split at resumed
      next addr slot timed waiting =>
        obtain rfl := Option.some.inj resumed
        have bound := maps.coherent.inside task slot (by rw [waiting]; rfl)
        have awake := running_awake runs
        rw [← maybeFreeSlot_smp system slot] at awake
        refine ⟨entries, map, (maps.maybeFreeSlot bound).leave awake _, rfl, task, addr, slot, timed,
          runs, waiting, leave_hasReturned _ task _, maybeFreeSlot_smp system slot⟩
      next => cases resumed

theorem FutexSystem.Maps.run (maps : system.Maps entries map) {events : List FutexEvent}
    {final : FutexSystem}
    (run : Transition.exec FutexSystem.sequentialStep system events = some final) :
    ∃ entries map, final.Maps entries map := by
  have keeps : ∀ (before : FutexSystem) event after, (∃ entries map, before.Maps entries map) →
      before.sequentialStep event = some after → ∃ entries map, after.Maps entries map := by
    rintro before event after ⟨entries, map, maps⟩ stepped
    obtain ⟨left, next, nextMaps, _⟩ := maps.sequentialStep stepped
    exact ⟨left, next, nextMaps⟩
  exact Transition.exec_invariant keeps ⟨entries, map, maps⟩ run

theorem FutexSystem.Maps.answers (maps : system.Maps entries map) : system.Answers where
  wait task calls addr expected ticks now := by
    obtain ⟨after, _, _, waited, _⟩ := maps.futexWait (caller_some calls) addr expected ticks now
    simp [FutexSystem.sequentialStep, calls, waited]
  wake task calls addr count := by
    obtain ⟨after, _, woken, _⟩ := maps.futexWake (running_awake (caller_some calls)) addr count
    simp [FutexSystem.sequentialStep, calls, woken]
  resume task runs waits := by
    cases control : system.controls task with
    | waiting addr slot timed =>
        simp [FutexSystem.sequentialStep, runs, FutexSystem.futexResume, control]
    | _ =>
        rw [control] at waits
        cases waits
  tick now := by
    obtain ⟨wq, _, ticked, _⟩ := maps.tick now
    simp [FutexSystem.sequentialStep, ticked]

theorem findSlot_memory (system : FutexSystem) (addr : Nat) (create : Bool) :
    (system.findSlot addr create).1.memory = system.memory := by
  unfold FutexSystem.findSlot
  split
  · rfl
  · split
    · split <;> rfl
    · rfl

theorem maybeFreeSlot_memory (system : FutexSystem) (slot : Nat) :
    (system.maybeFreeSlot slot).memory = system.memory := by
  unfold FutexSystem.maybeFreeSlot
  split <;> rfl

theorem futexWait_memory {cpu task addr : Nat} {expected : BitVec 32} {ticks : Option Word}
    {now : Word} (waited : system.futexWait cpu task addr expected ticks now = some after) :
    after.memory = system.memory := by
  have entered : (system.waitEnter addr expected (system.memory addr) (system.memory addr)).1.memory =
      system.memory := by
    have found := findSlot_memory system addr true
    unfold FutexSystem.waitEnter
    split
    · rfl
    · split
      next located =>
        rwa [located] at found
      next located =>
        rw [located] at found
        exact found
  unfold FutexSystem.futexWait at waited
  split at waited
  next middle located =>
    rw [located] at entered
    obtain rfl := Option.some.inj waited
    exact entered
  next middle slot located =>
    rw [located] at entered
    obtain ⟨joined, enqueued, ends⟩ := Option.map_eq_some_iff.mp waited
    obtain ⟨wq, _, rfl⟩ := Option.map_eq_some_iff.mp enqueued
    refine Eq.trans ?_ entered
    split at ends
    · rw [← ends]
      exact maybeFreeSlot_memory _ _
    · rw [← ends]
      rfl

theorem futexWake_memory {task addr : Nat} {count : Int}
    (woken : system.futexWake task addr count = some after) : after.memory = system.memory := by
  have found := findSlot_memory system addr false
  unfold FutexSystem.futexWake at woken
  split at woken
  next located =>
    rw [located] at found
    obtain rfl := Option.some.inj woken
    exact found
  next located =>
    rw [located] at found
    obtain ⟨result, _, rfl⟩ := Option.map_eq_some_iff.mp woken
    exact (maybeFreeSlot_memory _ _).trans found

theorem sequentialStep_memory {event : FutexEvent} (stepped : system.sequentialStep event = some after) :
    after.memory = event.memory system.memory := by
  cases event with
  | schedule => exact Option.some.inj stepped ▸ rfl
  | store addr value => exact Option.some.inj stepped ▸ rfl
  | elsewhere smp => exact Option.some.inj stepped ▸ rfl
  | tick now =>
      obtain ⟨wq, _, rfl⟩ := Option.map_eq_some_iff.mp stepped
      rfl
  | wait addr expected ticks now =>
      obtain ⟨task, _, waited⟩ := Option.bind_eq_some_iff.mp stepped
      exact futexWait_memory waited
  | wake addr count =>
      obtain ⟨task, _, woken⟩ := Option.bind_eq_some_iff.mp stepped
      exact futexWake_memory woken
  | resume =>
      obtain ⟨task, _, resumed⟩ := Option.bind_eq_some_iff.mp stepped
      unfold FutexSystem.futexResume at resumed
      split at resumed
      next =>
        obtain rfl := Option.some.inj resumed
        exact maybeFreeSlot_memory _ _
      next => cases resumed

/-- In every state of a sequential run the table is a map from addresses to queues of blocked
tasks. The calls have a result, and every event changes the map and the memory as it should. -/
theorem futex_sequential (start : FutexSystem) (events : List FutexEvent) (system : FutexSystem)
    (run : Transition.exec FutexSystem.sequentialStep start.boot events = some system) :
    ∃ map, system.Tabulates map ∧ system.Answers ∧
      ∀ event after, system.sequentialStep event = some after →
        ∃ next, after.Tabulates next ∧ system.MapStep after map next event ∧
          after.memory = event.memory system.memory := by
  obtain ⟨entries, map, maps⟩ := (boot_maps start).run run
  refine ⟨map, maps.tabulates, maps.answers, fun event after stepped => ?_⟩
  obtain ⟨left, next, nextMaps, moves⟩ := maps.sequentialStep stepped
  exact ⟨next, nextMaps.tabulates, moves, sequentialStep_memory stepped⟩

/-- Task 0 runs on the only CPU and task 1 is ready. -/
def firstRuns : FutexSystem :=
  { twoRunning with
    wq := { twoRunning.wq with
      smp := {
        tasks := fun task =>
          { Task.zero with state := if task = 0 then .running else if task = 1 then .ready else .dead }
        percpu := fun _ => Percpu.running 0 } } }

/-- Task 0 waits and task 1 wakes it up: the wake returns 1 and task 0 is ready again. -/
theorem futex_sequential_firstRuns :
    ∃ system after, Transition.exec FutexSystem.sequentialStep firstRuns.boot
        [.wait 100 0 none 0, .schedule] = some system ∧
      system.wq.smp.states 0 = .blocked ∧ system.sequentialStep (.wake 100 5) = some after ∧
      after.HasReturned 1 1 ∧ after.wq.smp.states 0 = .ready ∧
      ∃ map next, system.Tabulates map ∧ after.Tabulates next ∧
        system.MapStep after map next (.wake 100 5) := by
  have waits : (Transition.exec FutexSystem.sequentialStep firstRuns.boot
      [.wait 100 0 none 0, .schedule]).any (fun system =>
        decide (system.wq.smp.states 0 = .blocked) &&
          (system.sequentialStep (.wake 100 5)).any fun after =>
            decide ((after.controls 1 = .outside ∧ after.returned 1 = 1) ∧
              after.wq.smp.states 0 = .ready)) = true := by
    decide +kernel
  obtain ⟨system, run, outcome⟩ := (Option.any_eq_true _ _).mp waits
  obtain ⟨blocked, wakes⟩ := Bool.and_eq_true_iff.mp outcome
  obtain ⟨after, woken, result⟩ := (Option.any_eq_true _ _).mp wakes
  obtain ⟨returned, ready⟩ := of_decide_eq_true result
  obtain ⟨map, tabulates, _, steps⟩ := futex_sequential firstRuns _ system run
  obtain ⟨next, alsoTabulates, moves, _⟩ := steps _ after woken
  exact ⟨system, after, run, of_decide_eq_true blocked, woken, returned, ready, map, next,
    tabulates, alsoTabulates, moves⟩

end DragoonKernel
