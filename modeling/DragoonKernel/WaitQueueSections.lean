import Mathlib.Algebra.BigOperators.Group.Finset.Basic
import DragoonKernel.WaitQueueSpec

/-! What the critical sections of `kernel/waitqueue.c` do to the lists and to the tasks. -/

namespace DragoonKernel

structure Waiter where
  taskId : Int
  deadline : Word
  deriving DecidableEq

def Waiter.Expired (now : Word) (waiter : Waiter) : Prop :=
  waiter.deadline ≠ 0 ∧ waiter.deadline ≤ now

instance (now : Word) (waiter : Waiter) : Decidable (waiter.Expired now) :=
  inferInstanceAs (Decidable (_ ∧ _))

def WaitQueues.waiter (queues : WaitQueues) (index : Nat) : Waiter :=
  ⟨(queues.pool index).taskId, (queues.pool index).timeoutTick⟩

/-- `if (t)` before a task is blocked. -/
def Smp.block (smp : Smp) (taskId : Int) : Smp :=
  match taskGet smp.states taskId with
  | some task => smp.setWakeup task 0 .blocked
  | none => smp

def Smp.Wakes (smp : Smp) (woken : Int → Prop) (task : Nat) : Prop :=
  task < maxTasks ∧ smp.states task = .blocked ∧ woken task

open Classical in
/-- Every blocked task among `woken` becomes ready for `reason`, and no other task changes. -/
noncomputable def Smp.wakeTasks (smp : Smp) (woken : Int → Prop) (reason : Int) : Smp :=
  { smp with tasks := fun task =>
      if smp.Wakes woken task then
        { smp.tasks task with wakeupReason := reason, state := .ready }
      else smp.tasks task }

theorem Smp.ext_tasks {first second : Smp} (tasks : ∀ task, first.tasks task = second.tasks task)
    (percpu : first.percpu = second.percpu) : first = second := by
  obtain ⟨firstTasks, _⟩ := first
  obtain ⟨secondTasks, _⟩ := second
  obtain rfl : firstTasks = secondTasks := funext tasks
  obtain rfl := percpu
  rfl

variable {smp : Smp} {woken : Int → Prop}

theorem wakeTasks_wakes (reason : Int) {task : Nat} (wakes : smp.Wakes woken task) :
    (smp.wakeTasks woken reason).tasks task =
      { smp.tasks task with wakeupReason := reason, state := .ready } := if_pos wakes

theorem wakeTasks_other (reason : Int) {task : Nat} (sleeps : ¬smp.Wakes woken task) :
    (smp.wakeTasks woken reason).tasks task = smp.tasks task := if_neg sleeps

theorem wakeTasks_congr {other : Int → Prop} (reason : Int)
    (same : ∀ taskId, woken taskId ↔ other taskId) :
    smp.wakeTasks woken reason = smp.wakeTasks other reason := by
  rw [show woken = other from funext fun taskId => propext (same taskId)]

theorem wakeTasks_none (reason : Int) (none : ∀ task, ¬smp.Wakes woken task) :
    smp.wakeTasks woken reason = smp :=
  Smp.ext_tasks (fun task => wakeTasks_other reason (none task)) rfl

theorem setWakeup_tasks (smp : Smp) (task other : Nat) (reason : Int) (state : TaskState) :
    (smp.setWakeup task reason state).tasks other =
      if other = task then { smp.tasks task with wakeupReason := reason, state := state }
      else smp.tasks other := by
  by_cases here : other = task
  · subst here
    simp [Smp.setWakeup]
  · simp [Smp.setWakeup, here]

theorem wake_eq (smp : Smp) (taskId reason : Int) :
    smp.wake taskId reason = smp.wakeTasks (· = taskId) reason := by
  unfold Smp.wake
  cases found : taskGet smp.states taskId with
  | none =>
      refine (wakeTasks_none reason fun task ⟨bound, blocked, same⟩ => ?_).symm
      have live : smp.states task ≠ .dead := by simp [blocked]
      rw [taskGet_some.mpr ⟨same.symm, bound, live⟩] at found
      cases found
  | some task =>
      obtain ⟨rfl, bound, _⟩ := taskGet_some.mp found
      simp only
      split
      next blocked =>
        refine Smp.ext_tasks (fun other => ?_) rfl
        rw [setWakeup_tasks]
        by_cases here : other = task
        · subst here
          have wakes : smp.Wakes (· = (other : Int)) other := ⟨bound, blocked, rfl⟩
          rw [if_pos rfl, wakeTasks_wakes reason wakes]
        · rw [if_neg here]
          refine (wakeTasks_other reason ?_).symm
          rintro ⟨_, _, same⟩
          exact here (Int.ofNat.inj same)
      next awake =>
        refine (wakeTasks_none reason fun other ⟨_, blocked, same⟩ => ?_).symm
        obtain rfl : other = task := Int.ofNat.inj same
        exact awake blocked

theorem wakeTasks_blocked {reason : Int} {task : Nat} :
    (smp.wakeTasks woken reason).states task = .blocked ↔
      smp.states task = .blocked ∧ ¬smp.Wakes woken task := by
  by_cases wakes : smp.Wakes woken task
  · rw [Smp.states, wakeTasks_wakes reason wakes]
    simp [wakes]
  · rw [Smp.states, wakeTasks_other reason wakes]
    simp [wakes, Smp.states]

theorem wakeTasks_wakeTasks (smp : Smp) (first second : Int → Prop) (reason : Int) :
    (smp.wakeTasks first reason).wakeTasks second reason =
      smp.wakeTasks (fun taskId => first taskId ∨ second taskId) reason := by
  refine Smp.ext_tasks (fun task => ?_) rfl
  by_cases early : smp.Wakes first task
  · have later : ¬(smp.wakeTasks first reason).Wakes second task := fun wakes =>
      (wakeTasks_blocked.mp wakes.2.1).2 early
    rw [wakeTasks_other reason later, wakeTasks_wakes reason early,
      wakeTasks_wakes reason ⟨early.1, early.2.1, Or.inl early.2.2⟩]
  · have before := wakeTasks_other reason early
    by_cases wakes : smp.Wakes second task
    · rw [wakeTasks_wakes reason ⟨wakes.1, wakeTasks_blocked.mpr ⟨wakes.2.1, early⟩, wakes.2.2⟩,
        before, wakeTasks_wakes reason ⟨wakes.1, wakes.2.1, Or.inr wakes.2.2⟩]
    · have neither : ¬smp.Wakes (fun taskId => first taskId ∨ second taskId) task := by
        rintro ⟨bound, blocked, one | other⟩
        · exact early ⟨bound, blocked, one⟩
        · exact wakes ⟨bound, blocked, other⟩
      rw [wakeTasks_other reason fun again =>
          wakes ⟨again.1, (wakeTasks_blocked.mp again.2.1).1, again.2.2⟩,
        before, wakeTasks_other reason neither]

variable {queues : WaitQueues} {ready : Finset Nat} {entries : Nat → List Nat}

theorem WaitQueues.Threads.used_eq (threads : queues.Threads ready entries) :
    ((Finset.range wqPoolSize).filter fun index => (queues.pool index).inUse = true).card =
      ∑ queue ∈ ready, (entries queue).length := by
  have divided : (Finset.range wqPoolSize).filter (fun index => (queues.pool index).inUse = true) =
      ready.biUnion fun queue => (entries queue).toFinset := by
    ext index
    simp only [Finset.mem_filter, Finset.mem_range, Finset.mem_biUnion, List.mem_toFinset]
    constructor
    · rintro ⟨bound, used⟩
      exact (threads.inUse index bound).mp used
    · rintro ⟨queue, isReady, listed⟩
      have bound := threads.inside queue index listed
      exact ⟨bound, (threads.inUse index bound).mpr ⟨queue, isReady, listed⟩⟩
  rw [divided, Finset.card_biUnion]
  · exact Finset.sum_congr rfl fun queue _ => List.toFinset_card_of_nodup (threads.acyclic queue)
  · intro first _ second _ different
    rw [Function.onFun, Finset.disjoint_left]
    intro index listed also
    rw [List.mem_toFinset] at listed also
    exact different (threads.apart listed also)

theorem WaitQueues.Threads.full_iff (threads : queues.Threads ready entries) :
    (∀ index < wqPoolSize, (queues.pool index).inUse = true) ↔
      wqPoolSize ≤ ∑ queue ∈ ready, (entries queue).length := by
  rw [← threads.used_eq]
  constructor
  · intro full
    rw [Finset.filter_true_of_mem fun index listed => full index (Finset.mem_range.mp listed),
      Finset.card_range]
  · intro many index bound
    have all : (Finset.range wqPoolSize).filter (fun index => (queues.pool index).inUse = true) =
        Finset.range wqPoolSize :=
      Finset.eq_of_subset_of_card_le (Finset.filter_subset _ _) (by rwa [Finset.card_range])
    have member := Finset.mem_range.mpr bound
    rw [← all] at member
    exact (Finset.mem_filter.mp member).2

theorem poolAlloc_cases (queues : WaitQueues) :
    ((∀ index < wqPoolSize, (queues.pool index).inUse = true) ∧
      poolAlloc queues = (queues, none)) ∨
    ∃ index < wqPoolSize, (queues.pool index).inUse = false ∧
      poolAlloc queues =
        (queues.modify index fun entry => { entry with inUse := true, next := -1 }, some index) := by
  unfold poolAlloc
  cases found : (List.range wqPoolSize).find? fun index => !(queues.pool index).inUse with
  | none =>
      refine Or.inl ⟨fun index bound => ?_, rfl⟩
      have used := List.find?_eq_none.mp found index (List.mem_range.mpr bound)
      simpa using used
  | some index =>
      have bound := List.mem_range.mp (List.mem_of_find?_eq_some found)
      have unused := List.find?_some found
      exact Or.inr ⟨index, bound, by simpa using unused, rfl⟩

theorem relinks_waiter {before after : WaitQueues} (relinks : before.Relinks after) (index : Nat) :
    after.waiter index = before.waiter index := by
  rw [WaitQueues.waiter, relinks index]
  rfl

theorem claims_of_alloc {index : Nat} (bound : index < wqPoolSize)
    (unused : (queues.pool index).inUse = false) (queue : Nat) (taskId : Int) (deadline : Word) :
    queues.Claims
      ((queues.modify index fun entry => { entry with inUse := true, next := -1 }).modify index
        fun entry =>
          { entry with taskId := taskId, timeoutTick := deadline, owner := some queue })
      queue index := by
  refine ⟨unused, bound, by simp [WaitQueues.modify], by simp [WaitQueues.modify], ?_, rfl⟩
  intro other different
  simp [WaitQueues.modify, different]

theorem wait_alloc {system : WqSystem} (threads : system.queues.Threads ready entries)
    {cpu queue index : Nat} (isReady : queue ∈ ready) (deadline : Word)
    (runs : ¬system.smp.current cpu < 0) (bound : index < wqPoolSize)
    (unused : (system.queues.pool index).inUse = false)
    (allocated : poolAlloc system.queues = (system.queues.modify index fun entry =>
      { entry with inUse := true, next := -1 }, some index)) :
    ∃ after, system.wait cpu queue deadline =
        some { smp := system.smp.block (system.smp.current cpu), queues := after } ∧
      after.Threads ready (Function.update entries queue (entries queue ++ [index])) ∧
      after.waiter = Function.update system.queues.waiter index
        ⟨system.smp.current cpu, deadline⟩ := by
  have claims := claims_of_alloc bound unused queue (system.smp.current cpu) deadline
  obtain ⟨after, appended, relinks, threads⟩ := queueAppend_spec threads claims isReady
  refine ⟨after, ?_, threads, ?_⟩
  · simp only [WqSystem.wait, if_neg runs, allocated, Option.bind_eq_bind, appended,
      Option.bind_some]
    rfl
  · funext other
    rw [relinks_waiter relinks]
    by_cases here : other = index
    · subst here
      simp [WaitQueues.waiter, WaitQueues.modify]
    · rw [Function.update_of_ne here, WaitQueues.waiter, claims.others other here]
      rfl

/-- A wait by the current task of a CPU: nothing happens when no entry is left. -/
theorem wait_spec {system : WqSystem} (threads : system.queues.Threads ready entries)
    {cpu queue : Nat} (isReady : queue ∈ ready) (deadline : Word)
    (runs : ¬system.smp.current cpu < 0) :
    ((∀ index < wqPoolSize, (system.queues.pool index).inUse = true) ∧
      system.wait cpu queue deadline = some system) ∨
    ∃ index after, (system.queues.pool index).inUse = false ∧
      system.wait cpu queue deadline =
        some { smp := system.smp.block (system.smp.current cpu), queues := after } ∧
      after.Threads ready (Function.update entries queue (entries queue ++ [index])) ∧
      after.waiter = Function.update system.queues.waiter index
        ⟨system.smp.current cpu, deadline⟩ := by
  rcases poolAlloc_cases system.queues with ⟨full, exhausted⟩ | ⟨index, bound, unused, allocated⟩
  · refine Or.inl ⟨full, ?_⟩
    simp only [WqSystem.wait, if_neg runs, exhausted]
  · obtain ⟨after, waited⟩ := wait_alloc threads isReady deadline runs bound unused allocated
    exact Or.inr ⟨index, after, unused, waited⟩

theorem poolFree_waiter (queues : WaitQueues) (index : Nat) :
    (poolFree queues index).waiter = queues.waiter := by
  funext other
  rw [WaitQueues.waiter, poolFree_pool]
  split <;> rfl

structure WqSystem.Removes (before after : WqSystem) (ready : Finset Nat)
    (entries : Nat → List Nat) (index : Nat) (reason : Int) : Prop where
  smp : after.smp = before.smp.wake (before.queues.waiter index).taskId reason
  threads : after.queues.Threads ready (withoutEntry entries index)
  waiter : after.queues.waiter = before.queues.waiter

theorem wakeHead_spec {system : WqSystem} (threads : system.queues.Threads ready entries)
    {queue index : Nat} {rest : List Nat} (listed : entries queue = index :: rest) :
    system.Removes (system.wakeHead queue index) ready entries index 0 := by
  have first : index ∈ entries queue := by simp [listed]
  have isReady := threads.ready_of_mem first
  have head := (threads.head listed).1
  obtain ⟨after, removed, relinks, linked⟩ := queueRemove_spec threads first
  have nonempty : ¬(system.queues.heads queue < 0) := by
    rw [head]
    omega
  -- popping the head is the first case of `queue_remove`
  rw [queueRemove, if_neg nonempty, if_pos head, Option.some.injEq] at removed
  subst removed
  refine ⟨rfl, threads.free relinks linked, ?_⟩
  exact (poolFree_waiter _ index).trans (funext (relinks_waiter relinks))

theorem wakeOne_spec {system : WqSystem} (threads : system.queues.Threads ready entries)
    {queue : Nat} (isReady : queue ∈ ready) :
    (entries queue = [] ∧ system.wakeOne queue = some system) ∨
    ∃ index rest after, entries queue = index :: rest ∧ system.wakeOne queue = some after ∧
      system.Removes after ready entries index 0 := by
  cases listed : entries queue with
  | nil => exact Or.inl ⟨rfl, if_pos ((threads.empty_iff isReady).mpr listed)⟩
  | cons index rest =>
      obtain ⟨head, bound⟩ := threads.head listed
      have nonempty : ¬((index : Int) < 0) := by omega
      refine Or.inr ⟨index, rest, system.wakeHead queue index, rfl, ?_, wakeHead_spec threads listed⟩
      rw [WqSystem.wakeOne, head, if_neg nonempty, poolIndex_natCast bound]
      rfl

theorem WaitQueues.Threads.without_elsewhere (threads : queues.Threads ready entries)
    {queue other index : Nat} (listed : index ∈ entries queue) (different : other ≠ queue) :
    withoutEntry entries index other = entries other :=
  withoutEntry_apart fun also => different (threads.apart also listed)

theorem WaitQueues.Threads.without_head (threads : queues.Threads ready entries)
    {queue index : Nat} {rest : List Nat} (listed : entries queue = index :: rest) :
    withoutEntry entries index = Function.update entries queue rest := by
  funext other
  by_cases here : other = queue
  · subst here
    have split : entries other = [] ++ index :: rest := listed
    rw [Function.update_self, withoutEntry_split split (threads.acyclic other), List.nil_append]
  · rw [Function.update_of_ne here]
    exact threads.without_elsewhere (by simp [listed]) here

theorem wakeAllLoop_spec {queue : Nat} (isReady : queue ∈ ready) (list : List Nat) :
    ∀ (fuel : Nat) (system : WqSystem) (entries : Nat → List Nat),
      system.queues.Threads ready entries → entries queue = list → list.length < fuel →
      ∃ after, WqSystem.wakeAllLoop queue fuel system = some after ∧
        after.queues.Threads ready (Function.update entries queue []) ∧
        after.smp = system.smp.wakeTasks
          (fun taskId => ∃ index ∈ list, taskId = (system.queues.waiter index).taskId) 0 ∧
        after.queues.waiter = system.queues.waiter := by
  induction list with
  | nil =>
      intro fuel system entries threads listed enough
      obtain ⟨fuel, rfl⟩ := Nat.exists_eq_succ_of_ne_zero (Nat.ne_of_gt enough)
      have empty := (threads.empty_iff isReady).mpr listed
      refine ⟨system, if_pos empty, ?_, (wakeTasks_none 0 ?_).symm, rfl⟩
      · rwa [← listed, Function.update_eq_self]
      · rintro task ⟨_, _, index, member, _⟩
        exact List.not_mem_nil member
  | cons index rest ih =>
      intro fuel system entries threads listed enough
      obtain ⟨fuel, rfl⟩ := Nat.exists_eq_succ_of_ne_zero (Nat.ne_of_gt (Nat.zero_lt_of_lt enough))
      obtain ⟨head, bound⟩ := threads.head listed
      have nonempty : ¬((index : Int) < 0) := by omega
      have removes := wakeHead_spec threads listed
      have without := threads.without_head listed
      obtain ⟨after, woken, left, smp, waiter⟩ := ih fuel (system.wakeHead queue index)
        (withoutEntry entries index) removes.threads (by simp [without]) (by simpa using enough)
      refine ⟨after, ?_, ?_, ?_, waiter.trans removes.waiter⟩
      · rw [WqSystem.wakeAllLoop, head, if_neg nonempty, poolIndex_natCast bound, Option.bind_some]
        exact woken
      · rwa [without, Function.update_idem] at left
      · rw [smp, removes.smp, removes.waiter, wake_eq, wakeTasks_wakeTasks]
        refine wakeTasks_congr 0 fun taskId => ?_
        simp only [List.mem_cons, exists_eq_or_imp]

theorem wakeAll_spec {system : WqSystem} (threads : system.queues.Threads ready entries)
    {queue : Nat} (isReady : queue ∈ ready) :
    ∃ after, system.wakeAll queue = some after ∧
      after.queues.Threads ready (Function.update entries queue []) ∧
      after.smp = system.smp.wakeTasks
        (fun taskId => ∃ index ∈ entries queue, taskId = (system.queues.waiter index).taskId) 0 ∧
      after.queues.waiter = system.queues.waiter :=
  wakeAllLoop_spec isReady (entries queue) _ system entries threads rfl
    (Nat.lt_succ_of_le (threads.length_le queue))

theorem expire_spec {system : WqSystem} (threads : system.queues.Threads ready entries)
    {index : Nat} (bound : index < wqPoolSize) (now : Word) :
    (((∀ queue, index ∉ entries queue) ∨ ¬(system.queues.waiter index).Expired now) ∧
      system.expire now index = some system) ∨
    ((system.queues.waiter index).Expired now ∧ (∃ queue, index ∈ entries queue) ∧
      ∃ after, system.expire now index = some after ∧
        system.Removes after ready entries index (-1)) := by
  by_cases waits : (system.queues.pool index).inUse = true ∧
      (system.queues.waiter index).Expired now
  · right
    obtain ⟨used, expired⟩ := waits
    obtain ⟨queue, isReady, listed⟩ := (threads.inUse index bound).mp used
    obtain ⟨after, removed, relinks, linked⟩ := queueRemove_spec threads listed
    refine ⟨expired, ⟨queue, listed⟩, {
      smp := system.smp.wake (system.queues.pool index).taskId (-1)
      queues := poolFree after index }, ?_, rfl, threads.free relinks linked, ?_⟩
    · have kept : ¬(!(system.queues.pool index).inUse ∨
          (system.queues.pool index).timeoutTick = 0 ∨
          now < (system.queues.pool index).timeoutTick) := by
        rintro (idle | forever | early)
        · simp [used] at idle
        · exact expired.1 forever
        · exact absurd expired.2 (BitVec.not_le.mpr early)
      simp only [WqSystem.expire, if_neg kept, WaitQueues.unlink,
        threads.owner queue index listed, removed, Option.map_some]
    · exact (poolFree_waiter _ index).trans (funext (relinks_waiter relinks))
  · left
    constructor
    · by_cases used : (system.queues.pool index).inUse = true
      · exact Or.inr fun expired => waits ⟨used, expired⟩
      · refine Or.inl fun queue listed => used ?_
        exact (threads.inUse index bound).mpr ⟨queue, threads.ready_of_mem listed, listed⟩
    · refine if_pos ?_
      by_contra kept
      simp only [not_or, Bool.not_eq_true', Bool.not_eq_false, BitVec.not_lt] at kept
      exact waits ⟨kept.1, kept.2.1, kept.2.2⟩

/-- The entries below `count` that have expired. -/
def WaitQueues.Due (queues : WaitQueues) (now : Word) (count index : Nat) : Prop :=
  index < count ∧ (queues.waiter index).Expired now

instance (queues : WaitQueues) (now : Word) (count index : Nat) :
    Decidable (queues.Due now count index) := inferInstanceAs (Decidable (_ ∧ _))

def WaitQueues.remaining (queues : WaitQueues) (now : Word) (count : Nat)
    (entries : Nat → List Nat) (queue : Nat) : List Nat :=
  (entries queue).filter fun index => ¬queues.Due now count index

theorem due_succ {now : Word} {count index : Nat} :
    queues.Due now (count + 1) index ↔
      queues.Due now count index ∨ (index = count ∧ (queues.waiter count).Expired now) := by
  by_cases here : index = count
  · subst here
    simp [WaitQueues.Due]
  · simp only [WaitQueues.Due, here, false_and, or_false]
    exact and_congr_left fun _ => by omega

def WaitQueues.DueTask (queues : WaitQueues) (entries : Nat → List Nat) (now : Word)
    (count : Nat) (taskId : Int) : Prop :=
  ∃ queue, ∃ index ∈ entries queue, queues.Due now count index ∧
    taskId = (queues.waiter index).taskId

theorem tickLoop_spec {system : WqSystem} (threads : system.queues.Threads ready entries)
    (now : Word) (count : Nat) (bound : count ≤ wqPoolSize) :
    ∃ after, (List.range count).foldlM (WqSystem.expire now) system = some after ∧
      after.queues.Threads ready (system.queues.remaining now count entries) ∧
      after.smp = system.smp.wakeTasks (system.queues.DueTask entries now count) (-1) ∧
      after.queues.waiter = system.queues.waiter := by
  induction count with
  | zero =>
      refine ⟨system, rfl, ?_, (wakeTasks_none (-1) ?_).symm, rfl⟩
      · have all : system.queues.remaining now 0 entries = entries := by
          funext queue
          exact List.filter_eq_self.mpr fun index _ => by simp [WaitQueues.Due]
        rwa [all]
      · rintro task ⟨_, _, _, _, _, ⟨below, _⟩, _⟩
        exact Nat.not_lt_zero _ below
  | succ count ih =>
      obtain ⟨middle, looped, left, smp, waiter⟩ := ih (by omega)
      have listed_iff : ∀ queue, count ∈ system.queues.remaining now count entries queue ↔
          count ∈ entries queue := by
        intro queue
        simp [WaitQueues.remaining, WaitQueues.Due]
      have next : ∀ after, middle.expire now count = some after →
          (List.range (count + 1)).foldlM (WqSystem.expire now) system = some after := by
        intro after expired
        rw [List.range_succ, List.foldlM_append, looped]
        simpa using expired
      rcases expire_spec left (Nat.lt_of_succ_le bound) now with
        ⟨kept, unchanged⟩ | ⟨expired, ⟨queue, listed⟩, after, removed, removes⟩
      · rw [waiter] at kept
        have never : ∀ queue, count ∈ entries queue → ¬(system.queues.waiter count).Expired now := by
          intro queue listed
          rcases kept with unlisted | fresh
          · exact absurd ((listed_iff queue).mpr listed) (unlisted queue)
          · exact fresh
        refine ⟨middle, next middle unchanged, ?_, ?_, waiter⟩
        · have same : system.queues.remaining now (count + 1) entries =
              system.queues.remaining now count entries := by
            funext queue
            refine List.filter_congr fun index listed => decide_eq_decide.mpr (not_congr ?_)
            rw [due_succ]
            refine or_iff_left ?_
            rintro ⟨rfl, expired⟩
            exact never queue listed expired
          rwa [same]
        · rw [smp]
          refine wakeTasks_congr (-1) fun taskId => ?_
          refine exists_congr fun queue => exists_congr fun index => and_congr_right fun listed => ?_
          rw [due_succ, or_iff_left]
          rintro ⟨rfl, expired⟩
          exact never queue listed expired
      · rw [waiter] at expired
        refine ⟨after, next after removed, ?_, ?_, removes.waiter.trans waiter⟩
        · have same : withoutEntry (system.queues.remaining now count entries) count =
              system.queues.remaining now (count + 1) entries := by
            funext queue
            rw [withoutEntry, WaitQueues.remaining, List.filter_filter]
            refine List.filter_congr fun index _ => ?_
            rw [← Bool.decide_and]
            refine decide_eq_decide.mpr ?_
            rw [due_succ]
            simp only [expired, and_true]
            tauto
          exact same ▸ removes.threads
        · rw [removes.smp, smp, waiter, wake_eq, wakeTasks_wakeTasks]
          refine wakeTasks_congr (-1) fun taskId => ?_
          constructor
          · rintro (⟨queue, index, listed, due, same⟩ | same)
            · exact ⟨queue, index, listed, due_succ.mpr (Or.inl due), same⟩
            · exact ⟨queue, count, (listed_iff queue).mp listed,
                due_succ.mpr (Or.inr ⟨rfl, expired⟩), same⟩
          · rintro ⟨queue, index, listed, due, same⟩
            rcases due_succ.mp due with due | ⟨rfl, _⟩
            · exact Or.inl ⟨queue, index, listed, due, same⟩
            · exact Or.inr same

theorem tick_spec {system : WqSystem} (threads : system.queues.Threads ready entries)
    (now : Word) :
    ∃ after, system.tick now = some after ∧
      after.queues.Threads ready (fun queue => (entries queue).filter fun index =>
        ¬(system.queues.waiter index).Expired now) ∧
      after.smp = system.smp.wakeTasks (fun taskId => ∃ queue, ∃ index ∈ entries queue,
        (system.queues.waiter index).Expired now ∧
          taskId = (system.queues.waiter index).taskId) (-1) ∧
      after.queues.waiter = system.queues.waiter := by
  have due_iff : ∀ queue, ∀ index ∈ entries queue,
      system.queues.Due now wqPoolSize index ↔ (system.queues.waiter index).Expired now :=
    fun queue index listed => and_iff_right (threads.inside queue index listed)
  obtain ⟨after, looped, left, smp, waiter⟩ := tickLoop_spec threads now wqPoolSize (Nat.le_refl _)
  refine ⟨after, looped, ?_, ?_, waiter⟩
  · have same : system.queues.remaining now wqPoolSize entries = fun queue =>
        (entries queue).filter fun index => ¬(system.queues.waiter index).Expired now := by
      funext queue
      exact List.filter_congr fun index listed =>
        decide_eq_decide.mpr (not_congr (due_iff queue index listed))
    exact same ▸ left
  · rw [smp]
    refine wakeTasks_congr (-1) fun taskId => ?_
    refine exists_congr fun queue => exists_congr fun index => and_congr_right fun listed => ?_
    rw [due_iff queue index listed]

end DragoonKernel
