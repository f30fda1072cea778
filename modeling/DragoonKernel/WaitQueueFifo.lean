import DragoonKernel.Library.Transition
import DragoonKernel.WaitQueueSections

/-!
The pooled wait queues are FIFO queues that share 64 places: every operation in
`kernel/waitqueue.c` does what the abstract queues do, and ends.
-/

namespace DragoonKernel

/-- The critical sections, and any change of tasks and CPUs by the rest of the kernel. -/
inductive QueueAction where
  | init (queue : Nat)
  | wait (cpu queue : Nat)
  | waitTimeout (cpu queue : Nat) (now ticks : Word)
  | wakeOne (queue : Nat)
  | wakeAll (queue : Nat)
  | tick (now : Word)
  | elsewhere (smp : Smp)

/-- The wait queues with the set of those that `wq_init` has been called on. -/
structure QueueSystem where
  wq : WqSystem
  ready : Finset Nat

def QueueSystem.boot (wq : WqSystem) : QueueSystem where
  wq := { wq with queues := wqPoolInit wq.queues }
  ready := ∅

def QueueSystem.withWq (system : QueueSystem) (wq : Option WqSystem) : Option QueueSystem :=
  wq.map fun wq => { system with wq := wq }

def QueueSystem.step (system : QueueSystem) : QueueAction → Option QueueSystem
  | .init queue =>
      if queue ∈ system.ready ∧ 0 ≤ system.wq.queues.heads queue then none
      else
        some { wq := { system.wq with queues := wqInit system.wq.queues queue }
               ready := insert queue system.ready }
  | .wait cpu queue =>
      if queue ∈ system.ready then system.withWq (system.wq.wqWait cpu queue) else none
  | .waitTimeout cpu queue now ticks =>
      if queue ∈ system.ready then system.withWq (system.wq.wqWaitTimeout cpu queue now ticks)
      else none
  | .wakeOne queue =>
      if queue ∈ system.ready then system.withWq (system.wq.wakeOne queue) else none
  | .wakeAll queue =>
      if queue ∈ system.ready then system.withWq (system.wq.wakeAll queue) else none
  | .tick now => system.withWq (system.wq.tick now)
  | .elsewhere smp => some { system with wq := { system.wq with smp := smp } }

/-- What the wait queues are for: each queue is a list of waiting tasks, oldest first. -/
structure FifoQueues where
  smp : Smp
  ready : Finset Nat
  waiting : Nat → List Waiter

def FifoQueues.boot (smp : Smp) : FifoQueues := ⟨smp, ∅, fun _ => []⟩

/-- The places of the pool that waiting tasks take. -/
def FifoQueues.used (fifo : FifoQueues) : Nat :=
  ∑ queue ∈ fifo.ready, (fifo.waiting queue).length

/-- Appends the current task of the CPU, unless it has none or all places are taken. -/
def FifoQueues.wait (fifo : FifoQueues) (cpu queue : Nat) (deadline : Word) : FifoQueues :=
  if fifo.smp.current cpu < 0 ∨ wqPoolSize ≤ fifo.used then fifo
  else
    { fifo with
      smp := fifo.smp.block (fifo.smp.current cpu)
      waiting := Function.update fifo.waiting queue
        (fifo.waiting queue ++ [⟨fifo.smp.current cpu, deadline⟩]) }

noncomputable def FifoQueues.wakeOne (fifo : FifoQueues) (queue : Nat) : FifoQueues :=
  match fifo.waiting queue with
  | [] => fifo
  | oldest :: rest =>
      { fifo with
        smp := fifo.smp.wakeTasks (· = oldest.taskId) 0
        waiting := Function.update fifo.waiting queue rest }

noncomputable def FifoQueues.wakeAll (fifo : FifoQueues) (queue : Nat) : FifoQueues :=
  { fifo with
    smp := fifo.smp.wakeTasks
      (fun taskId => ∃ waiter ∈ fifo.waiting queue, taskId = waiter.taskId) 0
    waiting := Function.update fifo.waiting queue [] }

noncomputable def FifoQueues.tick (fifo : FifoQueues) (now : Word) : FifoQueues :=
  { fifo with
    smp := fifo.smp.wakeTasks
      (fun taskId => ∃ queue, ∃ waiter ∈ fifo.waiting queue,
        waiter.Expired now ∧ taskId = waiter.taskId) (-1)
    waiting := fun queue => (fifo.waiting queue).filter fun waiter => ¬waiter.Expired now }

noncomputable def FifoQueues.step (fifo : FifoQueues) : QueueAction → Option FifoQueues
  | .init queue =>
      if fifo.waiting queue = [] then some { fifo with ready := insert queue fifo.ready } else none
  | .wait cpu queue => if queue ∈ fifo.ready then some (fifo.wait cpu queue 0) else none
  | .waitTimeout cpu queue now ticks =>
      if queue ∈ fifo.ready then some (fifo.wait cpu queue (now + ticks)) else none
  | .wakeOne queue => if queue ∈ fifo.ready then some (fifo.wakeOne queue) else none
  | .wakeAll queue => if queue ∈ fifo.ready then some (fifo.wakeAll queue) else none
  | .tick now => some (fifo.tick now)
  | .elsewhere smp => some { fifo with smp := smp }

/-- The pool and the heads hold the waiting tasks of `fifo`, each entry in use on exactly one
list, its owner's, and every list acyclic. -/
structure Represents (system : QueueSystem) (fifo : FifoQueues) : Prop where
  smp : system.wq.smp = fifo.smp
  ready : system.ready = fifo.ready
  lists : ∃ entries, system.wq.queues.Threads system.ready entries ∧
    ∀ queue, fifo.waiting queue = (entries queue).map system.wq.queues.waiter

theorem boot_represents (wq : WqSystem) :
    Represents (QueueSystem.boot wq) (FifoQueues.boot wq.smp) :=
  ⟨rfl, rfl, fun _ => [], wqPoolInit_threads wq.queues, fun _ => rfl⟩

variable {system : QueueSystem} {fifo : FifoQueues}

theorem Represents.full_iff (represents : Represents system fifo) :
    (∀ index < wqPoolSize, (system.wq.queues.pool index).inUse = true) ↔
      wqPoolSize ≤ fifo.used := by
  obtain ⟨_, ready, entries, threads, waiting⟩ := represents
  rw [threads.full_iff, FifoQueues.used, ready]
  simp [waiting]

theorem Represents.entry_of_mem (represents : Represents system fifo) {queue : Nat}
    {waiter : Waiter} (member : waiter ∈ fifo.waiting queue) :
    ∃ index < wqPoolSize, (system.wq.queues.pool index).inUse = true ∧
      system.wq.queues.waiter index = waiter := by
  obtain ⟨_, _, entries, threads, waiting⟩ := represents
  rw [waiting] at member
  obtain ⟨index, listed, same⟩ := List.mem_map.mp member
  have bound := threads.inside queue index listed
  exact ⟨index, bound, (threads.inUse index bound).mpr ⟨queue, threads.ready_of_mem listed, listed⟩,
    same⟩

theorem wqInit_represents (represents : Represents system fifo) (queue : Nat) :
    Option.Rel Represents (system.step (.init queue)) (fifo.step (.init queue)) := by
  obtain ⟨smp, ready, entries, threads, waiting⟩ := represents
  have empty_iff : (queue ∈ system.ready ∧ 0 ≤ system.wq.queues.heads queue) ↔
      ¬fifo.waiting queue = [] := by
    rw [waiting, List.map_eq_nil_iff]
    by_cases isReady : queue ∈ system.ready
    · rw [← threads.empty_iff isReady]
      simp [isReady]
    · simp [isReady, threads.unready queue isReady]
  simp only [QueueSystem.step, FifoQueues.step, empty_iff]
  by_cases empty : fifo.waiting queue = []
  · rw [if_neg (not_not.mpr empty), if_pos empty]
    have none : entries queue = [] := by simpa [waiting] using empty
    exact .some ⟨smp, by simp [ready], entries, threads.init none, waiting⟩
  · rw [if_pos empty, if_neg empty]
    exact .none

theorem wait_represents (represents : Represents system fifo) {queue : Nat}
    (isReady : queue ∈ system.ready) (cpu : Nat) (deadline : Word) :
    Option.Rel Represents
      (system.withWq (if system.wq.smp.current cpu < 0 then some system.wq
        else system.wq.wait cpu queue deadline))
      (some (fifo.wait cpu queue deadline)) := by
  have full_iff := represents.full_iff
  have unchanged := represents
  obtain ⟨smp, ready, entries, threads, waiting⟩ := represents
  rw [FifoQueues.wait, ← smp]
  by_cases idle : system.wq.smp.current cpu < 0
  · simp only [idle, if_true, true_or]
    exact .some unchanged
  · rcases wait_spec threads isReady deadline idle with
      ⟨full, stays⟩ | ⟨index, after, unused, joined, longer, waiter⟩
    · simp only [idle, if_false, false_or, if_pos (full_iff.mp full), stays]
      exact .some unchanged
    · have room : ¬wqPoolSize ≤ fifo.used := by
        intro full
        have listed : index ∈ Function.update entries queue (entries queue ++ [index]) queue := by
          simp
        rw [full_iff.mpr full index (longer.inside queue index listed)] at unused
        cases unused
      simp only [idle, if_false, false_or, if_neg room, joined]
      refine .some ⟨rfl, ready, _, longer, fun other => ?_⟩
      have unlisted := threads.unlisted unused
      have kept : ∀ other, (entries other).map after.waiter = fifo.waiting other := by
        intro other
        rw [waiting, waiter]
        refine List.map_congr_left fun query listed => Function.update_of_ne ?_ _ _
        rintro rfl
        exact unlisted other listed
      by_cases here : other = queue
      · subst here
        simp only [Function.update_self, List.map_append, kept]
        simp [waiter]
      · simp only [Function.update_of_ne here, kept]

theorem wakeOne_represents (represents : Represents system fifo) {queue : Nat}
    (isReady : queue ∈ system.ready) :
    Option.Rel Represents (system.withWq (system.wq.wakeOne queue))
      (some (fifo.wakeOne queue)) := by
  obtain ⟨smp, ready, entries, threads, waiting⟩ := represents
  have first := waiting queue
  rcases wakeOne_spec threads isReady with
    ⟨empty, stays⟩ | ⟨index, rest, after, listed, woken, removes⟩
  · rw [empty, List.map_nil] at first
    rw [stays, FifoQueues.wakeOne, first]
    exact .some ⟨smp, ready, entries, threads, waiting⟩
  · rw [listed, List.map_cons] at first
    rw [woken, FifoQueues.wakeOne, first]
    refine .some ⟨?_, ready, _, removes.threads, fun other => ?_⟩
    · exact removes.smp.trans (by rw [wake_eq, smp])
    · simp only [removes.waiter, threads.without_head listed]
      by_cases here : other = queue
      · subst here
        simp only [Function.update_self]
      · simp only [Function.update_of_ne here, waiting]

theorem wakeAll_represents (represents : Represents system fifo) {queue : Nat}
    (isReady : queue ∈ system.ready) :
    Option.Rel Represents (system.withWq (system.wq.wakeAll queue))
      (some (fifo.wakeAll queue)) := by
  obtain ⟨smp, ready, entries, threads, waiting⟩ := represents
  obtain ⟨after, woken, left, tasks, waiter⟩ := wakeAll_spec threads isReady
  rw [woken]
  refine .some ⟨?_, ready, _, left, fun other => ?_⟩
  · rw [FifoQueues.wakeAll, ← smp, waiting]
    refine tasks.trans (wakeTasks_congr 0 fun taskId => ?_)
    simp
  · simp only [FifoQueues.wakeAll, waiter]
    by_cases here : other = queue
    · subst here
      simp
    · simp only [Function.update_of_ne here, waiting]

theorem tick_represents (represents : Represents system fifo) (now : Word) :
    Option.Rel Represents (system.withWq (system.wq.tick now)) (some (fifo.tick now)) := by
  obtain ⟨smp, ready, entries, threads, waiting⟩ := represents
  obtain ⟨after, ticked, left, tasks, waiter⟩ := tick_spec threads now
  rw [ticked]
  refine .some ⟨?_, ready, _, left, fun queue => ?_⟩
  · rw [FifoQueues.tick, ← smp]
    refine tasks.trans (wakeTasks_congr (-1) fun taskId => ?_)
    simp [waiting]
  · simp only [FifoQueues.tick, waiter, waiting, List.filter_map]
    rfl

theorem Represents.step (represents : Represents system fifo) (action : QueueAction) :
    Option.Rel Represents (system.step action) (fifo.step action) := by
  have ready := represents.ready
  have onReady : ∀ (queue : Nat) {first : Option QueueSystem} {second : Option FifoQueues},
      (queue ∈ system.ready → Option.Rel Represents first second) →
      Option.Rel Represents (if queue ∈ system.ready then first else none)
        (if queue ∈ fifo.ready then second else none) := by
    intro queue first second related
    rw [← ready]
    split
    next isReady => exact related isReady
    next => exact .none
  cases action with
  | init queue => exact wqInit_represents represents queue
  | wait cpu queue => exact onReady queue fun isReady => wait_represents represents isReady cpu 0
  | waitTimeout cpu queue now ticks =>
      exact onReady queue fun isReady => wait_represents represents isReady cpu (now + ticks)
  | wakeOne queue => exact onReady queue (wakeOne_represents represents)
  | wakeAll queue => exact onReady queue (wakeAll_represents represents)
  | tick now => exact tick_represents represents now
  | elsewhere smp => exact .some ⟨rfl, ready, represents.lists⟩

/-- For every sequence of operations on any wait queues the pool and the heads go through the
states of the FIFO queues. An operation without a result would have no partner there, so every
walk along a list ends. -/
theorem waitQueues_fifo (wq : WqSystem) (actions : List QueueAction) :
    Option.Rel Represents
      (Transition.exec QueueSystem.step (QueueSystem.boot wq) actions)
      (Transition.exec FifoQueues.step (FifoQueues.boot wq.smp) actions) :=
  Transition.exec_related (fun _ _ action represents => Represents.step represents action)
    (boot_represents wq) actions

end DragoonKernel
