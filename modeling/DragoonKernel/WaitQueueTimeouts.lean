import DragoonKernel.SmpCurrent
import DragoonKernel.WaitQueueFifo

/-!
Timed waits against the tick counter of `kernel/timer.c`: from the call in `kernel/waitqueue.c`
or `kernel/sleep.c` to the `wq_tick` that ends it.
-/

namespace DragoonKernel

def sleepWq : Nat := 0

/-- `timer_handler` on CPU 0 is `countTick` and then `wqTick`; other CPUs may come between. -/
inductive TimerAction where
  | init (queue : Nat)
  | wait (cpu queue : Nat)
  | waitTimeout (cpu queue : Nat) (ticks : Word)
  | sleepTicks (cpu : Nat) (ticks : Word)
  | sleepMs (cpu : Nat) (ms : Word)
  | wakeOne (queue : Nat)
  | wakeAll (queue : Nat)
  | schedule (cpu : Nat)
  | countTick
  | wqTick
  | elsewhere (smp : Smp)

structure TimerSystem where
  queues : QueueSystem
  tickCount : Word

def TimerSystem.boot (wq : WqSystem) : TimerSystem where
  queues := QueueSystem.boot wq
  tickCount := 0

def TimerSystem.smp (system : TimerSystem) : Smp := system.queues.wq.smp

def TimerSystem.perform (system : TimerSystem) (action : QueueAction) : Option TimerSystem :=
  (system.queues.step action).map fun queues => { system with queues := queues }

def TimerSystem.sleepTicks (system : TimerSystem) (cpu : Nat) (ticks : Word) :
    Option TimerSystem :=
  if ticks = 0 then some system
  else system.perform (.waitTimeout cpu sleepWq system.tickCount ticks)

def TimerSystem.step (system : TimerSystem) : TimerAction → Option TimerSystem
  | .init queue => system.perform (.init queue)
  | .wait cpu queue => system.perform (.wait cpu queue)
  | .waitTimeout cpu queue ticks =>
      system.perform (.waitTimeout cpu queue system.tickCount ticks)
  | .sleepTicks cpu ticks => system.sleepTicks cpu ticks
  | .sleepMs cpu ms =>
      let ticks := ms / 10
      system.sleepTicks cpu (if ticks = 0 then 1 else ticks)
  | .wakeOne queue => system.perform (.wakeOne queue)
  | .wakeAll queue => system.perform (.wakeAll queue)
  | .schedule cpu => system.perform (.elsewhere (system.smp.schedule cpu).1)
  | .countTick => some { system with tickCount := system.tickCount + 1 }
  | .wqTick => system.perform (.tick system.tickCount)
  | .elsewhere smp => system.perform (.elsewhere smp)

/-- The two ways to sleep for `ticks`. -/
inductive TimedCall (cpu : Nat) (ticks : Word) : TimerAction → Prop where
  | waitTimeout (queue : Nat) : TimedCall cpu ticks (.waitTimeout cpu queue ticks)
  | sleepTicks (positive : ticks ≠ 0) : TimedCall cpu ticks (.sleepTicks cpu ticks)

/-- The task stays in its call, no wake-up takes it off its queue, and the rest of the kernel
does not change its state. -/
def LeavesAsleep (task : Nat) (system : TimerSystem) (action : TimerAction) (next : TimerSystem) :
    Prop :=
  match action with
  | .wait cpu _ | .waitTimeout cpu _ _ | .sleepTicks cpu _ | .sleepMs cpu _ =>
      system.smp.current cpu ≠ task
  | .wakeOne _ | .wakeAll _ | .elsewhere _ => next.smp.states task = system.smp.states task
  | .init _ | .schedule _ | .countTick | .wqTick => True

def TicksBelow (sum : Nat) (system : TimerSystem) (action : TimerAction) (_ : TimerSystem) : Prop :=
  action = .wqTick → system.tickCount.toNat < sum

/-- From `called` on the task sleeps through every `wq_tick` at a count below `sum`, and the
first one at `sum` or above wakes it. -/
def TimeoutExact (called : TimerSystem) (task sum : Nat) : Prop :=
  ∀ actions final, Transition.exec TimerSystem.step called actions = some final →
    Transition.EveryStep TimerSystem.step (LeavesAsleep task) called actions →
    Transition.EveryStep TimerSystem.step (TicksBelow sum) called actions →
    final.smp.states task = .blocked ∧
    ∀ next, final.step .wqTick = some next → sum ≤ final.tickCount.toNat →
      next.smp.states task = .ready ∧ (next.smp.tasks task).wakeupReason = -1

/-- The condition on the state of a call: it blocks, its deadline is representable, and what a
destroyed task has left in the pool under the same number does not end before it. -/
structure Timely (system : TimerSystem) (task : Nat) (ticks : Word) : Prop where
  room : ∃ index < wqPoolSize, (system.queues.wq.queues.pool index).inUse = false
  nonzero : ¬(system.tickCount = 0 ∧ ticks = 0)
  representable : system.tickCount.toNat + ticks.toNat ≤ 2 ^ 64
  leftovers : ∀ index < wqPoolSize, (system.queues.wq.queues.pool index).inUse = true →
    (system.queues.wq.queues.pool index).taskId = task →
    (system.queues.wq.queues.pool index).timeoutTick = 0 ∨
      system.tickCount.toNat + ticks.toNat ≤
        (system.queues.wq.queues.pool index).timeoutTick.toNat

/-- A blocked task whose waits have no deadline before `sum`, and one of them has `deadline`. -/
structure FifoQueues.Asleep (fifo : FifoQueues) (task sum : Nat) (deadline : Word) : Prop where
  bound : task < maxTasks
  blocked : fifo.smp.states task = .blocked
  queued : ∃ queue, ⟨task, deadline⟩ ∈ fifo.waiting queue
  notBefore : ∀ queue, ∀ waiter ∈ fifo.waiting queue, waiter.taskId = task →
    waiter.deadline = 0 ∨ sum ≤ waiter.deadline.toNat

variable {fifo after : FifoQueues} {task sum : Nat} {deadline : Word}

theorem block_other {smp : Smp} {taskId : Int} (different : taskId ≠ task) :
    (smp.block taskId).tasks task = smp.tasks task := by
  unfold Smp.block
  split
  · rename_i found
    obtain ⟨same, _⟩ := taskGet_some.mp found
    rw [setWakeup_tasks, if_neg (fun here => different (by rw [same, here]))]
  · rfl

theorem FifoQueues.Asleep.wait (asleep : fifo.Asleep task sum deadline) {cpu : Nat}
    (other : fifo.smp.current cpu ≠ task) (queue : Nat) (limit : Word) :
    (fifo.wait cpu queue limit).Asleep task sum deadline := by
  unfold FifoQueues.wait
  split
  · exact asleep
  · refine ⟨asleep.bound, ?_, ?_, ?_⟩
    · simp only [Smp.states, block_other other]
      exact asleep.blocked
    · obtain ⟨home, waits⟩ := asleep.queued
      refine ⟨home, ?_⟩
      by_cases here : home = queue
      · subst here
        simp [waits]
      · simpa [here] using waits
    · intro home waiter member named
      by_cases here : home = queue
      · subst here
        simp only [Function.update_self, List.mem_append, List.mem_singleton] at member
        rcases member with old | rfl
        · exact asleep.notBefore home waiter old named
        · exact absurd named other
      · simp only [Function.update_of_ne here] at member
        exact asleep.notBefore home waiter member named

theorem FifoQueues.Asleep.wakeOne (asleep : fifo.Asleep task sum deadline) {queue : Nat}
    (sleeps : (fifo.wakeOne queue).smp.states task = .blocked) :
    (fifo.wakeOne queue).Asleep task sum deadline := by
  unfold FifoQueues.wakeOne at sleeps ⊢
  cases listed : fifo.waiting queue with
  | nil => exact asleep
  | cons oldest rest =>
      simp only [listed] at sleeps
      have passed : oldest.taskId ≠ task := fun named =>
        (wakeTasks_blocked.mp sleeps).2 ⟨asleep.bound, asleep.blocked, named.symm⟩
      have subset : ∀ home, ∀ waiter ∈ Function.update fifo.waiting queue rest home,
          waiter ∈ fifo.waiting home := by
        intro home waiter member
        by_cases here : home = queue
        · subst here
          rw [Function.update_self] at member
          exact listed ▸ List.mem_cons_of_mem _ member
        · rwa [Function.update_of_ne here] at member
      refine ⟨asleep.bound, sleeps, ?_, fun home waiter member =>
        asleep.notBefore home waiter (subset home waiter member)⟩
      obtain ⟨home, waits⟩ := asleep.queued
      refine ⟨home, ?_⟩
      by_cases here : home = queue
      · subst here
        rw [listed] at waits
        rcases List.mem_cons.mp waits with rfl | later
        · exact absurd rfl passed
        · simpa using later
      · simpa [here] using waits

theorem FifoQueues.Asleep.wakeAll (asleep : fifo.Asleep task sum deadline) {queue : Nat}
    (sleeps : (fifo.wakeAll queue).smp.states task = .blocked) :
    (fifo.wakeAll queue).Asleep task sum deadline := by
  have unwoken := (wakeTasks_blocked.mp sleeps).2
  have elsewhere : ∀ home, ⟨task, deadline⟩ ∈ fifo.waiting home → home ≠ queue := by
    rintro home waits rfl
    exact unwoken ⟨asleep.bound, asleep.blocked, _, waits, rfl⟩
  refine ⟨asleep.bound, sleeps, ?_, ?_⟩
  · obtain ⟨home, waits⟩ := asleep.queued
    refine ⟨home, ?_⟩
    simpa [FifoQueues.wakeAll, elsewhere home waits] using waits
  · intro home waiter member
    by_cases here : home = queue
    · subst here
      simp [FifoQueues.wakeAll] at member
    · simp only [FifoQueues.wakeAll, Function.update_of_ne here] at member
      exact asleep.notBefore home waiter member

theorem FifoQueues.Asleep.tick (asleep : fifo.Asleep task sum deadline) {now : Word}
    (early : now.toNat < sum) : (fifo.tick now).Asleep task sum deadline := by
  have unexpired : ∀ home, ∀ waiter ∈ fifo.waiting home, waiter.taskId = task →
      ¬waiter.Expired now := by
    rintro home waiter member named ⟨timed, due⟩
    rcases asleep.notBefore home waiter member named with forever | late
    · exact timed forever
    · rw [BitVec.le_def] at due
      omega
  refine ⟨asleep.bound, wakeTasks_blocked.mpr ⟨asleep.blocked, ?_⟩, ?_, ?_⟩
  · rintro ⟨_, _, home, waiter, member, expired, named⟩
    exact unexpired home waiter member named.symm expired
  · obtain ⟨home, waits⟩ := asleep.queued
    refine ⟨home, List.mem_filter.mpr ⟨waits, ?_⟩⟩
    simpa using unexpired home _ waits rfl
  · intro home waiter member
    exact asleep.notBefore home waiter (List.mem_of_mem_filter member)

theorem FifoQueues.Asleep.expires (asleep : fifo.Asleep task sum deadline) {now : Word}
    (timed : deadline ≠ 0) (due : deadline ≤ now) :
    (fifo.tick now).smp.states task = .ready ∧
      ((fifo.tick now).smp.tasks task).wakeupReason = -1 := by
  obtain ⟨home, waits⟩ := asleep.queued
  have wakes : fifo.smp.Wakes (fun taskId => ∃ queue, ∃ waiter ∈ fifo.waiting queue,
      waiter.Expired now ∧ taskId = waiter.taskId) task :=
    ⟨asleep.bound, asleep.blocked, home, _, waits, ⟨timed, due⟩, rfl⟩
  have woken := wakeTasks_wakes (-1) wakes
  simp only [Smp.states, FifoQueues.tick, woken, and_self]

variable {system next : TimerSystem}

theorem Represents.perform (represents : Represents system.queues fifo) {action : QueueAction}
    (performed : system.perform action = some next) :
    next.tickCount = system.tickCount ∧
      ∃ after, fifo.step action = some after ∧ Represents next.queues after := by
  obtain ⟨queues, stepped, rfl⟩ := Option.map_eq_some_iff.mp performed
  have related := represents.step action
  rw [stepped] at related
  cases moved : fifo.step action with
  | none =>
      rw [moved] at related
      cases related
  | some after =>
      rw [moved] at related
      cases related with
      | some both => exact ⟨rfl, after, rfl, both⟩

theorem sleepTicks_cases {cpu : Nat} {ticks : Word} (slept : system.sleepTicks cpu ticks = some next) :
    (ticks = 0 ∧ next = system) ∨
      (ticks ≠ 0 ∧ system.perform (.waitTimeout cpu sleepWq system.tickCount ticks) = some next) := by
  unfold TimerSystem.sleepTicks at slept
  split at slept
  · rename_i zero
    exact Or.inl ⟨zero, (Option.some.inj slept).symm⟩
  · rename_i positive
    exact Or.inr ⟨positive, slept⟩

theorem Represents.timerStep (represents : Represents system.queues fifo) {action : TimerAction}
    (stepped : system.step action = some next) : ∃ after, Represents next.queues after := by
  have performs : ∀ {inner : QueueAction}, system.perform inner = some next →
      ∃ after, Represents next.queues after := by
    intro inner performed
    obtain ⟨_, after, _, both⟩ := represents.perform performed
    exact ⟨after, both⟩
  have sleeps : ∀ {cpu : Nat} {ticks : Word}, system.sleepTicks cpu ticks = some next →
      ∃ after, Represents next.queues after := by
    intro cpu ticks slept
    rcases sleepTicks_cases slept with ⟨_, rfl⟩ | ⟨_, performed⟩
    · exact ⟨fifo, represents⟩
    · exact performs performed
  cases action with
  | sleepTicks cpu ticks => exact sleeps stepped
  | sleepMs cpu ms => exact sleeps stepped
  | countTick =>
      obtain rfl := Option.some.inj stepped
      exact ⟨fifo, represents⟩
  | _ => exact performs stepped

theorem timer_represents {wq : WqSystem} {actions : List TimerAction}
    (run : Transition.exec TimerSystem.step (.boot wq) actions = some system) :
    ∃ fifo, Represents system.queues fifo := by
  have keeps : ∀ (before : TimerSystem) action after, (∃ fifo, Represents before.queues fifo) →
      before.step action = some after → ∃ fifo, Represents after.queues fifo := by
    rintro before action after ⟨fifo, represents⟩ stepped
    exact represents.timerStep stepped
  exact Transition.exec_invariant keeps ⟨_, boot_represents wq⟩ run

/-- The invariant of the sleep: one step keeps the task blocked and its deadline queued. -/
theorem FifoQueues.Asleep.timerStep (asleep : fifo.Asleep task sum deadline)
    (represents : Represents system.queues fifo) {action : TimerAction}
    (stepped : system.step action = some next) (leaves : LeavesAsleep task system action next)
    (below : TicksBelow sum system action next) :
    ∃ after, Represents next.queues after ∧ after.Asleep task sum deadline := by
  have smp : system.smp = fifo.smp := represents.smp
  have waits : ∀ {cpu queue : Nat} {now ticks : Word}, system.smp.current cpu ≠ task →
      system.perform (.waitTimeout cpu queue now ticks) = some next →
      ∃ after, Represents next.queues after ∧ after.Asleep task sum deadline := by
    intro cpu queue now ticks other performed
    obtain ⟨_, after, moved, both⟩ := represents.perform performed
    simp only [FifoQueues.step, Option.ite_none_right_eq_some, Option.some.injEq] at moved
    obtain ⟨_, rfl⟩ := moved
    exact ⟨_, both, asleep.wait (smp ▸ other) queue (now + ticks)⟩
  have sleeps : ∀ {cpu : Nat} {ticks : Word}, system.smp.current cpu ≠ task →
      system.sleepTicks cpu ticks = some next →
      ∃ after, Represents next.queues after ∧ after.Asleep task sum deadline := by
    intro cpu ticks other slept
    rcases sleepTicks_cases slept with ⟨_, rfl⟩ | ⟨_, performed⟩
    · exact ⟨fifo, represents, asleep⟩
    · exact waits other performed
  have stays : ∀ {after : FifoQueues}, Represents next.queues after →
      next.smp.states task = system.smp.states task → after.smp.states task = .blocked := by
    intro after both same
    have nextSmp : next.smp = after.smp := both.smp
    rw [← nextSmp, same, smp]
    exact asleep.blocked
  cases action with
  | init queue =>
      obtain ⟨_, after, moved, both⟩ := represents.perform stepped
      simp only [FifoQueues.step, Option.ite_none_right_eq_some, Option.some.injEq] at moved
      obtain ⟨_, rfl⟩ := moved
      exact ⟨_, both, asleep.bound, asleep.blocked, asleep.queued, asleep.notBefore⟩
  | wait cpu queue =>
      obtain ⟨_, after, moved, both⟩ := represents.perform stepped
      simp only [FifoQueues.step, Option.ite_none_right_eq_some, Option.some.injEq] at moved
      obtain ⟨_, rfl⟩ := moved
      exact ⟨_, both, asleep.wait (smp ▸ leaves) queue 0⟩
  | waitTimeout cpu queue ticks => exact waits leaves stepped
  | sleepTicks cpu ticks => exact sleeps leaves stepped
  | sleepMs cpu ms => exact sleeps leaves stepped
  | wakeOne queue =>
      obtain ⟨_, after, moved, both⟩ := represents.perform stepped
      simp only [FifoQueues.step, Option.ite_none_right_eq_some, Option.some.injEq] at moved
      obtain ⟨_, rfl⟩ := moved
      exact ⟨_, both, asleep.wakeOne (stays both leaves)⟩
  | wakeAll queue =>
      obtain ⟨_, after, moved, both⟩ := represents.perform stepped
      simp only [FifoQueues.step, Option.ite_none_right_eq_some, Option.some.injEq] at moved
      obtain ⟨_, rfl⟩ := moved
      exact ⟨_, both, asleep.wakeAll (stays both leaves)⟩
  | schedule cpu =>
      obtain ⟨_, after, moved, both⟩ := represents.perform stepped
      obtain rfl := Option.some.inj moved
      refine ⟨_, both, asleep.bound, ?_, asleep.queued, asleep.notBefore⟩
      rw [smp]
      exact (schedule_blocked fifo.smp cpu task).mpr asleep.blocked
  | countTick =>
      obtain rfl := Option.some.inj stepped
      exact ⟨fifo, represents, asleep⟩
  | wqTick =>
      obtain ⟨_, after, moved, both⟩ := represents.perform stepped
      obtain rfl := Option.some.inj moved
      exact ⟨_, both, asleep.tick (below rfl)⟩
  | elsewhere smp =>
      obtain ⟨_, after, moved, both⟩ := represents.perform stepped
      obtain rfl := Option.some.inj moved
      exact ⟨_, both, asleep.bound, stays both leaves, asleep.queued, asleep.notBefore⟩

theorem FifoQueues.Asleep.run (asleep : fifo.Asleep task sum deadline)
    (represents : Represents system.queues fifo) {actions : List TimerAction}
    {final : TimerSystem}
    (run : Transition.exec TimerSystem.step system actions = some final)
    (leaves : Transition.EveryStep TimerSystem.step (LeavesAsleep task) system actions)
    (below : Transition.EveryStep TimerSystem.step (TicksBelow sum) system actions) :
    ∃ after, Represents final.queues after ∧ after.Asleep task sum deadline := by
  induction actions generalizing system fifo with
  | nil =>
      obtain rfl := Option.some.inj run
      exact ⟨fifo, represents, asleep⟩
  | cons action rest ih =>
      obtain ⟨next, stepped, run⟩ := Transition.exec_cons_iff.mp run
      obtain ⟨left, leaves⟩ := leaves next stepped
      obtain ⟨early, below⟩ := below next stepped
      obtain ⟨after, both, sleeps⟩ := asleep.timerStep represents stepped left early
      exact ih sleeps both run leaves below

/-- The wrapped deadline is the exact sum, or is 0 where no count reaches the sum. -/
theorem deadline_exact {now ticks : Word} (representable : now.toNat + ticks.toNat ≤ 2 ^ 64) :
    (now + ticks).toNat = now.toNat + ticks.toNat ∨
      (now + ticks = 0 ∧ now.toNat + ticks.toNat = 2 ^ 64) := by
  by_cases top : now.toNat + ticks.toNat = 2 ^ 64
  · refine Or.inr ⟨?_, top⟩
    rw [← BitVec.toNat_inj, BitVec.toNat_add, top]
    rfl
  · refine Or.inl ?_
    rw [BitVec.toNat_add, Nat.mod_eq_of_lt (by omega)]

theorem TimedCall.perform {cpu : Nat} {ticks : Word} {call : TimerAction}
    (timed : TimedCall cpu ticks call) (called : system.step call = some next) :
    ∃ queue, system.perform (.waitTimeout cpu queue system.tickCount ticks) = some next := by
  cases timed with
  | waitTimeout queue => exact ⟨queue, called⟩
  | sleepTicks positive =>
      rcases sleepTicks_cases called with ⟨zero, _⟩ | ⟨_, performed⟩
      · exact absurd zero positive
      · exact ⟨sleepWq, performed⟩

theorem Timely.asleep {ticks : Word} (timely : Timely system task ticks)
    (represents : Represents system.queues fifo) {cpu queue : Nat}
    (caller : taskGet system.smp.states (system.smp.current cpu) = some task)
    (performed : system.perform (.waitTimeout cpu queue system.tickCount ticks) = some next) :
    ∃ after, Represents next.queues after ∧ after.Asleep task
      (system.tickCount.toNat + ticks.toNat) (system.tickCount + ticks) := by
  obtain ⟨_, after, moved, both⟩ := represents.perform performed
  simp only [FifoQueues.step, Option.ite_none_right_eq_some, Option.some.injEq] at moved
  obtain ⟨_, rfl⟩ := moved
  have smp : system.smp = fifo.smp := represents.smp
  rw [smp] at caller
  obtain ⟨current, bound, _⟩ := taskGet_some.mp caller
  have joins : ¬(fifo.smp.current cpu < 0 ∨ wqPoolSize ≤ fifo.used) := by
    rintro (idle | full)
    · omega
    · obtain ⟨index, inside, unused⟩ := timely.room
      rw [represents.full_iff.mpr full index inside] at unused
      cases unused
  refine ⟨_, both, ?_⟩
  rw [FifoQueues.wait, if_neg joins, current]
  refine ⟨bound, ?_, ⟨queue, by simp⟩, ?_⟩
  · rw [current] at caller
    simp only [Smp.block, caller, Smp.states, setWakeup_tasks, if_pos]
  · have old : ∀ home, ∀ waiter ∈ fifo.waiting home, waiter.taskId = task →
        waiter.deadline = 0 ∨
          system.tickCount.toNat + ticks.toNat ≤ waiter.deadline.toNat := by
      intro home waiter member named
      obtain ⟨index, inside, used, rfl⟩ := represents.entry_of_mem member
      exact timely.leftovers index inside used named
    intro home waiter member named
    by_cases here : home = queue
    · subst here
      simp only [Function.update_self, List.mem_append, List.mem_singleton] at member
      rcases member with before | rfl
      · exact old home waiter before named
      · rcases deadline_exact timely.representable with same | ⟨zero, _⟩
        · exact Or.inr (Nat.le_of_eq same.symm)
        · exact Or.inl zero
    · simp only [Function.update_of_ne here] at member
      exact old home waiter member named

/-- A timed wait that is called in a state that meets the condition expires neither early nor
late, in every run that leaves the task to its sleep. -/
theorem waitTimeout_exact_of_timely (wq : WqSystem) (actions : List TimerAction)
    (system called : TimerSystem) (cpu task : Nat) (ticks : Word) (call : TimerAction)
    (run : Transition.exec TimerSystem.step (.boot wq) actions = some system)
    (caller : taskGet system.smp.states (system.smp.current cpu) = some task)
    (timed : TimedCall cpu ticks call) (stepped : system.step call = some called)
    (timely : Timely system task ticks) :
    TimeoutExact called task (system.tickCount.toNat + ticks.toNat) := by
  intro rest final later leaves below
  obtain ⟨fifo, represents⟩ := timer_represents run
  obtain ⟨queue, performed⟩ := timed.perform stepped
  obtain ⟨asleepAt, calledFifo, asleep⟩ := timely.asleep represents caller performed
  obtain ⟨after, both, sleeps⟩ := asleep.run calledFifo later leaves below
  have smp : final.smp = after.smp := both.smp
  refine ⟨smp ▸ sleeps.blocked, fun next ticked due => ?_⟩
  obtain ⟨_, expired, moved, expires⟩ := both.perform ticked
  obtain rfl := Option.some.inj moved
  have nextSmp : next.smp = (after.tick final.tickCount).smp := expires.smp
  rw [nextSmp]
  have count := final.tickCount.isLt
  rcases deadline_exact timely.representable with same | ⟨_, top⟩
  · apply sleeps.expires
    · intro zero
      have none : (0 : Word).toNat = 0 := rfl
      rw [zero, none] at same
      refine timely.nonzero ⟨BitVec.eq_of_toNat_eq ?_, BitVec.eq_of_toNat_eq ?_⟩
      · rw [none]
        omega
      · rw [none]
        omega
    · rw [BitVec.le_def, same]
      exact due
  · omega

/-- Task 0 runs on CPU 0 at tick 0, and one queue is set up. -/
def timedStart : TimerSystem where
  queues := {
    wq := { (QueueSystem.boot oneRunning).wq with
      queues := wqInit (QueueSystem.boot oneRunning).wq.queues 0 }
    ready := {0} }
  tickCount := 0

theorem timedStart_run :
    Transition.exec TimerSystem.step (.boot oneRunning) [.init 0] = some timedStart := rfl

theorem timedStart_timely : Timely timedStart 0 5 := by
  constructor
  · exact ⟨0, by decide, rfl⟩
  · exact fun zero => absurd zero.2 (by decide)
  · decide
  · decide +kernel

theorem waitTimeout_exact_five :
    ∃ called, timedStart.step (.waitTimeout 0 0 5) = some called ∧ TimeoutExact called 0 5 := by
  obtain ⟨called, stepped, _⟩ := Transition.exec_cons_iff.mp
    (Option.some_get (show (Transition.exec TimerSystem.step timedStart
      [.waitTimeout 0 0 5]).isSome = true by decide +kernel)).symm
  exact ⟨called, stepped, waitTimeout_exact_of_timely oneRunning [.init 0] timedStart called 0 0 5 _
    timedStart_run (by decide) (.waitTimeout 0) stepped timedStart_timely⟩

/-- A wait for no ticks at tick 0 stores the deadline 0, which stands for none. -/
theorem waitTimeout_zero_never :
    ¬∀ (wq : WqSystem) (actions : List TimerAction) (system called : TimerSystem) (cpu task : Nat)
      (ticks : Word) (call : TimerAction),
      Transition.exec TimerSystem.step (.boot wq) actions = some system →
      taskGet system.smp.states (system.smp.current cpu) = some task →
      TimedCall cpu ticks call → system.step call = some called →
      TimeoutExact called task (system.tickCount.toNat + ticks.toNat) := by
  intro all
  have sleeps : (Transition.exec TimerSystem.step timedStart
      [.waitTimeout 0 0 0, .countTick, .wqTick]).any (fun system =>
        decide (system.smp.states 0 = .blocked)) = true := by
    decide +kernel
  obtain ⟨final, run, blocked⟩ := (Option.any_eq_true _ _).mp sleeps
  obtain ⟨called, stepped, run⟩ := Transition.exec_cons_iff.mp run
  obtain ⟨counted, counts, run⟩ := Transition.exec_cons_iff.mp run
  obtain ⟨ticked, ticks, run⟩ := Transition.exec_cons_iff.mp run
  obtain rfl := Option.some.inj run
  have exact := all oneRunning [.init 0] timedStart called 0 0 0 (.waitTimeout 0 0 0)
    timedStart_run (by decide) (.waitTimeout 0) stepped
  have woken := (exact [.countTick] counted (Transition.exec_cons_iff.mpr ⟨_, counts, rfl⟩)
    (fun _ _ => ⟨trivial, trivial⟩) (fun _ _ => ⟨by simp [TicksBelow], trivial⟩)).2 ticked ticks
    (Nat.zero_le _)
  rw [of_decide_eq_true blocked] at woken
  cases woken.1

end DragoonKernel
