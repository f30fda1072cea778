import DragoonKernel.Library.Transition
import DragoonKernel.TaskAsids
import DragoonKernel.TaskCreation
import DragoonKernel.WaitQueueSections

/-!
Wait queues of tasks that come and go, on one CPU. Entries name tasks by slot, and
`task_destroy` leaves the entries of the slot where they are.
-/

namespace DragoonKernel

/-- `blocks` has the entry that the last wait of each slot took. `scheduling` says that the
running code is between the critical section of a wait and the wait's call of `schedule()`. -/
structure QueuedTasks where
  tasks : TaskSystem
  queues : WaitQueues
  ready : Finset Nat
  blocks : Nat → Option Nat
  scheduling : Bool

inductive QueuedAction where
  | create (name : List UInt8) (entry : Word)
  | destroy (taskId : Int)
  | schedule
  | contextSwitch
  | init (queue : Nat)
  | wait (queue : Nat)
  | waitTimeout (queue : Nat) (now ticks : Word)
  | wakeOne (queue : Nat)
  | wakeAll (queue : Nat)
  | tick (now : Word)

def QueuedTasks.wq (system : QueuedTasks) : WqSystem := ⟨system.tasks.machine.smp, system.queues⟩

def QueuedTasks.current (system : QueuedTasks) : Int := system.tasks.machine.smp.current 0

def QueuedTasks.withWq (system : QueuedTasks) (wq : WqSystem) : QueuedTasks :=
  { system with tasks := system.tasks.withSmp wq.smp, queues := wq.queues }

def QueuedTasks.waited (system : QueuedTasks) (wq : WqSystem) : QueuedTasks :=
  match taskGet system.tasks.states system.current, (poolAlloc system.queues).2 with
  | some task, some index =>
      { system.withWq wq with
        blocks := Function.update system.blocks task (some index)
        scheduling := true }
  | none, some _ => { system.withWq wq with scheduling := decide (0 ≤ system.current) }
  | _, none => system.withWq wq

def QueuedTasks.mayWait (system : QueuedTasks) (queue : Nat) : Prop :=
  system.tasks.machine.phases 0 = .running ∧ system.scheduling = false ∧ queue ∈ system.ready

instance (system : QueuedTasks) (queue : Nat) : Decidable (system.mayWait queue) :=
  inferInstanceAs (Decidable (_ ∧ _ ∧ _))

def QueuedTasks.step (pgdTable : Nat) (taskTrampoline : Word) (system : QueuedTasks) :
    QueuedAction → Option QueuedTasks
  | .create name entry =>
      some { system with tasks := (system.tasks.taskCreate pgdTable taskTrampoline name entry).1 }
  | .destroy taskId => some { system with tasks := system.tasks.taskDestroy taskId }
  | .schedule =>
      (system.tasks.step 1 pgdTable taskTrampoline (.schedule 0)).map fun tasks =>
        { system with tasks := tasks, scheduling := false }
  | .contextSwitch =>
      (system.tasks.step 1 pgdTable taskTrampoline (.contextSwitch 0)).map fun tasks =>
        { system with tasks := tasks }
  | .init queue =>
      if queue ∈ system.ready ∧ 0 ≤ system.queues.heads queue then none
      else
        some { system with
          queues := wqInit system.queues queue
          ready := insert queue system.ready }
  | .wait queue =>
      if system.mayWait queue then (system.wq.wqWait 0 queue).map system.waited else none
  | .waitTimeout queue now ticks =>
      if system.mayWait queue then (system.wq.wqWaitTimeout 0 queue now ticks).map system.waited
      else none
  | .wakeOne queue =>
      if queue ∈ system.ready then (system.wq.wakeOne queue).map system.withWq else none
  | .wakeAll queue =>
      if queue ∈ system.ready then (system.wq.wakeAll queue).map system.withWq else none
  | .tick now => (system.wq.tick now).map system.withWq

/-- After `task_init` and `wq_pool_init`. -/
def QueuedTasks.boot {image : KernelImage} (tables : KernelTables image) (mm : Mm)
    (queues : WaitQueues) : QueuedTasks where
  tasks := TaskSystem.boot tables mm
  queues := wqPoolInit queues
  ready := ∅
  blocks := fun _ => none
  scheduling := false

/-- The task is blocked, and it waits with this entry. -/
def QueuedTasks.BlockedOn (system : QueuedTasks) (task index : Nat) : Prop :=
  system.tasks.states task = .blocked ∧ system.blocks task = some index

def QueuedTasks.WaitsOn (system : QueuedTasks) (task queue : Nat) : Prop :=
  ∃ index < wqPoolSize, system.BlockedOn task index ∧
    (system.queues.pool index).inUse = true ∧ (system.queues.pool index).owner = some queue

def QueuedTasks.Readies (system after : QueuedTasks) (task : Nat) : Prop :=
  system.tasks.states task = .blocked ∧ after.tasks.states task = .ready

/-- A wake-up readies tasks that wait on its queue only, and `wq_wake_one` one of them if
there is any. -/
def WakesWaiters (system : QueuedTasks) (action : QueuedAction) (after : QueuedTasks) : Prop :=
  match action with
  | .wakeOne queue =>
      (∀ task, system.Readies after task → ∃ index : Nat,
        system.queues.heads queue = index ∧ system.BlockedOn task index) ∧
      ((∃ task, system.WaitsOn task queue) →
        ∃! task, system.WaitsOn task queue ∧ after.tasks.states task = .ready)
  | .wakeAll queue => ∀ task, system.Readies after task → system.WaitsOn task queue
  | .tick now => ∀ task, system.Readies after task → ∃ index < wqPoolSize,
      system.BlockedOn task index ∧ (system.queues.pool index).inUse = true ∧
        (system.queues.waiter index).Expired now
  | _ => True

def QueuedTasks.Unqueued (system : QueuedTasks) (task : Nat) : Prop :=
  ∀ index < wqPoolSize, (system.queues.pool index).inUse = true →
    (system.queues.pool index).taskId ≠ task

/-- The condition at each `task_destroy`, that no entry in use names the task, and at each
wait that takes an entry, that the waiting task has not been destroyed. -/
def LeavesNoEntry (system : QueuedTasks) (action : QueuedAction) (_ : QueuedTasks) : Prop :=
  match action with
  | .destroy taskId => ∀ task ∈ taskGet system.tasks.states taskId, system.Unqueued task
  | .wait _ | .waitTimeout _ _ _ => 0 ≤ system.current → (poolAlloc system.queues).2 ≠ none →
      taskGet system.tasks.states system.current ≠ none
  | _ => True

instance (system : QueuedTasks) (task index : Nat) : Decidable (system.BlockedOn task index) :=
  inferInstanceAs (Decidable (_ ∧ _))

instance (system after : QueuedTasks) (task : Nat) : Decidable (system.Readies after task) :=
  inferInstanceAs (Decidable (_ ∧ _))

instance (system : QueuedTasks) (task : Nat) : Decidable (system.Unqueued task) :=
  inferInstanceAs (Decidable (∀ index < wqPoolSize, _))

instance (system after : QueuedTasks) (action : QueuedAction) :
    Decidable (LeavesNoEntry system action after) :=
  match action with
  | .destroy taskId =>
      inferInstanceAs (Decidable (∀ task ∈ taskGet system.tasks.states taskId, system.Unqueued task))
  | .wait _ | .waitTimeout _ _ _ =>
      inferInstanceAs (Decidable (0 ≤ system.current → (poolAlloc system.queues).2 ≠ none →
        taskGet system.tasks.states system.current ≠ none))
  | .create _ _ | .schedule | .contextSwitch | .init _ | .wakeOne _ | .wakeAll _ | .tick _ =>
      isTrue trivial

/-- Each entry in use is the one with which its task is blocked, and running code is not
blocked unless it is about to call `schedule()`. -/
structure QueuedTasks.Sound (system : QueuedTasks) (entries : Nat → List Nat) : Prop where
  threads : system.queues.Threads system.ready entries
  blocked : ∀ queue, ∀ index ∈ entries queue, ∃ task < maxTasks,
    (system.queues.waiter index).taskId = (task : Int) ∧ system.BlockedOn task index
  awake : system.scheduling = false → ∀ task : Nat, system.current = task →
    system.tasks.states task ≠ .blocked

variable {pgdTable : Nat} {taskTrampoline : Word} {system : QueuedTasks} {entries : Nat → List Nat}

theorem boot_queued {image : KernelImage} (tables : KernelTables image) (mm : Mm)
    (queues : WaitQueues) : (QueuedTasks.boot tables mm queues).Sound fun _ => [] := by
  refine ⟨wqPoolInit_threads queues, ?_, ?_⟩
  · exact fun _ index listed => absurd listed List.not_mem_nil
  · intro _ task current
    cases current

theorem QueuedTasks.Sound.wqThreads (sound : system.Sound entries) :
    system.wq.queues.Threads system.ready entries := sound.threads

/-- A change of the tasks that leaves the blocked ones blocked, and blocks no other. -/
theorem QueuedTasks.Sound.retask (sound : system.Sound entries) {tasks : TaskSystem}
    (current : tasks.machine.smp.current 0 = system.current)
    (blocks : ∀ task, tasks.states task = .blocked → system.tasks.states task = .blocked)
    (kept : ∀ queue, ∀ index ∈ entries queue, ∀ task, system.BlockedOn task index →
      (system.queues.waiter index).taskId = (task : Int) → tasks.states task = .blocked) :
    QueuedTasks.Sound { system with tasks := tasks } entries := by
  refine ⟨sound.threads, ?_, ?_⟩
  · intro queue index listed
    obtain ⟨task, bound, named, waits⟩ := sound.blocked queue index listed
    exact ⟨task, bound, named, kept queue index listed task waits named, waits.2⟩
  · intro still task runs blocked
    exact sound.awake still task (current.symm.trans runs) (blocks task blocked)

theorem QueuedTasks.Sound.create (sound : system.Sound entries) (name : List UInt8)
    (entry : Word) : QueuedTasks.Sound { system with
      tasks := (system.tasks.taskCreate pgdTable taskTrampoline name entry).1 } entries := by
  have current := (taskCreate_sameCpus pgdTable taskTrampoline system.tasks name entry).current 0
  have cases := taskCreate_cases pgdTable taskTrampoline system.tasks name entry
  generalize system.tasks.taskCreate pgdTable taskTrampoline name entry = outcome at current cases ⊢
  obtain ⟨after, returned⟩ := outcome
  rcases cases with ⟨_, untouched⟩ | ⟨slot, _, _, created⟩
  · have live : ∀ task, system.tasks.states task ≠ .dead →
        after.states task = system.tasks.states task :=
      fun task live => congrArg Task.state (untouched.live task live)
    refine sound.retask current ?_ ?_
    · intro task blocked
      by_cases dead : system.tasks.states task = .dead
      · have gone := untouched.dead task dead
        simp [gone] at blocked
      · exact (live task dead).symm.trans blocked
    · intro queue index _ task waits _
      exact (live task (by simp [waits.1])).trans waits.1
  · have others : ∀ task, task ≠ slot → after.states task = system.tasks.states task :=
      fun task different => congrArg Task.state (created.others task different)
    refine sound.retask current ?_ ?_
    · intro task blocked
      by_cases here : task = slot
      · subst here
        simp [created.ready] at blocked
      · exact (others task here).symm.trans blocked
    · intro queue index _ task waits _
      refine (others task ?_).trans waits.1
      rintro rfl
      have dead := created.wasDead
      simp [waits.1] at dead

theorem taskDestroy_states (system : TaskSystem) (taskId : Int) (task : Nat) :
    (system.taskDestroy taskId).states task =
      if taskGet system.states taskId = some task then .dead else system.states task := by
  unfold TaskSystem.taskDestroy
  split
  next missing => simp [missing]
  next id found =>
    refine (setTask_fills system.machine.smp id _).states task |>.trans ?_
    simp only [found, Option.some.injEq]
    by_cases here : task = id
    · simp [here]
    · rw [if_neg here, if_neg (Ne.symm here)]
      rfl

theorem QueuedTasks.Sound.destroy (sound : system.Sound entries) {taskId : Int}
    (unqueued : ∀ task ∈ taskGet system.tasks.states taskId, system.Unqueued task) :
    QueuedTasks.Sound { system with tasks := system.tasks.taskDestroy taskId } entries := by
  refine sound.retask ((taskDestroy_sameCpus system.tasks taskId).current 0) ?_ ?_
  · intro task blocked
    rw [taskDestroy_states] at blocked
    split at blocked
    · cases blocked
    · exact blocked
  · intro queue index listed task waits named
    rw [taskDestroy_states, if_neg]
    · exact waits.1
    · intro found
      have bound := sound.threads.inside queue index listed
      have used := (sound.threads.inUse index bound).mpr
        ⟨queue, sound.threads.ready_of_mem listed, listed⟩
      exact unqueued task found index bound used named

theorem schedule_awake (smp : Smp) {task : Nat} (runs : (smp.schedule 0).1.current 0 = task) :
    (smp.schedule 0).1.states task ≠ .blocked := by
  rcases schedule_cases smp 0 with ⟨_, idle, same⟩ | ⟨_, _, same⟩ | ⟨next, _, current, same⟩ |
    ⟨next, _, _, same⟩
  · rw [same] at runs
    have stays := (oldContext_current smp 0 0).symm.trans runs
    omega
  · rw [same] at runs
    simp at runs
  · rw [same] at runs ⊢
    simp only [setState_current, oldContext_current, current, Int.natCast_inj] at runs
    simp [runs]
  · rw [same] at runs ⊢
    simp only [setCurrent_current, if_true, Int.natCast_inj] at runs
    simp [runs]

theorem QueuedTasks.Sound.schedule (sound : system.Sound entries) {after : QueuedTasks}
    (stepped : system.step pgdTable taskTrampoline .schedule = some after) :
    after.Sound entries := by
  simp only [QueuedTasks.step, TaskSystem.step, Option.map_eq_some_iff,
    Option.ite_none_right_eq_some, Option.some.injEq] at stepped
  obtain ⟨tasks, ⟨_, rfl⟩, rfl⟩ := stepped
  have smp := machine_schedule_smp system.tasks.machine 0
  have states : ∀ task, (system.tasks.withMachine (system.tasks.machine.schedule 0)).states task =
      (system.tasks.machine.smp.schedule 0).1.states task :=
    fun task => congrArg (Smp.states · task) smp
  refine ⟨sound.threads, ?_, ?_⟩
  · intro queue index listed
    obtain ⟨task, bound, named, waits⟩ := sound.blocked queue index listed
    exact ⟨task, bound, named, (states task).trans ((schedule_blocked _ 0 task).mpr waits.1), waits.2⟩
  · intro _ task runs
    rw [states]
    refine schedule_awake system.tasks.machine.smp ?_
    rw [← runs]
    exact congrArg (Smp.current · 0) smp.symm

theorem QueuedTasks.Sound.contextSwitch (sound : system.Sound entries) {after : QueuedTasks}
    (stepped : system.step pgdTable taskTrampoline .contextSwitch = some after) :
    after.Sound entries := by
  simp only [QueuedTasks.step, TaskSystem.step, Option.map_eq_some_iff] at stepped
  obtain ⟨tasks, switched, rfl⟩ := stepped
  split at switched
  next => cases switched
  next old new ttbr0 _ =>
    rw [Option.ite_none_right_eq_some, Option.some.injEq] at switched
    obtain ⟨_, rfl⟩ := switched
    have states : ∀ task, (system.tasks.withMachine
        (system.tasks.machine.contextSwitch 0 old new ttbr0)).states task =
          system.tasks.states task :=
      fun task => congrFun (contextSwitch_states _ _ _ _ _) task
    refine sound.retask (contextSwitch_current _ _ _ _ _ _) ?_ ?_
    · exact fun task blocked => (states task).symm.trans blocked
    · exact fun queue index _ task waits _ => (states task).trans waits.1

theorem QueuedTasks.Sound.init (sound : system.Sound entries) {queue : Nat} {after : QueuedTasks}
    (stepped : system.step pgdTable taskTrampoline (.init queue) = some after) :
    after.Sound entries := by
  simp only [QueuedTasks.step, Option.ite_none_left_eq_some, Option.some.injEq] at stepped
  obtain ⟨idle, rfl⟩ := stepped
  have empty : entries queue = [] := by
    by_cases isReady : queue ∈ system.ready
    · refine (sound.threads.empty_iff isReady).mp ?_
      have negative : ¬0 ≤ system.queues.heads queue := fun filled => idle ⟨isReady, filled⟩
      omega
    · exact sound.threads.unready queue isReady
  exact ⟨sound.threads.init empty, sound.blocked, sound.awake⟩

theorem QueuedTasks.Sound.entry_unique (sound : system.Sound entries)
    {first second queue other : Nat} (listed : first ∈ entries queue) (also : second ∈ entries other)
    (same : (system.queues.waiter first).taskId = (system.queues.waiter second).taskId) :
    first = second := by
  obtain ⟨task, _, named, waits⟩ := sound.blocked queue first listed
  obtain ⟨waiting, _, alsoNamed, alsoWaits⟩ := sound.blocked other second also
  obtain rfl : task = waiting := Int.natCast_inj.mp (named.symm.trans (same.trans alsoNamed))
  exact Option.some.inj (waits.2.symm.trans alsoWaits.2)

theorem block_states_of_live {smp : Smp} {task : Nat}
    (found : taskGet smp.states (task : Int) = some task) (other : Nat) :
    (smp.block task).states other = if other = task then .blocked else smp.states other := by
  unfold Smp.block
  rw [found, Smp.states, setWakeup_tasks]
  split
  next => rfl
  next => rfl

theorem QueuedTasks.Sound.join (sound : system.Sound entries) {queue index task : Nat}
    {deadline : Word} {after : WaitQueues} (busy : system.scheduling = false)
    (found : taskGet system.tasks.states system.current = some task)
    (unused : (system.queues.pool index).inUse = false)
    (threads : after.Threads system.ready (Function.update entries queue (entries queue ++ [index])))
    (waiter : after.waiter = Function.update system.queues.waiter index ⟨system.current, deadline⟩) :
    QueuedTasks.Sound {
      tasks := system.tasks.withSmp (system.tasks.machine.smp.block system.current)
      queues := after
      ready := system.ready
      blocks := Function.update system.blocks task (some index)
      scheduling := true } (Function.update entries queue (entries queue ++ [index])) := by
  obtain ⟨current, inside, _⟩ := taskGet_some.mp found
  have states : ∀ other, (system.tasks.machine.smp.block system.current).states other =
      if other = task then .blocked else system.tasks.states other := by
    rw [current] at found ⊢
    exact block_states_of_live found
  refine ⟨threads, ?_, fun impossible => by cases impossible⟩
  intro other query listed
  by_cases fresh : query = index
  · subst fresh
    refine ⟨task, inside, ?_, (states task).trans (if_pos rfl), Function.update_self _ _ _⟩
    simp [waiter, current]
  · have before : query ∈ entries other := by
      by_cases here : other = queue
      · subst here
        simpa [fresh] using listed
      · simpa [here] using listed
    obtain ⟨waiting, bound, named, waits⟩ := sound.blocked other query before
    have different : waiting ≠ task := by
      rintro rfl
      exact sound.awake busy waiting current waits.1
    refine ⟨waiting, bound, ?_, (states waiting).trans ((if_neg different).trans waits.1),
      (Function.update_of_ne different _ _).trans waits.2⟩
    simp [waiter, fresh, named]

theorem QueuedTasks.Sound.wait (sound : system.Sound entries) {queue : Nat} {deadline : Word}
    (may : system.mayWait queue) {wq : WqSystem}
    (waited : (if system.wq.smp.current 0 < 0 then some system.wq
      else system.wq.wait 0 queue deadline) = some wq)
    (alive : 0 ≤ system.current → (poolAlloc system.queues).2 ≠ none →
      taskGet system.tasks.states system.current ≠ none) :
    ∃ entries, (system.waited wq).Sound entries := by
  obtain ⟨_, busy, isReady⟩ := may
  have unchanged : system.withWq system.wq = system := rfl
  by_cases idle : system.wq.smp.current 0 < 0
  · rw [if_pos idle, Option.some.injEq] at waited
    subst waited
    have nobody : taskGet system.tasks.states system.current = none := if_pos (Or.inl idle)
    have runs : decide (0 ≤ system.current) = false :=
      decide_eq_false (Int.not_le.mpr idle)
    refine ⟨entries, ?_⟩
    rw [QueuedTasks.waited, nobody, runs, unchanged]
    split
    next => contradiction
    next => exact ⟨sound.threads, sound.blocked, fun _ => sound.awake busy⟩
    next => exact sound
  · rw [if_neg idle] at waited
    rcases poolAlloc_cases system.queues with ⟨full, exhausted⟩ | ⟨index, bound, unused, allocated⟩
    · have same : system.wq.wait 0 queue deadline = some system.wq := by
        simp only [WqSystem.wait, if_neg idle]
        rw [show poolAlloc system.wq.queues = (system.queues, none) from exhausted]
      obtain rfl := Option.some.inj (waited.symm.trans same)
      refine ⟨entries, ?_⟩
      rw [QueuedTasks.waited, exhausted, unchanged]
      split
      next impossible => cases impossible
      next impossible => cases impossible
      next => exact sound
    · obtain ⟨after, joined, threads, waiter⟩ := wait_alloc sound.wqThreads isReady
        deadline idle bound unused allocated
      obtain rfl := Option.some.inj (waited.symm.trans joined)
      obtain ⟨task, found⟩ := Option.ne_none_iff_exists'.mp
        (alive (Int.not_lt.mp idle) (by simp [allocated]))
      have joins := sound.join busy found unused threads waiter
      rw [QueuedTasks.waited, found, allocated]
      exact ⟨_, joins⟩

def QueuedTasks.Woken (system : QueuedTasks) (entries : Nat → List Nat) (gone : Nat → Prop)
    (task : Nat) : Prop :=
  system.wq.smp.Wakes (fun taskId => ∃ queue, ∃ index ∈ entries queue,
    gone index ∧ taskId = (system.queues.waiter index).taskId) task

/-- `after` is `system` once the entries in `gone` have been taken out and their tasks woken. -/
structure QueuedTasks.Wakes (system : QueuedTasks) (entries : Nat → List Nat) (gone : Nat → Prop)
    (after : QueuedTasks) : Prop where
  same : after.ready = system.ready ∧ after.blocks = system.blocks ∧
    after.scheduling = system.scheduling ∧ after.current = system.current
  left : ∃ rest, after.queues.Threads system.ready rest ∧
    ∀ queue index, index ∈ rest queue ↔ index ∈ entries queue ∧ ¬gone index
  waiter : after.queues.waiter = system.queues.waiter
  woken : ∀ task, system.Woken entries gone task → after.tasks.states task = .ready
  others : ∀ task, ¬system.Woken entries gone task →
    after.tasks.states task = system.tasks.states task

theorem wakes_of_wakeTasks {gone : Nat → Prop} (reason : Int) {wq : WqSystem}
    {rest : Nat → List Nat} (threads : wq.queues.Threads system.ready rest)
    (listed : ∀ queue index, index ∈ rest queue ↔ index ∈ entries queue ∧ ¬gone index)
    (waiter : wq.queues.waiter = system.queues.waiter)
    (smp : wq.smp = system.wq.smp.wakeTasks (fun taskId => ∃ queue, ∃ index ∈ entries queue,
      gone index ∧ taskId = (system.queues.waiter index).taskId) reason) :
    system.Wakes entries gone (system.withWq wq) := by
  have states : ∀ task, (system.withWq wq).tasks.states task = wq.smp.states task := fun _ => rfl
  refine ⟨⟨rfl, rfl, rfl, ?_⟩, ⟨rest, threads, listed⟩, waiter, ?_, ?_⟩
  · have percpu : wq.smp.percpu = system.wq.smp.percpu := by
      rw [smp]
      rfl
    exact congrArg (fun percpu => (percpu 0).currentTaskId) percpu
  · intro task wakes
    rw [states, smp, Smp.states, wakeTasks_wakes reason wakes]
  · intro task sleeps
    rw [states, smp, Smp.states, wakeTasks_other reason sleeps]
    rfl

theorem QueuedTasks.Wakes.sound {gone : Nat → Prop} {after : QueuedTasks}
    (wakes : system.Wakes entries gone after) (sound : system.Sound entries) :
    ∃ entries, after.Sound entries := by
  obtain ⟨⟨ready, blocks, scheduling, current⟩, ⟨rest, threads, listed⟩, waiter, woken, others⟩ :=
    wakes
  refine ⟨rest, ready ▸ threads, ?_, ?_⟩
  · intro queue index remains
    obtain ⟨before, stays⟩ := (listed queue index).mp remains
    obtain ⟨task, bound, named, waits⟩ := sound.blocked queue index before
    refine ⟨task, bound, by rw [waiter, named], ?_, by rw [blocks, waits.2]⟩
    refine (others task ?_).trans waits.1
    rintro ⟨_, _, other, removed, also, isGone, sameTask⟩
    obtain rfl := sound.entry_unique before also (named.trans sameTask)
    exact stays isGone
  · intro busy task runs blocked
    by_cases wakesUp : system.Woken entries gone task
    · rw [woken task wakesUp] at blocked
      cases blocked
    · exact sound.awake (scheduling ▸ busy) task (current ▸ runs)
        ((others task wakesUp).symm.trans blocked)

theorem QueuedTasks.Wakes.readies {gone : Nat → Prop} {after : QueuedTasks}
    (wakes : system.Wakes entries gone after) (sound : system.Sound entries) {task : Nat}
    (readies : system.Readies after task) :
    ∃ queue, ∃ index ∈ entries queue, gone index ∧ system.BlockedOn task index ∧
      (system.queues.waiter index).taskId = task := by
  obtain ⟨blocked, ready⟩ := readies
  by_cases woken : system.Woken entries gone task
  · obtain ⟨_, _, queue, index, listed, isGone, named⟩ := woken
    obtain ⟨waiting, _, alsoNamed, waits⟩ := sound.blocked queue index listed
    obtain rfl : waiting = task := Int.natCast_inj.mp (alsoNamed.symm.trans named.symm)
    exact ⟨queue, index, listed, isGone, waits, alsoNamed⟩
  · rw [wakes.others task woken, blocked] at ready
    cases ready

theorem QueuedTasks.Sound.waitsOn (sound : system.Sound entries) {queue index task : Nat}
    (listed : index ∈ entries queue) (waits : system.BlockedOn task index) :
    system.WaitsOn task queue := by
  have bound := sound.threads.inside queue index listed
  exact ⟨index, bound, waits, (sound.threads.inUse index bound).mpr
    ⟨queue, sound.threads.ready_of_mem listed, listed⟩, sound.threads.owner queue index listed⟩

theorem QueuedTasks.Sound.waitsOn_listed (sound : system.Sound entries) {queue task : Nat}
    (waits : system.WaitsOn task queue) :
    ∃ index ∈ entries queue, system.BlockedOn task index := by
  obtain ⟨index, bound, blocked, used, owner⟩ := waits
  obtain ⟨other, _, listed⟩ := (sound.threads.inUse index bound).mp used
  obtain rfl : other = queue :=
    Option.some.inj ((sound.threads.owner other index listed).symm.trans owner)
  exact ⟨index, listed, blocked⟩

theorem QueuedTasks.Sound.wakeOne (sound : system.Sound entries) {queue : Nat}
    {after : QueuedTasks}
    (stepped : system.step pgdTable taskTrampoline (.wakeOne queue) = some after) :
    (∃ entries, after.Sound entries) ∧ WakesWaiters system (.wakeOne queue) after := by
  simp only [QueuedTasks.step, Option.ite_none_right_eq_some, Option.map_eq_some_iff] at stepped
  obtain ⟨isReady, wq, woken, rfl⟩ := stepped
  rcases wakeOne_spec sound.wqThreads isReady with
    ⟨empty, stays⟩ | ⟨index, rest, after, listed, woke, removes⟩
  · obtain rfl := Option.some.inj (woken.symm.trans stays)
    refine ⟨⟨entries, sound⟩, ?_, ?_⟩
    · rintro task ⟨blocked, ready⟩
      cases blocked.symm.trans ready
    · rintro ⟨task, waits⟩
      obtain ⟨index, listed, _⟩ := sound.waitsOn_listed waits
      rw [empty] at listed
      exact absurd listed List.not_mem_nil
  · obtain rfl := Option.some.inj (woken.symm.trans woke)
    have first : index ∈ entries queue := by simp [listed]
    have wakes : system.Wakes entries (· = index) (system.withWq wq) := by
      refine wakes_of_wakeTasks 0 removes.threads ?_ removes.waiter ?_
      · exact fun other query => mem_withoutEntry
      · rw [removes.smp, wake_eq]
        refine wakeTasks_congr 0 fun taskId => ?_
        constructor
        · exact fun same => ⟨queue, index, first, rfl, same⟩
        · rintro ⟨_, _, _, rfl, same⟩
          exact same
    obtain ⟨head, bound, named, waits⟩ := sound.blocked queue index first
    refine ⟨wakes.sound sound, ?_, ?_⟩
    · intro task readies
      obtain ⟨_, _, _, rfl, waiting, _⟩ := wakes.readies sound readies
      exact ⟨_, (sound.threads.head listed).1, waiting⟩
    · intro _
      have wakesHead : system.Woken entries (· = index) head :=
        ⟨bound, waits.1, queue, index, first, rfl, named.symm⟩
      refine ⟨head, ⟨sound.waitsOn first waits, wakes.woken head wakesHead⟩, ?_⟩
      rintro task ⟨⟨_, _, waiting, _⟩, ready⟩
      obtain ⟨_, _, _, rfl, _, taskNamed⟩ := wakes.readies sound ⟨waiting.1, ready⟩
      exact Int.natCast_inj.mp (taskNamed.symm.trans named)

/-- Whatever the queues hold, a wake-up readies tasks of the table only. -/
theorem wakeOne_readies {queue : Nat} {after : QueuedTasks}
    (stepped : system.step pgdTable taskTrampoline (.wakeOne queue) = some after) {task : Nat}
    (readies : system.Readies after task) : task < maxTasks := by
  simp only [QueuedTasks.step, Option.ite_none_right_eq_some, Option.map_eq_some_iff] at stepped
  obtain ⟨_, wq, woken, rfl⟩ := stepped
  obtain ⟨blocked, ready⟩ := readies
  unfold WqSystem.wakeOne at woken
  split at woken
  · obtain rfl := Option.some.inj woken
    cases blocked.symm.trans ready
  · obtain ⟨index, _, rfl⟩ := Option.map_eq_some_iff.mp woken
    by_cases wakes : system.wq.smp.Wakes (· = (system.queues.pool index).taskId) task
    · exact wakes.1
    · have same : (system.wq.smp.wake (system.queues.pool index).taskId 0).tasks task =
          system.wq.smp.tasks task := by
        rw [wake_eq, wakeTasks_other 0 wakes]
      cases blocked.symm.trans ((congrArg Task.state same).symm.trans ready)

theorem QueuedTasks.Sound.wakeAll (sound : system.Sound entries) {queue : Nat}
    {after : QueuedTasks}
    (stepped : system.step pgdTable taskTrampoline (.wakeAll queue) = some after) :
    (∃ entries, after.Sound entries) ∧ WakesWaiters system (.wakeAll queue) after := by
  simp only [QueuedTasks.step, Option.ite_none_right_eq_some, Option.map_eq_some_iff] at stepped
  obtain ⟨isReady, wq, woken, rfl⟩ := stepped
  obtain ⟨after, woke, left, smp, waiter⟩ := wakeAll_spec sound.wqThreads isReady
  obtain rfl := Option.some.inj (woken.symm.trans woke)
  have wakes : system.Wakes entries (· ∈ entries queue) (system.withWq wq) := by
    refine wakes_of_wakeTasks 0 left ?_ waiter ?_
    · intro other index
      by_cases here : other = queue
      · subst here
        simp
      · rw [Function.update_of_ne here]
        refine (and_iff_left_of_imp fun listed also => ?_).symm
        exact here (sound.threads.apart listed also)
    · rw [smp]
      refine wakeTasks_congr 0 fun taskId => ?_
      constructor
      · rintro ⟨index, listed, same⟩
        exact ⟨queue, index, listed, listed, same⟩
      · rintro ⟨_, index, _, listed, same⟩
        exact ⟨index, listed, same⟩
  refine ⟨wakes.sound sound, fun task readies => ?_⟩
  obtain ⟨_, index, _, listed, waits, _⟩ := wakes.readies sound readies
  exact sound.waitsOn listed waits

theorem QueuedTasks.Sound.tick (sound : system.Sound entries) {now : Word} {after : QueuedTasks}
    (stepped : system.step pgdTable taskTrampoline (.tick now) = some after) :
    (∃ entries, after.Sound entries) ∧ WakesWaiters system (.tick now) after := by
  simp only [QueuedTasks.step, Option.map_eq_some_iff] at stepped
  obtain ⟨wq, ticked, rfl⟩ := stepped
  obtain ⟨after, expires, left, smp, waiter⟩ := tick_spec sound.wqThreads now
  obtain rfl := Option.some.inj (ticked.symm.trans expires)
  have wakes : system.Wakes entries (fun index => (system.queues.waiter index).Expired now)
      (system.withWq wq) := by
    refine wakes_of_wakeTasks (-1) left ?_ waiter smp
    intro queue index
    rw [List.mem_filter, decide_eq_true_iff]
    rfl
  refine ⟨wakes.sound sound, fun task readies => ?_⟩
  obtain ⟨queue, index, listed, expired, waits, _⟩ := wakes.readies sound readies
  obtain ⟨query, bound, blocked, used, _⟩ := sound.waitsOn listed waits
  obtain rfl : index = query := Option.some.inj (waits.2.symm.trans blocked.2)
  exact ⟨index, bound, waits, used, expired⟩

theorem QueuedTasks.Sound.step {action : QueuedAction} {after : QueuedTasks}
    (before : ∃ entries, system.Sound entries)
    (stepped : system.step pgdTable taskTrampoline action = some after)
    (leaves : LeavesNoEntry system action after) :
    (∃ entries, after.Sound entries) ∧ WakesWaiters system action after := by
  obtain ⟨entries, sound⟩ := before
  cases action with
  | create name entry =>
      obtain rfl := Option.some.inj stepped
      exact ⟨⟨entries, sound.create name entry⟩, trivial⟩
  | destroy taskId =>
      obtain rfl := Option.some.inj stepped
      exact ⟨⟨entries, sound.destroy leaves⟩, trivial⟩
  | schedule => exact ⟨⟨entries, sound.schedule stepped⟩, trivial⟩
  | contextSwitch => exact ⟨⟨entries, sound.contextSwitch stepped⟩, trivial⟩
  | init queue => exact ⟨⟨entries, sound.init stepped⟩, trivial⟩
  | wait queue =>
      simp only [QueuedTasks.step, Option.ite_none_right_eq_some, Option.map_eq_some_iff] at stepped
      obtain ⟨may, wq, waited, rfl⟩ := stepped
      exact ⟨sound.wait may waited leaves, trivial⟩
  | waitTimeout queue now ticks =>
      simp only [QueuedTasks.step, Option.ite_none_right_eq_some, Option.map_eq_some_iff] at stepped
      obtain ⟨may, wq, waited, rfl⟩ := stepped
      exact ⟨sound.wait may waited leaves, trivial⟩
  | wakeOne queue => exact sound.wakeOne stepped
  | wakeAll queue => exact sound.wakeAll stepped
  | tick now => exact sound.tick stepped

/-- In the runs in which no task is destroyed while an entry names it, and none waits after
it has been destroyed, every wake-up readies the tasks that wait for it. -/
theorem wakeups_reach_waiters {image : KernelImage} (tables : KernelTables image) (mm : Mm)
    (queues : WaitQueues) (taskTrampoline : Word) (actions : List QueuedAction)
    (leaves : Transition.EveryStep (QueuedTasks.step tables.pgdTable taskTrampoline)
      LeavesNoEntry (.boot tables mm queues) actions) :
    Transition.EveryStep (QueuedTasks.step tables.pgdTable taskTrampoline) WakesWaiters
      (.boot tables mm queues) actions := by
  have keeps : ∀ (system : QueuedTasks) action after, (∃ entries, system.Sound entries) →
      system.step tables.pgdTable taskTrampoline action = some after →
      LeavesNoEntry system action after →
      (∃ entries, after.Sound entries) ∧ WakesWaiters system action after :=
    fun _ _ _ => QueuedTasks.Sound.step
  exact Transition.everyStep_of_guard keeps ⟨_, boot_queued tables mm queues⟩ leaves

def emptyQueues : WaitQueues := ⟨fun _ => ⟨0, 0, 0, false, none⟩, fun _ => -1⟩

abbrev queuedStep : QueuedTasks → QueuedAction → Option QueuedTasks :=
  QueuedTasks.step smallTables.pgdTable 0

def queuedBoot : QueuedTasks := .boot smallTables smallMm emptyQueues

/-- Task 1 waits on queue 0, is woken, destroyed and created anew. -/
def reusedUnqueued : List QueuedAction := [.init 0, .create [] 0, .create [] 0, .schedule,
  .contextSwitch, .wait 0, .schedule, .contextSwitch, .wakeOne 0, .destroy 1, .create [] 0]

theorem wakeups_reach_waiters_reused :
    Transition.EveryStep queuedStep WakesWaiters queuedBoot reusedUnqueued :=
  wakeups_reach_waiters smallTables smallMm emptyQueues 0 reusedUnqueued <| by
    have checked : Transition.checkSteps queuedStep
        (fun system action => decide (LeavesNoEntry system action system)) queuedBoot
        reusedUnqueued = true := by decide +kernel
    exact (Transition.checkSteps_iff.mp checked).mono fun system action after met =>
      of_decide_eq_true met

/-- Tasks 1 and 2 wait on queue 0, and task 1 is destroyed. The wake-up takes the entry that
task 1 has left, and task 2 stays blocked. -/
theorem destroyedWaiter_takes_wakeup :
    ¬∀ actions, Transition.EveryStep queuedStep WakesWaiters queuedBoot actions := by
  intro all
  have taken : (Transition.exec queuedStep queuedBoot [.init 0, .create [] 0, .create [] 0,
      .create [] 0, .schedule, .contextSwitch, .wait 0, .schedule, .contextSwitch, .wait 0,
      .schedule, .contextSwitch, .destroy 1]).any (fun system =>
        (queuedStep system (.wakeOne 0)).any fun after => decide (
          (system.BlockedOn 2 1 ∧ (system.queues.pool 1).inUse = true ∧
            (system.queues.pool 1).owner = some 0) ∧
          ∀ task < maxTasks, ¬system.Readies after task)) = true := by
    decide +kernel
  obtain ⟨system, run, woken⟩ := (Option.any_eq_true _ _).mp taken
  obtain ⟨after, stepped, facts⟩ := (Option.any_eq_true _ _).mp woken
  obtain ⟨⟨waits, used, owner⟩, none⟩ := of_decide_eq_true facts
  obtain ⟨task, ⟨⟨_, _, blocked, _⟩, ready⟩, _⟩ :=
    ((all _).snoc run stepped).2 ⟨2, 1, by decide, waits, used, owner⟩
  have readies : system.Readies after task := ⟨blocked.1, ready⟩
  exact none task (wakeOne_readies stepped readies) readies

end DragoonKernel
