import DragoonKernel.SchedCore

/-!
Executable model of the critical sections of `kernel/waitqueue.c`. A walk along
`next` that leaves the pool or never ends has no result.
-/

namespace DragoonKernel

def wqPoolSize : Nat := 64

structure WqEntry where
  taskId : Int
  timeoutTick : Word
  next : Int
  inUse : Bool
  owner : Option Nat

structure WaitQueues where
  pool : Nat → WqEntry
  heads : Nat → Int

def WaitQueues.modify (queues : WaitQueues) (index : Nat) (change : WqEntry → WqEntry) :
    WaitQueues :=
  { queues with pool := Function.update queues.pool index (change (queues.pool index)) }

def WaitQueues.setHead (queues : WaitQueues) (queue : Nat) (head : Int) : WaitQueues :=
  { queues with heads := Function.update queues.heads queue head }

def wqPoolInit (queues : WaitQueues) : WaitQueues :=
  { queues with pool := fun index =>
      if index < wqPoolSize then
        { queues.pool index with inUse := false, next := -1, owner := none }
      else queues.pool index }

def wqInit (queues : WaitQueues) (queue : Nat) : WaitQueues := queues.setHead queue (-1)

def poolIndex (link : Int) : Option Nat :=
  if 0 ≤ link ∧ link < wqPoolSize then some link.toNat else none

def poolAlloc (queues : WaitQueues) : WaitQueues × Option Nat :=
  match (List.range wqPoolSize).find? fun index => !(queues.pool index).inUse with
  | some index =>
      (queues.modify index fun entry => { entry with inUse := true, next := -1 }, some index)
  | none => (queues, none)

def poolFree (queues : WaitQueues) (index : Nat) : WaitQueues :=
  queues.modify index fun entry => { entry with inUse := false, owner := none }

def lastEntry (pool : Nat → WqEntry) : Nat → Nat → Option Nat
  | 0, _ => none
  | fuel + 1, index =>
      if (pool index).next < 0 then some index
      else (poolIndex (pool index).next).bind (lastEntry pool fuel)

def queueAppend (queues : WaitQueues) (queue index : Nat) : Option WaitQueues :=
  let queues := queues.modify index fun entry => { entry with next := -1 }
  if queues.heads queue < 0 then some (queues.setHead queue index)
  else do
    let head ← poolIndex (queues.heads queue)
    let last ← lastEntry queues.pool wqPoolSize head
    some (queues.modify last fun entry => { entry with next := index })

/-- The entry whose `next` is `index`, if the queue has one from `link` on. -/
def entryBefore (pool : Nat → WqEntry) (index : Nat) : Nat → Int → Option (Option Nat)
  | 0, _ => none
  | fuel + 1, link =>
      if link < 0 then some none
      else do
        let previous ← poolIndex link
        if (pool previous).next = index then some (some previous)
        else entryBefore pool index fuel (pool previous).next

def queueRemove (queues : WaitQueues) (queue index : Nat) : Option WaitQueues :=
  if queues.heads queue < 0 then some queues
  else if queues.heads queue = index then
    some (queues.setHead queue (queues.pool index).next)
  else do
    let previous ← entryBefore queues.pool index (wqPoolSize + 1) (queues.heads queue)
    match previous with
    | some previous =>
        some (queues.modify previous fun entry => { entry with next := (queues.pool index).next })
    | none => some queues

structure WqSystem where
  smp : Smp
  queues : WaitQueues

def Smp.setWakeup (smp : Smp) (task : Nat) (reason : Int) (state : TaskState) : Smp :=
  { smp with
    tasks := Function.update smp.tasks task
      { smp.tasks task with wakeupReason := reason, state := state } }

/-- `if (t && t->state == TASK_BLOCKED)` in the wake-up functions. -/
def Smp.wake (smp : Smp) (taskId reason : Int) : Smp :=
  match taskGet smp.states taskId with
  | some task => if smp.states task = .blocked then smp.setWakeup task reason .ready else smp
  | none => smp

/-- The critical section of `wq_wait` and `wq_wait_timeout`. An exhausted pool changes
nothing. -/
def WqSystem.wait (system : WqSystem) (cpu queue : Nat) (timeoutTick : Word) : Option WqSystem :=
  let taskId := system.smp.current cpu
  if taskId < 0 then none
  else match poolAlloc system.queues with
    | (_, none) => some system
    | (queues, some index) => do
        let filled := queues.modify index fun entry =>
          { entry with taskId := taskId, timeoutTick := timeoutTick, owner := some queue }
        let queues ← queueAppend filled queue index
        let smp := match taskGet system.smp.states taskId with
          | some task => system.smp.setWakeup task 0 .blocked
          | none => system.smp
        some { smp := smp, queues := queues }

/-- `wq_wait` up to its call of `schedule()`. -/
def WqSystem.wqWait (system : WqSystem) (cpu queue : Nat) : Option WqSystem :=
  if system.smp.current cpu < 0 then some system else system.wait cpu queue 0

/-- `wq_wait_timeout` up to its call of `schedule()`, at the tick `now`. -/
def WqSystem.wqWaitTimeout (system : WqSystem) (cpu queue : Nat) (now ticks : Word) :
    Option WqSystem :=
  if system.smp.current cpu < 0 then some system else system.wait cpu queue (now + ticks)

def WqSystem.wakeHead (system : WqSystem) (queue index : Nat) : WqSystem :=
  let entry := system.queues.pool index
  { smp := system.smp.wake entry.taskId 0
    queues := poolFree (system.queues.setHead queue entry.next) index }

def WqSystem.wakeOne (system : WqSystem) (queue : Nat) : Option WqSystem :=
  if system.queues.heads queue < 0 then some system
  else (poolIndex (system.queues.heads queue)).map (system.wakeHead queue)

def WqSystem.wakeAllLoop (queue : Nat) : Nat → WqSystem → Option WqSystem
  | 0, _ => none
  | fuel + 1, system =>
      if system.queues.heads queue < 0 then some system
      else (poolIndex (system.queues.heads queue)).bind fun index =>
        WqSystem.wakeAllLoop queue fuel (system.wakeHead queue index)

def WqSystem.wakeAll (system : WqSystem) (queue : Nat) : Option WqSystem :=
  WqSystem.wakeAllLoop queue (wqPoolSize + 1) system

/-- `if (wq_pool[i].owner) queue_remove(wq_pool[i].owner, i)`. -/
def WaitQueues.unlink (queues : WaitQueues) (index : Nat) : Option WaitQueues :=
  match (queues.pool index).owner with
  | some queue => queueRemove queues queue index
  | none => some queues

/-- The loop body of `wq_tick` for one entry. -/
def WqSystem.expire (now : Word) (system : WqSystem) (index : Nat) : Option WqSystem :=
  let entry := system.queues.pool index
  if !entry.inUse ∨ entry.timeoutTick = 0 ∨ now < entry.timeoutTick then some system
  else (system.queues.unlink index).map fun queues =>
    { smp := system.smp.wake entry.taskId (-1), queues := poolFree queues index }

def WqSystem.tick (system : WqSystem) (now : Word) : Option WqSystem :=
  (List.range wqPoolSize).foldlM (WqSystem.expire now) system

end DragoonKernel
