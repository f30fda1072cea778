import DragoonKernel.Library.Transition
import DragoonKernel.TaskAsids
import DragoonKernel.TaskCreation

/-!
Calls of `task_create` on several CPUs. The scan for a dead slot and the completion that
fills it are two steps, and no lock covers them.
-/

namespace DragoonKernel

structure PendingCreate where
  slot : Nat
  name : List UInt8
  entry : Word

/-- What a successful call returned, and what it put into its slot. -/
structure CreateResult where
  id : Nat
  entry : Word
  stackBase : Nat
  addressSpace : AddressSpace

structure CreateSystem where
  tasks : TaskSystem
  pending : Nat → Option PendingCreate
  results : List CreateResult

inductive CreateAction where
  | scan (cpu : Nat) (name : List UInt8) (entry : Word)
  | complete (cpu : Nat)

def CreateSystem.idle (tasks : TaskSystem) : CreateSystem := ⟨tasks, fun _ => none, []⟩

def CreateSystem.ids (system : CreateSystem) : List Nat := system.results.map CreateResult.id

def CreateSystem.completed (system : CreateSystem) (cpu : Nat) (call : PendingCreate)
    (tasks : TaskSystem) (id : Int) : CreateSystem where
  tasks := tasks
  pending := Function.update system.pending cpu none
  results :=
    if 0 ≤ id then
      let task := tasks.machine.smp.tasks id.toNat
      ⟨id.toNat, call.entry, task.stackBase, task.addressSpace⟩ :: system.results
    else system.results

def CreateSystem.step (cpus pgdTable : Nat) (taskTrampoline : Word) (system : CreateSystem) :
    CreateAction → Option CreateSystem
  | .scan cpu name entry =>
      if cpu < cpus ∧ system.pending cpu = none then
        match freeSlot system.tasks.states with
        | some slot =>
            let call := ⟨slot, name, entry⟩
            some { system with pending := Function.update system.pending cpu (some call) }
        | none => some system
      else none
  | .complete cpu =>
      match system.pending cpu with
      | some call =>
          match system.tasks.createIn pgdTable taskTrampoline call.slot call.name call.entry with
          | (tasks, id) => some (system.completed cpu call tasks id)
      | none => none

structure CreateResult.Kept (result : CreateResult) (tasks : TaskSystem) : Prop where
  live : tasks.states result.id ≠ .dead
  entry : (tasks.machine.smp.tasks result.id).ctx.x19 = result.entry
  stackBase : (tasks.machine.smp.tasks result.id).stackBase = result.stackBase
  addressSpace : (tasks.machine.smp.tasks result.id).addressSpace = result.addressSpace

structure SlotsApart (system : CreateSystem) : Prop where
  distinct : system.ids.Nodup
  kept : ∀ result ∈ system.results, result.Kept system.tasks
  stackUsed : ∀ result ∈ system.results, ∃ task, system.tasks.states task ≠ .dead ∧
    (system.tasks.machine.smp.tasks task).stackBase = result.stackBase
  tableUsed : ∀ result ∈ system.results, ∃ task, system.tasks.states task ≠ .dead ∧
    (system.tasks.machine.smp.tasks task).addressSpace.pgd = result.addressSpace.pgd

/-- The condition at each completion: the slot of the scan is still dead. -/
def FillsDeadSlot (system : CreateSystem) (action : CreateAction) (_ : CreateSystem) : Prop :=
  match action with
  | .scan _ _ _ => True
  | .complete cpu => ∀ call, system.pending cpu = some call →
      system.tasks.states call.slot = .dead

/-- A slot that was picked is dead until a call has succeeded with it. -/
structure CreatesApart (system : CreateSystem) : Prop where
  distinct : system.ids.Nodup
  kept : ∀ result ∈ system.results, result.Kept system.tasks
  picked : ∀ cpu call, system.pending cpu = some call →
    system.tasks.states call.slot = .dead ∨ call.slot ∈ system.ids

theorem CreatesApart.slotsApart {system : CreateSystem} (apart : CreatesApart system) :
    SlotsApart system := by
  refine ⟨apart.distinct, apart.kept, ?_, ?_⟩
  · intro result listed
    have kept := apart.kept result listed
    exact ⟨result.id, kept.live, kept.stackBase⟩
  · intro result listed
    have kept := apart.kept result listed
    exact ⟨result.id, kept.live, congrArg AddressSpace.pgd kept.addressSpace⟩

variable {cpus pgdTable cpu : Nat} {taskTrampoline : Word} {system after : CreateSystem}

theorem CreatesApart.scan (apart : CreatesApart system) {name : List UInt8} {entry : Word}
    (stepped : system.step cpus pgdTable taskTrampoline (.scan cpu name entry) = some after) :
    CreatesApart after := by
  simp only [CreateSystem.step, Option.ite_none_right_eq_some] at stepped
  obtain ⟨_, stepped⟩ := stepped
  split at stepped
  next slot found =>
    obtain rfl := Option.some.inj stepped
    refine ⟨apart.distinct, apart.kept, ?_⟩
    intro other call pending
    by_cases here : other = cpu
    · subst here
      obtain rfl : _ = call := by simpa using pending
      exact Or.inl (freeSlot_some found).1
    · exact apart.picked other call (by simpa [here] using pending)
  next =>
    obtain rfl := Option.some.inj stepped
    exact apart

@[simp] theorem completed_results (system : CreateSystem) (cpu : Nat) (call : PendingCreate)
    (tasks : TaskSystem) (slot : Nat) :
    (system.completed cpu call tasks slot).results =
      ⟨slot, call.entry, (tasks.machine.smp.tasks slot).stackBase,
        (tasks.machine.smp.tasks slot).addressSpace⟩ :: system.results := by
  simp [CreateSystem.completed]

theorem complete_cases
    (stepped : system.step cpus pgdTable taskTrampoline (.complete cpu) = some after) :
    ∃ call, system.pending cpu = some call ∧
      after.pending = Function.update system.pending cpu none ∧
      ((CreateFailed system.tasks call.slot after.tasks ∧ after.results = system.results) ∨
        (CreateSucceeded taskTrampoline system.tasks call.slot call.entry after.tasks ∧
          ∃ result : CreateResult, after.results = result :: system.results ∧
            result.id = call.slot ∧ result.Kept after.tasks)) := by
  simp only [CreateSystem.step] at stepped
  split at stepped
  next call pending =>
    refine ⟨call, pending, ?_⟩
    rcases createIn_cases pgdTable taskTrampoline system.tasks call.slot call.name call.entry with
      ⟨tasks, result, failed⟩ | ⟨tasks, result, succeeded⟩
    · rw [result] at stepped
      obtain rfl := Option.some.inj stepped
      exact ⟨rfl, Or.inl ⟨failed, rfl⟩⟩
    · rw [result] at stepped
      obtain rfl := Option.some.inj stepped
      have filled : (tasks.machine.smp.tasks call.slot).state = .ready ∧
          (tasks.machine.smp.tasks call.slot).ctx.x19 = call.entry := by
        obtain ⟨⟨task, _, _, ready, context, _, _, smp, _⟩, _⟩ := succeeded
        have here : tasks.machine.smp.tasks call.slot = task := by
          rw [smp]
          exact Function.update_self _ _ _
        exact ⟨by rw [here, ready], by rw [here, context]; rfl⟩
      refine ⟨rfl, Or.inr ⟨succeeded, _, completed_results _ _ _ _ _, rfl, ?_, filled.2, rfl, rfl⟩⟩
      have ready : tasks.states call.slot = .ready := filled.1
      simp [CreateSystem.completed, ready]
  next => cases stepped

theorem CreateResult.Kept.elsewhere {result : CreateResult} {tasks after : TaskSystem}
    (kept : result.Kept tasks)
    (same : after.machine.smp.tasks result.id = tasks.machine.smp.tasks result.id) :
    result.Kept after := by
  refine ⟨?_, by rw [same, kept.entry], by rw [same, kept.stackBase], by rw [same, kept.addressSpace]⟩
  rw [TaskSystem.states, Smp.states, same]
  exact kept.live

theorem CreatesApart.complete (apart : CreatesApart system)
    (stepped : system.step cpus pgdTable taskTrampoline (.complete cpu) = some after)
    (stillDead : FillsDeadSlot system (.complete cpu) after) : CreatesApart after := by
  obtain ⟨call, pending, left, outcome⟩ := complete_cases stepped
  have vacant : system.tasks.states call.slot = .dead := stillDead call pending
  have unused : ∀ result ∈ system.results, result.id ≠ call.slot := by
    intro result listed same
    exact (apart.kept result listed).live (same ▸ vacant)
  have waiting : ∀ other waits, after.pending other = some waits →
      system.tasks.states waits.slot = .dead ∨ waits.slot ∈ system.ids := by
    intro other waits waiting
    rw [left] at waiting
    by_cases here : other = cpu
    · simp [here] at waiting
    · exact apart.picked other waits (by simpa [here] using waiting)
  rcases outcome with ⟨failed, same⟩ | ⟨succeeded, fresh, more, id, freshKept⟩
  · have untouched := failed.untouched vacant
    refine ⟨by rw [CreateSystem.ids, same]; exact apart.distinct, ?_, ?_⟩
    · intro result listed
      rw [same] at listed
      have kept := apart.kept result listed
      exact kept.elsewhere (untouched.live _ kept.live)
    · intro other waits pendingNext
      rw [CreateSystem.ids, same]
      exact (waiting other waits pendingNext).imp_left (untouched.dead waits.slot)
  · have created := succeeded.taskCreated vacant
    refine ⟨?_, ?_, ?_⟩
    · rw [CreateSystem.ids, more, List.map_cons, List.nodup_cons]
      refine ⟨fun again => ?_, apart.distinct⟩
      obtain ⟨result, listed, same⟩ := List.mem_map.mp again
      exact unused result listed (same.trans id)
    · intro result listed
      rw [more, List.mem_cons] at listed
      rcases listed with rfl | listed
      · exact freshKept
      · exact (apart.kept result listed).elsewhere (created.others _ (unused result listed))
    · intro other waits pendingNext
      rw [CreateSystem.ids, more, List.map_cons, List.mem_cons, id]
      by_cases here : waits.slot = call.slot
      · exact Or.inr (Or.inl here)
      · rcases waiting other waits pendingNext with dead | listed
        · left
          rw [TaskSystem.states, Smp.states, created.others _ here]
          exact dead
        · exact Or.inr (Or.inr listed)

/-- A completion in a slot that another call has filled returns the same id again, or
clears the task that the other call returned. -/
theorem CreatesApart.spoiled (apart : CreatesApart system)
    (stepped : system.step cpus pgdTable taskTrampoline (.complete cpu) = some after)
    (refilled : ¬FillsDeadSlot system (.complete cpu) after) : ¬SlotsApart after := by
  intro good
  obtain ⟨call, pending, _, outcome⟩ := complete_cases stepped
  have live : system.tasks.states call.slot ≠ .dead := by
    intro vacant
    refine refilled fun other same => ?_
    obtain rfl : call = other := Option.some.inj (pending.symm.trans same)
    exact vacant
  have taken : call.slot ∈ system.ids := (apart.picked cpu call pending).resolve_left live
  rcases outcome with ⟨failed, same⟩ | ⟨_, fresh, more, id, _⟩
  · obtain ⟨result, listed, here⟩ := List.mem_map.mp taken
    obtain ⟨⟨task, dead, _, smp⟩, _⟩ := failed
    refine (good.kept result (same ▸ listed)).live ?_
    rw [TaskSystem.states, smp, here, (setTask_fills _ _ _).states, if_pos rfl, dead]
  · have distinct := good.distinct
    rw [CreateSystem.ids, more, List.map_cons, id] at distinct
    exact (List.nodup_cons.mp distinct).1 taken

theorem createsApart_idle (tasks : TaskSystem) : CreatesApart (.idle tasks) := by
  refine ⟨List.nodup_nil, ?_, ?_⟩
  · intro result listed
    exact absurd listed List.not_mem_nil
  · intro cpu call pending
    cases pending

/-- Calls on different CPUs return different slots, and each created task stays as its call
made it, exactly in the runs in which every completion finds its slot still dead. -/
theorem taskCreate_slots_apart_iff (cpus pgdTable : Nat) (taskTrampoline : Word)
    (tasks : TaskSystem) (actions : List CreateAction) :
    Transition.EveryState (CreateSystem.step cpus pgdTable taskTrampoline) SlotsApart
        (.idle tasks) actions ↔
      Transition.EveryStep (CreateSystem.step cpus pgdTable taskTrampoline) FillsDeadSlot
        (.idle tasks) actions := by
  have keeps : ∀ (system : CreateSystem) action after, CreatesApart system →
      system.step cpus pgdTable taskTrampoline action = some after →
      FillsDeadSlot system action after → CreatesApart after := by
    intro system action after apart stepped stillDead
    cases action with
    | scan cpu name entry => exact apart.scan stepped
    | complete cpu => exact apart.complete stepped stillDead
  have spoils : ∀ (system : CreateSystem) action after, CreatesApart system →
      system.step cpus pgdTable taskTrampoline action = some after →
      ¬FillsDeadSlot system action after → ¬SlotsApart after := by
    intro system action after apart stepped refilled
    cases action with
    | scan cpu name entry => exact absurd trivial refilled
    | complete cpu => exact apart.spoiled stepped refilled
  exact Transition.everyState_iff_everyStep (fun _ => CreatesApart.slotsApart) keeps spoils
    (createsApart_idle tasks) actions

/-- Two CPUs pick slot 0 one after the other, and both fill it. -/
theorem twoCreates_share_slot :
    ¬∀ actions, Transition.EveryState (CreateSystem.step 2 smallTables.pgdTable 0) SlotsApart
      (.idle (TaskSystem.boot smallTables smallMm)) actions := by
  intro all
  have shared : (Transition.exec (CreateSystem.step 2 smallTables.pgdTable 0)
      (.idle (TaskSystem.boot smallTables smallMm))
      [.scan 0 [] 0, .scan 1 [] 0, .complete 0, .complete 1]).any (fun system =>
        decide (system.ids = [0, 0])) = true := by
    decide +kernel
  obtain ⟨system, run, same⟩ := (Option.any_eq_true _ _).mp shared
  have distinct := ((all _).last run).distinct
  rw [of_decide_eq_true same] at distinct
  exact absurd distinct (by decide)

end DragoonKernel
