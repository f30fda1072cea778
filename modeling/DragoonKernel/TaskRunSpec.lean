import DragoonKernel.ContextSwitchSpec
import DragoonKernel.TaskLifeSpec
import DragoonKernel.TaskRunCore

/-!
The population of the task table: what each live task holds, and the memory it comes
from. Scheduling leaves the population alone; the other steps change it in five ways.
-/

namespace DragoonKernel

structure Holding where
  stackBase : Nat
  space : AddressSpace
  capTable : Nat → Int
  numCaps : Nat

structure Population where
  holdings : Nat → Option Holding
  vm : Vm

def Task.holding (task : Task) : Option Holding :=
  if task.state = .dead then none
  else some ⟨task.stackBase, task.addressSpace, task.capTable, task.numCaps⟩

def Smp.holdings (smp : Smp) (task : Nat) : Option Holding := (smp.tasks task).holding

def TaskSystem.population (system : TaskSystem) : Population :=
  ⟨system.machine.smp.holdings, system.vm⟩

theorem holdings_none {smp : Smp} {task : Nat} :
    smp.holdings task = none ↔ smp.states task = .dead := by
  simp [Smp.holdings, Task.holding, Smp.states]

theorem holdings_live {smp : Smp} {task : Nat} (live : smp.states task ≠ .dead) :
    smp.holdings task = some ⟨(smp.tasks task).stackBase, (smp.tasks task).addressSpace,
      (smp.tasks task).capTable, (smp.tasks task).numCaps⟩ :=
  if_neg live

theorem holdings_some {smp : Smp} {task : Nat} {held : Holding}
    (holds : smp.holdings task = some held) : smp.states task ≠ .dead := by
  intro dead
  rw [holdings_none.mpr dead] at holds
  cases holds

theorem holdings_eq_some {smp : Smp} {task : Nat} {held : Holding} :
    smp.holdings task = some held ↔ smp.states task ≠ .dead ∧
      held = ⟨(smp.tasks task).stackBase, (smp.tasks task).addressSpace,
        (smp.tasks task).capTable, (smp.tasks task).numCaps⟩ := by
  constructor
  · intro holds
    have live := holdings_some holds
    exact ⟨live, Option.some.inj (holds.symm.trans (holdings_live live))⟩
  · rintro ⟨live, rfl⟩
    exact holdings_live live

@[simp] theorem setTask_holdings (smp : Smp) (id : Nat) (task : Task) :
    (smp.setTask id task).holdings = Function.update smp.holdings id task.holding := by
  funext other
  by_cases here : other = id
  · subst here
    simp [Smp.holdings, Smp.setTask]
  · simp [Smp.holdings, Smp.setTask, here]

theorem setTask_holdings_same {smp : Smp} {id : Nat} {task : Task}
    (same : task.holding = (smp.tasks id).holding) :
    (smp.setTask id task).holdings = smp.holdings := by
  rw [setTask_holdings, same]
  exact Function.update_eq_self id smp.holdings

theorem setState_holdings_dead (smp : Smp) (task : Nat) :
    (smp.setState task .dead).holdings = Function.update smp.holdings task none :=
  setTask_holdings smp task { smp.tasks task with state := .dead }

theorem setState_holdings_live {smp : Smp} {task : Nat} (live : smp.states task ≠ .dead)
    {state : TaskState} (stays : state ≠ .dead) :
    (smp.setState task state).holdings = smp.holdings := by
  have same : { smp.tasks task with state := state }.holding = (smp.tasks task).holding := by
    rw [Task.holding, Task.holding, if_neg stays]
    exact (if_neg live).symm
  exact setTask_holdings_same same

@[simp] theorem setLive_holdings (smp : Smp) (taskId : Int) {state : TaskState}
    (stays : state ≠ .dead) : (smp.setLive taskId state).holdings = smp.holdings := by
  unfold Smp.setLive
  split
  next task found => exact setState_holdings_live (taskGet_some.mp found).2.2 stays
  next => rfl

@[simp] theorem save_holdings (smp : Smp) (context : TaskContext) (old : ContextRef) :
    (smp.save context old).holdings = smp.holdings := by
  cases old with
  | task id =>
      have same : { smp.tasks id with ctx := context }.holding = (smp.tasks id).holding := rfl
      exact setTask_holdings_same same
  | idle cpu => rfl
  | dead cpu => rfl

theorem oldContext_holdings (smp : Smp) (cpu : Nat) :
    (smp.oldContext cpu).1.holdings = smp.holdings := by
  unfold Smp.oldContext
  split
  · split
    next task found =>
      split
      · exact setState_holdings_live (taskGet_some.mp found).2.2 (by decide)
      · rfl
    next => rfl
  · rfl

theorem schedule_holdings (smp : Smp) (cpu : Nat) :
    (smp.schedule cpu).1.holdings = smp.holdings := by
  have started : ∀ next, findReady smp.states (scanStart (smp.current cpu)) = some next →
      ((smp.oldContext cpu).1.setState next .running).holdings = smp.holdings := by
    intro next found
    have ready := (findReady_ready found).1
    have live : (smp.oldContext cpu).1.states next ≠ .dead := by
      rw [Ne, ← holdings_none, oldContext_holdings, holdings_none, ready]
      decide
    rw [setState_holdings_live live (by decide), oldContext_holdings]
  rcases schedule_cases smp cpu with ⟨_, _, same⟩ | ⟨_, _, same⟩ | ⟨next, found, _, same⟩ |
    ⟨next, found, _, same⟩
  · rw [same, oldContext_holdings]
  · rw [same]
    exact oldContext_holdings smp cpu
  · rw [same]
    exact started next found
  · rw [same]
    exact started next found

/-- The actions that change what the live tasks hold, apart from `map`. -/
def TaskSystem.Changes (pgdTable : Nat) (system : TaskSystem) : TaskAction → Prop
  | .create _ _ => freeSlot system.states ≠ none ∧ CreateFits pgdTable system.vm
  | .destroy taskId => taskGet system.states taskId ≠ none
  | .taskExitHandler cpu | .sysExit cpu =>
      system.states (system.machine.smp.current cpu).toNat ≠ .dead
  | _ => False

def stackPages : Nat := taskStackSize / pageSize

inductive Lifecycle (pgdTable : Nat) (system : TaskSystem) : TaskAction → Population → Prop where
  | keeps {action : TaskAction} (still : ¬system.Changes pgdTable action) :
      Lifecycle pgdTable system action system.population
  | exits {action : TaskAction} {cpu task : Nat} {held : Holding}
      (exit : action = .taskExitHandler cpu ∨ action = .sysExit cpu)
      (current : system.machine.smp.current cpu = task)
      (live : system.population.holdings task = some held) :
      Lifecycle pgdTable system action
        { system.population with
          holdings := Function.update system.population.holdings task none }
  | destroys {task : Nat} {held : Holding} (live : system.population.holdings task = some held) :
      Lifecycle pgdTable system (.destroy task)
        { holdings := Function.update system.population.holdings task none
          vm := (vmDestroy { system.vm with
            mm := system.vm.mm.pagesFree held.stackBase stackPages } held.space).1 }
  | lacksStack {name : List UInt8} {entry : Word} {vm : Vm} {space : AddressSpace}
      (made : vmCreate pgdTable system.vm ⟨0, 0⟩ = (vm, space, 0))
      (missing : vm.mm.pagesAlloc stackPages = (vm.mm, none)) :
      Lifecycle pgdTable system (.create name entry)
        { system.population with vm := (vmDestroy vm space).1 }
  | creates {name : List UInt8} {entry : Word} {slot stack : Nat} {vm : Vm}
      {space : AddressSpace} {mm : Mm} {capTable : Nat → Int}
      (found : freeSlot system.states = some slot)
      (made : vmCreate pgdTable system.vm ⟨0, 0⟩ = (vm, space, 0))
      (allocated : vm.mm.pagesAlloc stackPages = (mm, some stack)) :
      Lifecycle pgdTable system (.create name entry)
        { holdings := Function.update system.population.holdings slot
            (some ⟨stack, space, capTable, 0⟩)
          vm := { vm with mm := mm } }
  | maps {task vaddr paddr : Nat} {flags : Word} {held : Holding}
      (live : system.population.holdings task = some held) (bound : vaddr < 2 ^ 48)
      (ownHalf : tableIndex vaddr 39 ≠ 0) :
      Lifecycle pgdTable system (.map task vaddr paddr flags)
        { system.population with vm := { system.vm with
          mm := system.vm.mm.mapPage held.space.pgd vaddr paddr flags } }

def Population.Inside (population : Population) : Prop :=
  ∀ task held, population.holdings task = some held → task < maxTasks

variable {cpus pgdTable : Nat} {taskTrampoline : Word} {system after : TaskSystem}

theorem exit_lifecycle {action : TaskAction} {cpu : Nat}
    (exit : action = .taskExitHandler cpu ∨ action = .sysExit cpu)
    (runs : system.runsTask cpus cpu) {next : TaskSystem} (vm : next.vm = system.vm)
    (smp : next.machine.smp =
      system.machine.smp.setState (system.machine.smp.current cpu).toNat .dead) :
    Lifecycle pgdTable system action next.population := by
  obtain ⟨task, current⟩ := Int.eq_ofNat_of_zero_le runs.2.2
  have after : next.population = { system.population with
      holdings := Function.update system.population.holdings task none } := by
    rw [TaskSystem.population, smp, vm, current, Int.toNat_natCast, setState_holdings_dead]
    rfl
  rw [after]
  by_cases dead : system.states task = .dead
  · have same : Function.update system.population.holdings task none =
        system.population.holdings := by
      rw [← holdings_none.mpr dead]
      exact Function.update_eq_self task _
    rw [same]
    apply Lifecycle.keeps
    rcases exit with rfl | rfl <;> simp [TaskSystem.Changes, current, dead]
  · exact .exits exit current (holdings_live dead)

theorem sysExit_smp (inside : system.population.Inside) {cpu : Nat}
    (runs : system.runsTask cpus cpu) :
    (system.sysExit cpu).vm = system.vm ∧
      (system.sysExit cpu).machine.smp =
        system.machine.smp.setState (system.machine.smp.current cpu).toNat .dead := by
  obtain ⟨task, current⟩ := Int.eq_ofNat_of_zero_le runs.2.2
  unfold TaskSystem.sysExit
  split
  next found live =>
    obtain ⟨same, _, _⟩ := taskGet_some.mp live
    refine ⟨rfl, ?_⟩
    rw [same, Int.toNat_natCast]
    rfl
  next missing =>
    have dead : system.states task = .dead := by
      by_contra live
      have found := taskGet_some.mpr ⟨current, inside task _ (holdings_live live), live⟩
      rw [missing] at found
      cases found
    refine ⟨rfl, ?_⟩
    rw [current, Int.toNat_natCast, Smp.setState]
    have same : { system.machine.smp.tasks task with state := .dead } =
        system.machine.smp.tasks task := by
      rw [← dead]
      rfl
    rw [same, Function.update_eq_self]

theorem destroy_lifecycle (system : TaskSystem) (taskId : Int) :
    Lifecycle pgdTable system (.destroy taskId) (system.taskDestroy taskId).population := by
  unfold TaskSystem.taskDestroy
  split
  next missing => exact .keeps fun changes => changes missing
  next id found =>
    obtain ⟨rfl, _, live⟩ := taskGet_some.mp found
    have destroyed : Lifecycle pgdTable system (.destroy id) _ := .destroys (holdings_live live)
    have emptied : ∀ space, (system.machine.smp.setTask id { system.machine.smp.tasks id with
        addressSpace := space, state := .dead }).holdings =
          Function.update system.machine.smp.holdings id none :=
      fun space => setTask_holdings _ _ _
    simp only [TaskSystem.population, TaskSystem.withSmp, emptied]
    exact destroyed

theorem vmCreate_cases (pgdTable : Nat) (vm : Vm) (space : AddressSpace) :
    (∃ other, vmCreate pgdTable vm space = (vm, other, -1) ∧
      vmCreate pgdTable vm ⟨0, 0⟩ = (vm, ⟨0, 0⟩, -1)) ∨
    ∃ after fresh, vmCreate pgdTable vm space = (after, fresh, 0) ∧
      vmCreate pgdTable vm ⟨0, 0⟩ = (after, fresh, 0) := by
  rcases allocated : vm.mm.pageAlloc with ⟨mm, _ | fresh⟩
  · rw [vmCreate_none space allocated, vmCreate_none ⟨0, 0⟩ allocated,
      (pageAlloc_none allocated).1]
    exact Or.inl ⟨_, rfl, rfl⟩
  · rw [vmCreate_some space allocated, vmCreate_some ⟨0, 0⟩ allocated]
    exact Or.inr ⟨_, _, rfl, rfl⟩

theorem createIn_lifecycle {taskTrampoline : Word} {slot : Nat}
    (found : freeSlot system.states = some slot) (name : List UInt8) (entry : Word) :
    Lifecycle pgdTable system (.create name entry)
      (system.createIn pgdTable taskTrampoline slot name entry).1.population := by
  have vacant : system.machine.smp.holdings slot = none :=
    holdings_none.mpr (freeSlot_some found).1
  have refilled : ∀ task : Task, task.state = .dead →
      (system.machine.smp.setTask slot task).holdings = system.machine.smp.holdings := by
    intro task dead
    apply setTask_holdings_same
    rw [Task.holding, if_pos dead]
    exact vacant.symm
  rcases vmCreate_cases pgdTable system.vm (system.machine.smp.tasks slot).addressSpace with
    ⟨other, made, failed⟩ | ⟨vm, space, made, fits⟩
  · have same : (system.createIn pgdTable taskTrampoline slot name entry).1.population =
        system.population := by
      simp only [TaskSystem.createIn, made, if_true, TaskSystem.population, TaskSystem.withSmp,
        Int.reduceNeg, Int.neg_lt_zero_iff, Int.zero_lt_one]
      rw [refilled _ rfl]
    rw [same]
    apply Lifecycle.keeps
    rintro ⟨_, status, _⟩
    rw [failed] at status
    cases status
  · rcases allocated : vm.mm.pagesAlloc stackPages with ⟨mm, _ | stack⟩
    · obtain rfl := pagesAlloc_none allocated
      have after : Lifecycle pgdTable system (.create name entry) _ := .lacksStack fits allocated
      rw [stackPages] at allocated
      simp only [TaskSystem.createIn, made, Int.lt_irrefl, if_false, allocated,
        TaskSystem.population, TaskSystem.withSmp]
      rw [refilled _ rfl]
      exact after
    · have after := @Lifecycle.creates pgdTable system name entry slot stack vm space mm
        (clearCaps (system.machine.smp.tasks slot).capTable) found fits allocated
      rw [stackPages] at allocated
      simp only [TaskSystem.createIn, made, Int.lt_irrefl, if_false, allocated,
        TaskSystem.population, TaskSystem.withSmp, setTask_holdings]
      exact after

theorem quiet_lifecycle {action : TaskAction} (still : ¬system.Changes pgdTable action)
    {smp : Smp} (same : smp.holdings = system.machine.smp.holdings) {next : TaskSystem}
    (vm : next.vm = system.vm) (becomes : next.machine.smp = smp) :
    Lifecycle pgdTable system action next.population := by
  have after : next.population = system.population := by
    rw [TaskSystem.population, becomes, vm, same, TaskSystem.population]
  rw [after]
  exact .keeps still

theorem machine_schedule_smp (machine : Machine) (cpu : Nat) :
    (machine.schedule cpu).smp = (machine.smp.schedule cpu).1 := by
  unfold Machine.schedule
  split
  next decided => rw [decided]
  next decided => rw [decided]

theorem contextSwitch_step {cpu : Nat}
    (stepped : system.step cpus pgdTable taskTrampoline (.contextSwitch cpu) = some after) :
    ∃ old new ttbr0, system.machine.phases cpu = .switching old new ttbr0 ∧ cpu < cpus ∧
      system.withMachine (system.machine.contextSwitch cpu old new ttbr0) = after := by
  simp only [TaskSystem.step] at stepped
  split at stepped
  next => cases stepped
  next old new ttbr0 phase =>
    rw [Option.ite_none_right_eq_some, Option.some.injEq] at stepped
    exact ⟨old, new, ttbr0, phase, stepped⟩

theorem map_step {taskId : Int} {vaddr paddr : Nat} {flags : Word}
    (stepped : system.step cpus pgdTable taskTrampoline (.map taskId vaddr paddr flags) =
      some after) :
    ∃ task mm, taskGet system.states taskId = some task ∧
      vaddr < 2 ^ 48 ∧ tableIndex vaddr 39 ≠ 0 ∧
      system.vm.mm.mapPage (system.machine.smp.tasks task).addressSpace.pgd vaddr paddr flags = mm ∧
      { system with vm := { system.vm with mm := mm } } = after := by
  simp only [TaskSystem.step, TaskSystem.mapPage] at stepped
  split at stepped
  next task found =>
    rw [Option.ite_none_right_eq_some, Option.some.injEq] at stepped
    obtain ⟨⟨bound, ownHalf, _⟩, maps⟩ := stepped
    exact ⟨task, _, found, bound, ownHalf, rfl, maps⟩
  next => cases stepped

/-- Every step changes the population in one of the ways of `Lifecycle`. -/
theorem step_lifecycle {action : TaskAction} (inside : system.population.Inside)
    (stepped : system.step cpus pgdTable taskTrampoline action = some after) :
    Lifecycle pgdTable system action after.population := by
  cases action with
  | create name entry =>
      obtain rfl := Option.some.inj stepped
      unfold TaskSystem.taskCreate
      split
      next missing => exact .keeps fun changes => changes.1 missing
      next slot found => exact createIn_lifecycle found name entry
  | destroy taskId =>
      obtain rfl := Option.some.inj stepped
      exact destroy_lifecycle system taskId
  | taskExitHandler cpu =>
      simp only [TaskSystem.step, Option.ite_none_right_eq_some, Option.some.injEq] at stepped
      obtain ⟨runs, rfl⟩ := stepped
      exact exit_lifecycle (Or.inl rfl) runs rfl rfl
  | sysExit cpu =>
      simp only [TaskSystem.step, Option.ite_none_right_eq_some, Option.some.injEq] at stepped
      obtain ⟨runs, rfl⟩ := stepped
      obtain ⟨vm, smp⟩ := sysExit_smp inside runs
      exact exit_lifecycle (Or.inr rfl) runs vm smp
  | schedule cpu =>
      simp only [TaskSystem.step, Option.ite_none_right_eq_some, Option.some.injEq] at stepped
      obtain ⟨_, rfl⟩ := stepped
      exact quiet_lifecycle id (schedule_holdings _ _) rfl (machine_schedule_smp _ _)
  | contextSwitch cpu =>
      obtain ⟨_, _, _, _, _, rfl⟩ := contextSwitch_step stepped
      exact quiet_lifecycle id (save_holdings _ _ _) rfl rfl
  | block cpu =>
      simp only [TaskSystem.step, Option.ite_none_right_eq_some, Option.some.injEq] at stepped
      obtain ⟨_, rfl⟩ := stepped
      exact quiet_lifecycle id (setLive_holdings _ _ (by decide)) rfl rfl
  | wake taskId =>
      obtain rfl := Option.some.inj stepped
      exact quiet_lifecycle id (setLive_holdings _ _ (by decide)) rfl rfl
  | map taskId vaddr paddr flags =>
      obtain ⟨task, _, found, bound, ownHalf, rfl, rfl⟩ := map_step stepped
      obtain ⟨rfl, _, live⟩ := taskGet_some.mp found
      exact .maps (holdings_live live) bound ownHalf

theorem removed_some {holdings : Nat → Option Holding} {gone task : Nat} {held : Holding} :
    Function.update holdings gone none task = some held ↔
      task ≠ gone ∧ holdings task = some held := by
  by_cases here : task = gone
  · subst here
    simp
  · simp [here]

theorem filled_some {holdings : Nat → Option Holding} {slot task : Nat} {fresh held : Holding} :
    Function.update holdings slot (some fresh) task = some held ↔
      (task = slot ∧ fresh = held) ∨ (task ≠ slot ∧ holdings task = some held) := by
  by_cases here : task = slot
  · subst here
    simp
  · simp [here]

/-- The action ends `task`, or a later task of the same slot. -/
def TaskSystem.EndsTask (system : TaskSystem) (task : Nat) : TaskAction → Prop
  | .destroy taskId => taskId = task
  | .taskExitHandler cpu | .sysExit cpu => system.machine.smp.current cpu = task
  | _ => False

theorem Lifecycle.holdings_kept {action : TaskAction} {reached : Population} {task : Nat}
    {held : Holding} (changed : Lifecycle pgdTable system action reached)
    (holds : system.population.holdings task = some held)
    (survives : ¬system.EndsTask task action) : reached.holdings task = some held := by
  cases changed with
  | keeps => exact holds
  | exits exit current =>
      refine removed_some.mpr ⟨?_, holds⟩
      rintro rfl
      rcases exit with rfl | rfl <;> exact survives current
  | destroys =>
      refine removed_some.mpr ⟨?_, holds⟩
      rintro rfl
      exact survives rfl
  | lacksStack => exact holds
  | creates found =>
      refine filled_some.mpr (Or.inr ⟨?_, holds⟩)
      rintro rfl
      exact holdings_some holds (freeSlot_some found).1
  | maps => exact holds

theorem Lifecycle.inside {action : TaskAction} {reached : Population}
    (changed : Lifecycle pgdTable system action reached) (inside : system.population.Inside) :
    reached.Inside := by
  intro task held holds
  cases changed with
  | exits => exact inside task held (removed_some.mp holds).2
  | destroys => exact inside task held (removed_some.mp holds).2
  | creates found =>
      rcases filled_some.mp holds with ⟨rfl, _⟩ | ⟨_, before⟩
      · exact (freeSlot_some found).2
      · exact inside task held before
  | keeps | lacksStack | maps => exact inside task held holds

@[simp] theorem setLive_percpu (smp : Smp) (taskId : Int) (state : TaskState) :
    (smp.setLive taskId state).percpu = smp.percpu := by
  unfold Smp.setLive
  split <;> rfl

structure SameCpus (system after : TaskSystem) : Prop where
  percpu : after.machine.smp.percpu = system.machine.smp.percpu
  ttbr0 : after.machine.ttbr0 = system.machine.ttbr0
  phases : after.machine.phases = system.machine.phases

theorem SameCpus.current (same : SameCpus system after) (cpu : Nat) :
    after.machine.smp.current cpu = system.machine.smp.current cpu := by
  rw [Smp.current, same.percpu, Smp.current]

theorem taskCreate_sameCpus (pgdTable : Nat) (taskTrampoline : Word) (system : TaskSystem)
    (name : List UInt8) (entry : Word) :
    SameCpus system (system.taskCreate pgdTable taskTrampoline name entry).1 := by
  have outcome := taskCreate_outcome pgdTable taskTrampoline system name entry
  generalize system.taskCreate pgdTable taskTrampoline name entry = result at outcome
  obtain ⟨after, id⟩ := result
  simp only at outcome ⊢
  cases outcome with
  | failed _ machine percpu =>
      exact ⟨by rw [machine, percpu], by rw [machine], by rw [machine]⟩
  | created _ _ machine fills =>
      exact ⟨by rw [machine, fills.percpu], by rw [machine], by rw [machine]⟩

theorem taskDestroy_sameCpus (system : TaskSystem) (taskId : Int) :
    SameCpus system (system.taskDestroy taskId) := by
  unfold TaskSystem.taskDestroy
  split <;> exact ⟨rfl, rfl, rfl⟩

theorem sysExit_sameCpus (system : TaskSystem) (cpu : Nat) :
    SameCpus system (system.sysExit cpu) := by
  unfold TaskSystem.sysExit
  split <;> exact ⟨rfl, rfl, rfl⟩

theorem step_sameCpus {action : TaskAction}
    (stepped : system.step cpus pgdTable taskTrampoline action = some after)
    (other : ∀ cpu, action ≠ .schedule cpu ∧ action ≠ .contextSwitch cpu) :
    SameCpus system after := by
  cases action with
  | create name entry =>
      obtain rfl := Option.some.inj stepped
      exact taskCreate_sameCpus _ _ _ _ _
  | destroy taskId =>
      obtain rfl := Option.some.inj stepped
      exact taskDestroy_sameCpus _ _
  | taskExitHandler cpu =>
      simp only [TaskSystem.step, Option.ite_none_right_eq_some, Option.some.injEq] at stepped
      obtain ⟨_, rfl⟩ := stepped
      exact ⟨rfl, rfl, rfl⟩
  | sysExit cpu =>
      simp only [TaskSystem.step, Option.ite_none_right_eq_some, Option.some.injEq] at stepped
      obtain ⟨_, rfl⟩ := stepped
      exact sysExit_sameCpus _ _
  | schedule cpu => exact absurd rfl (other cpu).1
  | contextSwitch cpu => exact absurd rfl (other cpu).2
  | block cpu =>
      simp only [TaskSystem.step, Option.ite_none_right_eq_some, Option.some.injEq] at stepped
      obtain ⟨_, rfl⟩ := stepped
      exact ⟨setLive_percpu _ _ _, rfl, rfl⟩
  | wake taskId =>
      obtain rfl := Option.some.inj stepped
      exact ⟨setLive_percpu _ _ _, rfl, rfl⟩
  | map taskId vaddr paddr flags =>
      obtain ⟨_, _, _, _, _, _, rfl⟩ := map_step stepped
      exact ⟨rfl, rfl, rfl⟩

theorem boot_inside {image : KernelImage} (tables : KernelTables image) (mm : Mm) :
    (TaskSystem.boot tables mm).population.Inside := by
  intro task held holds
  cases holds

end DragoonKernel
