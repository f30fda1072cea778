import DragoonKernel.AddressSpaceSpec
import DragoonKernel.PageAllocatorSpec
import DragoonKernel.TaskLifeCore

/-! The outcomes of `task_create`. -/

namespace DragoonKernel

def CreateFits (pgdTable : Nat) (vm : Vm) : Prop :=
  (vmCreate pgdTable vm ⟨0, 0⟩).2.2 = 0 ∧
    ((vmCreate pgdTable vm ⟨0, 0⟩).1.mm.pagesAlloc (taskStackSize / pageSize)).2 ≠ none

theorem stackTop_pageAddress (index : Nat) :
    stackTop (pageAddress index) = BitVec.ofNat 64 (pageAddress index + taskStackSize) := by
  have aligned : pageAddress index + taskStackSize = 2 ^ 4 * (0x4000000 + index * 256 + 1024) := by
    rw [pageAddress_eq, taskStackSize]
    omega
  have mask : ∀ bit : Fin 64, (~~~0xF : Word).getLsbD bit = decide (4 ≤ bit.val) := by decide
  rw [stackTop, aligned]
  apply BitVec.eq_of_getLsbD_eq
  intro bit bound
  rw [BitVec.getLsbD_and, BitVec.getLsbD_ofNat, Nat.testBit_two_pow_mul, mask ⟨bit, bound⟩]
  cases decide (4 ≤ bit) <;> simp

theorem freeSlot_some {states : Nat → TaskState} {slot : Nat} (found : freeSlot states = some slot) :
    states slot = .dead ∧ slot < maxTasks := by
  have dead := List.find?_some found
  have listed := List.mem_of_find?_eq_some found
  exact ⟨by simpa using dead, List.mem_range.mp listed⟩

structure Fills (before after : Smp) (slot : Nat) (state : TaskState) (context : TaskContext) :
    Prop where
  percpu : after.percpu = before.percpu
  states : ∀ task, after.states task = if task = slot then state else before.states task
  contexts : ∀ task, (after.tasks task).ctx =
    if task = slot then context else (before.tasks task).ctx

theorem setTask_fills (smp : Smp) (slot : Nat) (task : Task) :
    Fills smp (smp.setTask slot task) slot task.state task.ctx := by
  constructor
  · rfl
  · intro other
    by_cases here : other = slot
    · subst here
      simp [Smp.states, Smp.setTask]
    · simp [Smp.states, Smp.setTask, here]
  · intro other
    by_cases here : other = slot
    · subst here
      simp [Smp.setTask]
    · simp [Smp.setTask, here]

inductive CreateOutcome (pgdTable : Nat) (taskTrampoline : Word) (system : TaskSystem)
    (entry : Word) : TaskSystem → Int → Prop where
  | failed {after : TaskSystem} {smp : Smp}
      (unfit : ∀ slot, freeSlot system.states = some slot → ¬CreateFits pgdTable system.vm)
      (machine : after.machine = { system.machine with smp := smp })
      (percpu : smp.percpu = system.machine.smp.percpu)
      (states : smp.states = system.machine.smp.states)
      (contexts : ∀ task, (smp.tasks task).ctx = (system.machine.smp.tasks task).ctx) :
      CreateOutcome pgdTable taskTrampoline system entry after (-1)
  | created {after : TaskSystem} {smp : Smp} {slot index : Nat}
      (found : freeSlot system.states = some slot)
      (fits : CreateFits pgdTable system.vm)
      (machine : after.machine = { system.machine with smp := smp })
      (fills : Fills system.machine.smp smp slot .ready
        (initialContext taskTrampoline entry (pageAddress index)))
      (stack : (smp.tasks slot).stackBase = pageAddress index) :
      CreateOutcome pgdTable taskTrampoline system entry after slot

theorem vmCreate_space (pgdTable : Nat) (vm : Vm) (space other : AddressSpace) :
    (vmCreate pgdTable vm space).1 = (vmCreate pgdTable vm other).1 ∧
      (vmCreate pgdTable vm space).2.2 = (vmCreate pgdTable vm other).2.2 := by
  rcases allocated : vm.mm.pageAlloc with ⟨mm, _ | fresh⟩
  · rw [vmCreate_none space allocated, vmCreate_none other allocated]
    exact ⟨rfl, rfl⟩
  · rw [vmCreate_some space allocated, vmCreate_some other allocated]
    exact ⟨rfl, rfl⟩

theorem vmCreate_status (pgdTable : Nat) (vm : Vm) (space : AddressSpace) :
    (vmCreate pgdTable vm space).2.2 = 0 ∨ (vmCreate pgdTable vm space).2.2 = -1 := by
  rcases allocated : vm.mm.pageAlloc with ⟨mm, _ | fresh⟩
  · rw [vmCreate_none space allocated]
    exact Or.inr rfl
  · rw [vmCreate_some space allocated]
    exact Or.inl rfl

theorem setTask_dead (smp : Smp) (slot : Nat) (task : Task) (dead : smp.states slot = .dead)
    (state : task.state = .dead) (context : task.ctx = (smp.tasks slot).ctx) :
    (smp.setTask slot task).states = smp.states ∧
      ∀ other, ((smp.setTask slot task).tasks other).ctx = (smp.tasks other).ctx := by
  have fills := setTask_fills smp slot task
  constructor
  · funext other
    rw [fills.states, state]
    split
    next here => rw [here, dead]
    next => rfl
  · intro other
    rw [fills.contexts, context]
    split
    next here => rw [here]
    next => rfl

theorem createIn_outcome {pgdTable : Nat} {taskTrampoline : Word} {system : TaskSystem}
    {slot : Nat} (found : freeSlot system.states = some slot) (name : List UInt8) (entry : Word) :
    CreateOutcome pgdTable taskTrampoline system entry
      (system.createIn pgdTable taskTrampoline slot name entry).1
      (system.createIn pgdTable taskTrampoline slot name entry).2 := by
  have dead : system.machine.smp.states slot = .dead := (freeSlot_some found).1
  have same := vmCreate_space pgdTable system.vm (system.machine.smp.tasks slot).addressSpace ⟨0, 0⟩
  have status := vmCreate_status pgdTable system.vm (system.machine.smp.tasks slot).addressSpace
  simp only [TaskSystem.createIn]
  cases made : vmCreate pgdTable system.vm (system.machine.smp.tasks slot).addressSpace with
  | mk vm rest =>
      obtain ⟨space, result⟩ := rest
      rw [made] at same status
      simp only at same status ⊢
      split
      next negative =>
        obtain ⟨states, contexts⟩ := setTask_dead system.machine.smp slot
          { system.machine.smp.tasks slot with
            name := copyName name, addressSpace := space, state := .dead } dead rfl rfl
        refine .failed ?_ rfl rfl states contexts
        rintro _ _ ⟨success, _⟩
        omega
      next success =>
        split
        next mm missing =>
          generalize vmDestroy { vm with mm := mm } space = destroyed
          obtain ⟨left, empty⟩ := destroyed
          obtain ⟨states, contexts⟩ := setTask_dead system.machine.smp slot
            { system.machine.smp.tasks slot with
              name := copyName name, addressSpace := empty, state := .dead } dead rfl rfl
          refine .failed ?_ rfl rfl states contexts
          rintro _ _ ⟨_, room⟩
          rw [← same.1, missing] at room
          exact room rfl
        next mm stack allocated =>
          obtain ⟨index, _, _, _, _, rfl⟩ := pagesAlloc_some allocated
          refine .created found ⟨?_, ?_⟩ rfl (setTask_fills _ _ _) ?_
          · omega
          · rw [← same.1, allocated]
            simp
          · simp [Smp.setTask]

theorem taskCreate_outcome (pgdTable : Nat) (taskTrampoline : Word) (system : TaskSystem)
    (name : List UInt8) (entry : Word) :
    CreateOutcome pgdTable taskTrampoline system entry
      (system.taskCreate pgdTable taskTrampoline name entry).1
      (system.taskCreate pgdTable taskTrampoline name entry).2 := by
  unfold TaskSystem.taskCreate
  split
  next missing =>
    refine .failed ?_ rfl rfl rfl fun _ => rfl
    intro slot found
    rw [missing] at found
    cases found
  next slot found => exact createIn_outcome found name entry

end DragoonKernel
