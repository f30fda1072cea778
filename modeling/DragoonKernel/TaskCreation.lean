import DragoonKernel.TaskRunSpec

/-!
`task_create` in any state: it takes four pages for the stack, one for the page table and
a dead slot, or it gives back all that it took.
-/

namespace DragoonKernel

theorem pageFree_take (mm : Mm) {index : Nat} (bound : index < maxPages)
    (unused : mm.isUsed index = false) (memory : Memory) :
    ({ mm.take index 1 with memory := memory } : Mm).pageFree (pageAddress index) =
      { mm with memory := memory } := by
  have used : ({ mm.take index 1 with memory := memory } : Mm).isUsed index = true := by
    have taken : ({ mm.take index 1 with memory := memory } : Mm).isUsed index =
        (decide (index ≤ index ∧ index < index + 1) || mm.isUsed index) := take_isUsed mm index 1 index
    rw [taken]
    simp
  rw [pageFree_pageAddress _ bound, if_pos used]
  have bits : Bitmap.clear (mm.take index 1).pageBitmap index = mm.pageBitmap := by
    apply Bitmap.ext_test
    intro query
    have taken : Bitmap.test (mm.take index 1).pageBitmap query =
        (decide (index ≤ query ∧ query < index + 1) || mm.isUsed query) := take_isUsed mm index 1 query
    rw [Bitmap.test_clear, taken]
    by_cases here : query = index
    · subst here
      have free : Bitmap.test mm.pageBitmap query = false := unused
      simp [free]
    · have outside : ¬(index ≤ query ∧ query < index + 1) := by omega
      simp only [here, outside, decide_false, Bool.not_false, Bool.true_and, Bool.false_or]
      rfl
  have counter : (mm.take index 1).usedPages - 1 = mm.usedPages := by
    rw [take_usedPages]
    exact BitVec.add_sub_cancel _ _
  simp only [Mm.release, bits, counter]
  simp [Mm.take]

theorem foldl_still {State Item : Type} {update : State → Item → State} {state : State}
    {items : List Item} (still : ∀ item ∈ items, update state item = state) :
    items.foldl update state = state := by
  induction items with
  | nil => rfl
  | cons item rest ih =>
      rw [List.foldl_cons, still item List.mem_cons_self]
      exact ih fun other listed => still other (List.mem_cons_of_mem _ listed)

/-- `vm_destroy` undoes a `vm_create`, with the fallback ASID as with any other. -/
theorem vmDestroy_vmCreate {pgdTable : Nat} {vm after : Vm} {space fresh : AddressSpace}
    (made : vmCreate pgdTable vm space = (after, fresh, 0)) :
    vmDestroy after fresh =
      ({ vm with mm := { vm.mm with memory := after.mm.memory } }, ⟨0, 0⟩) := by
  rcases allocated : vm.mm.pageAlloc with ⟨mm, _ | pgd⟩
  · rw [vmCreate_none space allocated] at made
    simp at made
  · rw [vmCreate_some space allocated] at made
    obtain ⟨index, bound, unused, _, rfl, rfl⟩ := pageAlloc_some allocated
    simp only [Prod.mk.injEq, and_true] at made
    obtain ⟨rfl, rfl⟩ := made
    have proper : pageAddress index ≠ 0 := by
      simp only [pageAddress_eq]
      omega
    have empty : ∀ entry ∈ (List.finRange 512).drop 1,
        readEntry (writeEntry (vm.mm.take index 1).memory (pageAddress index) 0
          (readEntry (vm.mm.take index 1).memory pgdTable 0)) (pageAddress index) entry = 0 := by
      intro entry listed
      have later : entry ≠ 0 := by
        rw [List.finRange_succ, List.drop_one, List.tail_cons, List.mem_map] at listed
        obtain ⟨before, _, rfl⟩ := listed
        exact Fin.succ_ne_zero before
      have zeroed : (vm.mm.take index 1).memory (ramFrame + index) = fun _ => 0 := by
        rw [take_memory, if_pos (by omega)]
      simp only [readEntry, writeEntry, pageAddress_div, Function.update_self,
        Function.update_of_ne later, zeroed]
    have asids : asidFree (asidAlloc vm.asidBitmap).1 (asidAlloc vm.asidBitmap).2 =
        vm.asidBitmap := by
      rcases asidAlloc_cases vm.asidBitmap with ⟨asid, positive, below, free, taken⟩ | ⟨_, taken⟩
      · rw [taken, asidFree, if_pos ⟨positive, below⟩]
        apply Bitmap.ext_test
        intro query
        rw [Bitmap.test_clear, Bitmap.test_set]
        by_cases here : query = asid
        · subst here
          simpa using free.symm
        · simp [here]
      · rw [taken, asidFree, if_neg (by omega)]
    have freed := pageFree_take vm.mm bound unused (writeEntry (vm.mm.take index 1).memory
      (pageAddress index) 0 (readEntry (vm.mm.take index 1).memory pgdTable 0))
    rw [vmDestroy, if_neg proper, foldl_still]
    · dsimp only at freed ⊢
      rw [asids, freed]
    · intro entry listed
      rw [empty entry listed]
      rfl

/-- `after` has the task in `slot` and the memory that the creation of a task needs no less
than before. -/
structure CreateFailed (system : TaskSystem) (slot : Nat) (after : TaskSystem) : Prop where
  tasks : ∃ task : Task, task.state = .dead ∧ task.addressSpace.pgd = 0 ∧
    after.machine.smp = system.machine.smp.setTask slot task
  numTasks : after.numTasks = system.numTasks
  pageBitmap : after.vm.mm.pageBitmap = system.vm.mm.pageBitmap
  usedPages : after.vm.mm.usedPages = system.vm.mm.usedPages
  asidBitmap : after.vm.asidBitmap = system.vm.asidBitmap

/-- Bits `pgd` and `stack` to `stack + 3` of the page bitmap went from free to used. -/
structure TakesPages (before after : Mm) (pgd stack : Nat) : Prop where
  inside : pgd < maxPages ∧ stack + stackPages ≤ maxPages
  pgdFree : before.isUsed pgd = false
  stackFree : ∀ index, stack ≤ index → index < stack + stackPages → before.isUsed index = false
  apart : ¬(stack ≤ pgd ∧ pgd < stack + stackPages)
  taken : ∀ index, after.isUsed index =
    (decide (index = pgd ∨ stack ≤ index ∧ index < stack + stackPages) || before.isUsed index)
  usedPages : after.usedPages = before.usedPages + 5

structure CreateSucceeded (taskTrampoline : Word) (system : TaskSystem) (slot : Nat)
    (entry : Word) (after : TaskSystem) : Prop where
  tasks : ∃ (task : Task) (pgd stack : Nat), task.state = .ready ∧
    task.ctx = initialContext taskTrampoline entry (pageAddress stack) ∧
    task.stackBase = pageAddress stack ∧ task.addressSpace.pgd = pageAddress pgd ∧
    after.machine.smp = system.machine.smp.setTask slot task ∧
    TakesPages system.vm.mm after.vm.mm pgd stack
  numTasks : after.numTasks = system.numTasks + 1

theorem takesPages {mm made : Mm} {pgd stack : Nat} (pgdInside : pgd < maxPages)
    (pgdFree : mm.isUsed pgd = false) (bitmap : made.pageBitmap = (mm.take pgd 1).pageBitmap)
    (counter : made.usedPages = (mm.take pgd 1).usedPages) (stackInside : stack + stackPages ≤ maxPages)
    (stackFree : ∀ index, stack ≤ index → index < stack + stackPages → made.isUsed index = false) :
    TakesPages mm (made.take stack stackPages) pgd stack := by
  have marked : ∀ index, made.isUsed index = (decide (index = pgd) || mm.isUsed index) := by
    intro index
    rw [Mm.isUsed, bitmap]
    refine (take_isUsed mm pgd 1 index).trans ?_
    congr 1
    exact decide_eq_decide.mpr (by omega)
  refine ⟨⟨pgdInside, stackInside⟩, pgdFree, ?_, ?_, ?_, ?_⟩
  · intro index lower upper
    have free := stackFree index lower upper
    rw [marked, Bool.or_eq_false_iff] at free
    exact free.2
  · rintro ⟨lower, upper⟩
    have free := stackFree pgd lower upper
    simp [marked] at free
  · intro index
    rw [take_isUsed, marked, ← Bool.or_assoc, ← Bool.decide_or]
    congr 1
    exact decide_eq_decide.mpr or_comm
  · rw [take_usedPages, counter, take_usedPages, BitVec.add_assoc]
    rfl

theorem createIn_cases (pgdTable : Nat) (taskTrampoline : Word) (system : TaskSystem) (slot : Nat)
    (name : List UInt8) (entry : Word) :
    (∃ after, system.createIn pgdTable taskTrampoline slot name entry = (after, -1) ∧
      CreateFailed system slot after) ∨
    ∃ after, system.createIn pgdTable taskTrampoline slot name entry = (after, (slot : Int)) ∧
      CreateSucceeded taskTrampoline system slot entry after := by
  rcases allocated : system.vm.mm.pageAlloc with ⟨mm, _ | address⟩
  · left
    obtain ⟨rfl, _⟩ := pageAlloc_none allocated
    have made : vmCreate pgdTable _ _ = _ :=
      vmCreate_none (system.machine.smp.tasks slot).addressSpace allocated
    have negative : (-1 : Int) < 0 := by decide
    simp only [TaskSystem.createIn, made, if_pos negative]
    exact ⟨_, rfl, ⟨_, rfl, rfl, rfl⟩, rfl, rfl, rfl, rfl⟩
  · have made : vmCreate pgdTable _ _ = _ :=
      vmCreate_some (system.machine.smp.tasks slot).addressSpace allocated
    obtain ⟨pgd, pgdInside, pgdFree, _, rfl, rfl⟩ := pageAlloc_some allocated
    set memory := writeEntry (system.vm.mm.take pgd 1).memory (pageAddress pgd) 0
      (readEntry (system.vm.mm.take pgd 1).memory pgdTable 0)
    set asids := asidAlloc system.vm.asidBitmap
    rcases room : ({ system.vm.mm.take pgd 1 with memory := memory } : Mm).pagesAlloc stackPages
      with ⟨left, _ | run⟩
    · obtain rfl := pagesAlloc_none room
      have undone := vmDestroy_vmCreate made
      rw [stackPages] at room
      simp only [TaskSystem.createIn, made, Int.lt_irrefl, if_false, room, undone]
      exact Or.inl ⟨_, rfl, ⟨_, rfl, rfl, rfl⟩, rfl, rfl, rfl, rfl⟩
    · obtain ⟨stack, _, stackInside, stackFree, rfl, rfl⟩ := pagesAlloc_some room
      have pages : TakesPages system.vm.mm
          (({ system.vm.mm.take pgd 1 with memory := memory } : Mm).take stack stackPages) pgd stack :=
        takesPages pgdInside pgdFree rfl rfl stackInside stackFree
      rw [stackPages] at room
      simp only [TaskSystem.createIn, made, Int.lt_irrefl, if_false, room]
      exact Or.inr ⟨_, rfl, ⟨_, pgd, stack, rfl, rfl, rfl, rfl, rfl, pages⟩, rfl⟩

/-- Nothing that outlives the call has changed. -/
structure Untouched (before after : TaskSystem) : Prop where
  pageBitmap : after.vm.mm.pageBitmap = before.vm.mm.pageBitmap
  usedPages : after.vm.mm.usedPages = before.vm.mm.usedPages
  asidBitmap : after.vm.asidBitmap = before.vm.asidBitmap
  taskCount : after.taskCount = before.taskCount
  live : ∀ task, before.states task ≠ .dead →
    after.machine.smp.tasks task = before.machine.smp.tasks task
  dead : ∀ task, before.states task = .dead → after.states task = .dead

/-- The task in `slot` is new, with its own stack and page table. -/
structure TaskCreated (before after : TaskSystem) (slot : Nat) : Prop where
  wasDead : before.states slot = .dead
  ready : after.states slot = .ready
  pages : ∃ pgd stack, TakesPages before.vm.mm after.vm.mm pgd stack ∧
    (after.machine.smp.tasks slot).addressSpace.pgd = pageAddress pgd ∧
    (after.machine.smp.tasks slot).stackBase = pageAddress stack
  others : ∀ task, task ≠ slot → after.machine.smp.tasks task = before.machine.smp.tasks task
  taskCount : after.taskCount = before.taskCount + 1

theorem CreateFailed.untouched {system after : TaskSystem} {slot : Nat}
    (failed : CreateFailed system slot after) (vacant : system.states slot = .dead) :
    Untouched system after := by
  obtain ⟨⟨task, dead, _, smp⟩, numTasks, pageBitmap, usedPages, asidBitmap⟩ := failed
  have others : ∀ other, other ≠ slot →
      after.machine.smp.tasks other = system.machine.smp.tasks other := by
    intro other different
    rw [smp]
    exact Function.update_of_ne different _ _
  refine ⟨pageBitmap, usedPages, asidBitmap, numTasks, ?_, ?_⟩
  · intro other live
    refine others other ?_
    rintro rfl
    exact live vacant
  · intro other wasDead
    by_cases here : other = slot
    · subst here
      simp [TaskSystem.states, Smp.states, smp, Smp.setTask, dead]
    · rw [TaskSystem.states, Smp.states, others other here]
      exact wasDead

theorem CreateSucceeded.taskCreated {taskTrampoline entry : Word} {system after : TaskSystem}
    {slot : Nat} (succeeded : CreateSucceeded taskTrampoline system slot entry after)
    (vacant : system.states slot = .dead) : TaskCreated system after slot := by
  obtain ⟨⟨task, pgd, stack, ready, _, stackBase, root, smp, pages⟩, numTasks⟩ := succeeded
  have filled : after.machine.smp.tasks slot = task := by
    rw [smp]
    exact Function.update_self _ _ _
  refine ⟨vacant, ?_, ⟨pgd, stack, pages, by rw [filled, root], by rw [filled, stackBase]⟩, ?_,
    numTasks⟩
  · rw [TaskSystem.states, Smp.states, filled, ready]
  · intro other different
    rw [smp]
    exact Function.update_of_ne different _ _

theorem taskCreate_cases (pgdTable : Nat) (taskTrampoline : Word) (system : TaskSystem)
    (name : List UInt8) (entry : Word) :
    let created := system.taskCreate pgdTable taskTrampoline name entry
    (created.2 = -1 ∧ Untouched system created.1) ∨
      ∃ slot < maxTasks, created.2 = (slot : Int) ∧ TaskCreated system created.1 slot := by
  dsimp only
  unfold TaskSystem.taskCreate
  split
  next missing => exact Or.inl ⟨rfl, rfl, rfl, rfl, rfl, fun _ _ => rfl, fun _ dead => dead⟩
  next slot found =>
    obtain ⟨vacant, bound⟩ := freeSlot_some found
    rcases createIn_cases pgdTable taskTrampoline system slot name entry with
      ⟨after, result, failed⟩ | ⟨after, result, succeeded⟩
    · rw [result]
      exact Or.inl ⟨rfl, failed.untouched vacant⟩
    · rw [result]
      exact Or.inr ⟨slot, bound, rfl, succeeded.taskCreated vacant⟩

/-- In every state of the task table, the pages and the ASIDs, `task_create` fails without
a trace or takes five pages for a slot that was dead. -/
theorem taskCreate_atomic (pgdTable : Nat) (taskTrampoline : Word) (system : TaskSystem)
    (name : List UInt8) (entry : Word) :
    (∃ after, system.taskCreate pgdTable taskTrampoline name entry = (after, -1) ∧
      Untouched system after) ∨
    ∃ after, ∃ slot < maxTasks,
      system.taskCreate pgdTable taskTrampoline name entry = (after, (slot : Int)) ∧
        TaskCreated system after slot := by
  rcases taskCreate_cases pgdTable taskTrampoline system name entry with
    ⟨failed, untouched⟩ | ⟨slot, bound, succeeded, created⟩
  · exact Or.inl ⟨_, Prod.ext rfl failed, untouched⟩
  · exact Or.inr ⟨_, slot, bound, Prod.ext rfl succeeded, created⟩

end DragoonKernel
