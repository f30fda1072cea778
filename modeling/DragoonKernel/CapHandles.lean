import DragoonKernel.AddressSpaceIsolation
import DragoonKernel.CapSpec

/-!
The handles in the tables of live tasks. `task_add_cap` does not raise the reference
count of the entry, so every `cap_destroy` of an entry in use releases it: handles stay
valid exactly in the runs in which no destroyed entry is still in the table of a live task.
-/

namespace DragoonKernel

/-- `granted` remembers the entry behind each handle when it was added. -/
structure CapSystem where
  tasks : TaskSystem
  caps : Caps
  granted : Nat → Nat → Capability

inductive CapAction where
  | task (action : TaskAction)
  | capAlloc (cap : Capability)
  | capDestroy (capId : Int)
  | taskAddCap (taskId capId : Int)
  deriving DecidableEq

def CapSystem.boot {image : KernelImage} (tables : KernelTables image) (mm : Mm) (caps : Caps) :
    CapSystem where
  tasks := TaskSystem.boot tables mm
  caps := capInit caps
  granted := fun _ _ => ⟨capNone, 0, 0, 0⟩

/-- `task_add_cap` with the id of an entry in use. -/
def CapSystem.taskAddCap (system : CapSystem) (taskId capId : Int) : Option CapSystem :=
  match capLookup system.caps capId with
  | none => none
  | some cap =>
      let task := taskId.toNat
      let position := (system.tasks.machine.smp.tasks task).numCaps
      let (tasks, result) := system.tasks.taskAddCap taskId capId
      let granted := if result = 0 then
          Function.update system.granted task (Function.update (system.granted task) position cap)
        else system.granted
      some { system with tasks := tasks, granted := granted }

def CapSystem.step (cpus pgdTable : Nat) (taskTrampoline : Word) (system : CapSystem) :
    CapAction → Option CapSystem
  | .task action => (system.tasks.step cpus pgdTable taskTrampoline action).map
      fun tasks => { system with tasks := tasks }
  | .capAlloc cap => some { system with caps := (capAlloc system.caps cap).1 }
  | .capDestroy capId => some { system with caps := (capDestroy system.caps capId).1 }
  | .taskAddCap taskId capId => system.taskAddCap taskId capId

/-- The id names an entry in use with the type and the contents of `cap`. -/
def Denotes (caps : Caps) (capId : Int) (cap : Capability) : Prop :=
  ∃ entry, capLookup caps capId = some entry ∧ entry.type = cap.type ∧
    entry.contents = cap.contents

def HandlesValid (system : CapSystem) : Prop :=
  ∀ task, system.tasks.states task ≠ .dead →
    ∀ position < (system.tasks.machine.smp.tasks task).numCaps,
      Denotes system.caps ((system.tasks.machine.smp.tasks task).capTable position)
        (system.granted task position)

/-- The condition at each `cap_destroy`. -/
def DestroysNoHandle (system : CapSystem) (action : CapAction) (_ : CapSystem) : Prop :=
  match action with
  | .capDestroy capId => ∀ task, system.tasks.states task ≠ .dead →
      ∀ position < (system.tasks.machine.smp.tasks task).numCaps,
        (system.tasks.machine.smp.tasks task).capTable position ≠ capId
  | _ => True

structure HandlesKept (system : CapSystem) : Prop where
  inside : system.tasks.population.Inside
  single : ∀ index < capPoolSize, system.caps.used index = true →
    (system.caps.pool index).refcount = 1
  valid : ∀ task held, system.tasks.population.holdings task = some held →
    ∀ position < held.numCaps, Denotes system.caps (held.capTable position)
      (system.granted task position)

variable {cpus pgdTable : Nat} {taskTrampoline : Word} {system next : CapSystem}

theorem HandlesKept.handlesValid (kept : HandlesKept system) : HandlesValid system :=
  fun task live => kept.valid task _ (holdings_live live)

theorem Lifecycle.handles_origin {system : TaskSystem} {action : TaskAction}
    {reached : Population} {task : Nat} {held : Holding}
    (changed : Lifecycle pgdTable system action reached)
    (holds : reached.holdings task = some held) :
    system.population.holdings task = some held ∨ held.numCaps = 0 := by
  cases changed with
  | exits => exact Or.inl (removed_some.mp holds).2
  | destroys => exact Or.inl (removed_some.mp holds).2
  | creates =>
      rcases filled_some.mp holds with ⟨_, rfl⟩ | ⟨_, before⟩
      · exact Or.inr rfl
      · exact Or.inl before
  | keeps | lacksStack | maps => exact Or.inl holds

theorem HandlesKept.task (kept : HandlesKept system) {action : TaskAction} {tasks : TaskSystem}
    (stepped : system.tasks.step cpus pgdTable taskTrampoline action = some tasks) :
    HandlesKept { system with tasks := tasks } := by
  have changed := step_lifecycle kept.inside stepped
  refine ⟨changed.inside kept.inside, kept.single, ?_⟩
  intro task held holds position bound
  rcases changed.handles_origin holds with before | empty
  · exact kept.valid task held before position bound
  · rw [empty] at bound
    exact absurd bound (Nat.not_lt_zero position)

theorem Denotes.keep {caps after : Caps} {capId : Int} {cap : Capability} {index : Nat}
    (denotes : Denotes caps capId cap) (keeps : KeepsOthers caps after index)
    (other : capId ≠ index) : Denotes after capId cap := by
  obtain ⟨entry, found, same⟩ := denotes
  exact ⟨entry, (keeps.lookup other).trans found, same⟩

theorem HandlesKept.capAlloc (kept : HandlesKept system) (cap : Capability) :
    HandlesKept { system with caps := (capAlloc system.caps cap).1 } := by
  rcases capAlloc_cases system.caps cap with ⟨index, ⟨_, free, _⟩, allocated⟩ | ⟨_, allocated⟩
  · rw [allocated]
    refine ⟨kept.inside, ?_, ?_⟩
    · intro other inside used
      by_cases here : other = index
      · subst here
        simp
      · simp only [Function.update_of_ne here] at used ⊢
        exact kept.single other inside used
    · intro task held holds position below
      have denotes := kept.valid task held holds position below
      refine denotes.keep (keepsOthers_update _ index _ _) ?_
      intro same
      obtain ⟨entry, found, _⟩ := denotes
      rw [same, capLookup_unused free] at found
      cases found
  · rw [allocated]
    exact kept

theorem HandlesKept.capDestroy (kept : HandlesKept system) {capId : Int}
    (unheld : DestroysNoHandle system (.capDestroy capId) next) :
    HandlesKept { system with caps := (capDestroy system.caps capId).1 } := by
  rcases found : capLookup system.caps capId with _ | cap
  · rw [capDestroy_unused found]
    exact kept
  · obtain ⟨index, rfl, bound, used, _⟩ := capLookup_some.mp found
    obtain ⟨outcome, keeps, _⟩ := capDestroy_used bound used
    have released := (outcome.resolve_right
      fun shared => shared.1 (kept.single index bound used)).2
    refine ⟨kept.inside, ?_, ?_⟩
    · intro other inside marked
      have different : other ≠ index := by
        rintro rfl
        rw [released] at marked
        cases marked
      rw [keeps.used other different] at marked
      rw [keeps.pool other different]
      exact kept.single other inside marked
    · intro task held holds position below
      obtain ⟨live, rfl⟩ := holdings_eq_some.mp holds
      exact (kept.valid task _ holds position below).keep keeps (unheld task live position below)

theorem HandlesKept.taskAddCap (kept : HandlesKept system) {taskId capId : Int}
    (added : system.taskAddCap taskId capId = some next) : HandlesKept next := by
  unfold CapSystem.taskAddCap at added
  split at added
  next => cases added
  next cap found =>
    rcases taskAddCap_cases system.tasks taskId capId with same |
      ⟨task, held, rfl, live, _, result, _, population⟩
    · simp only [same] at added
      obtain rfl := Option.some.inj added
      exact kept
    · have count : (system.tasks.machine.smp.tasks task).numCaps = held.numCaps :=
        congrArg Holding.numCaps (holdings_eq_some.mp live).2.symm
      simp only [result, if_true, Int.toNat_natCast, count] at added
      obtain rfl := Option.some.inj added
      refine ⟨?_, kept.single, ?_⟩
      · intro other otherHeld holds
        simp only [population] at holds
        rcases filled_some.mp holds with ⟨rfl, _⟩ | ⟨_, before⟩
        · exact kept.inside other held live
        · exact kept.inside other otherHeld before
      · intro other otherHeld holds position below
        simp only [population] at holds
        rcases filled_some.mp holds with ⟨rfl, rfl⟩ | ⟨different, before⟩
        · simp only [Function.update_self]
          rcases Nat.lt_succ_iff_lt_or_eq.mp below with earlier | rfl
          · rw [Function.update_of_ne (Nat.ne_of_lt earlier),
              Function.update_of_ne (Nat.ne_of_lt earlier)]
            exact kept.valid other held live position earlier
          · rw [Function.update_self, Function.update_self]
            exact ⟨cap, found, rfl, rfl⟩
        · simp only [Function.update_of_ne different]
          exact kept.valid other otherHeld before position below

theorem HandlesKept.step (kept : HandlesKept system) {action : CapAction}
    (stepped : system.step cpus pgdTable taskTrampoline action = some next)
    (unheld : DestroysNoHandle system action next) : HandlesKept next := by
  cases action with
  | task action =>
      obtain ⟨tasks, moved, rfl⟩ := Option.map_eq_some_iff.mp stepped
      exact kept.task moved
  | capAlloc cap =>
      obtain rfl := Option.some.inj stepped
      exact kept.capAlloc cap
  | capDestroy capId =>
      obtain rfl := Option.some.inj stepped
      exact kept.capDestroy unheld
  | taskAddCap taskId capId => exact kept.taskAddCap stepped

theorem HandlesKept.lost (kept : HandlesKept system) {action : CapAction}
    (stepped : system.step cpus pgdTable taskTrampoline action = some next)
    (held : ¬DestroysNoHandle system action next) : ¬HandlesValid next := by
  intro valid
  cases action with
  | capDestroy capId =>
      obtain rfl := Option.some.inj stepped
      apply held
      rintro task live position bound rfl
      obtain ⟨entry, found, _⟩ := kept.handlesValid task live position bound
      obtain ⟨index, named, inside, used, _⟩ := capLookup_some.mp found
      obtain ⟨still, denotes, _⟩ := valid task live position bound
      simp only [named] at denotes
      have released := ((capDestroy_used inside used).1.resolve_right
        fun shared => shared.1 (kept.single index inside used)).2
      rw [capLookup_unused released] at denotes
      cases denotes
  | _ => exact held trivial

theorem boot_handlesKept {image : KernelImage} (tables : KernelTables image) (mm : Mm)
    (caps : Caps) : HandlesKept (CapSystem.boot tables mm caps) := by
  refine ⟨boot_inside tables mm, ?_, ?_⟩
  · intro index bound used
    simp [CapSystem.boot, capInit, bound] at used
  · intro task held holds
    cases holds

/-- The handles of live tasks keep denoting what was added exactly in the runs that
destroy no entry that a live task still holds. -/
theorem handles_valid_iff {image : KernelImage} (tables : KernelTables image) (mm : Mm)
    (caps : Caps) (cpus : Nat) (taskTrampoline : Word) (actions : List CapAction) :
    Transition.EveryState (CapSystem.step cpus tables.pgdTable taskTrampoline) HandlesValid
        (CapSystem.boot tables mm caps) actions ↔
      Transition.EveryStep (CapSystem.step cpus tables.pgdTable taskTrampoline) DestroysNoHandle
        (CapSystem.boot tables mm caps) actions := by
  have sound : ∀ system : CapSystem, HandlesKept system → HandlesValid system :=
    fun _ => HandlesKept.handlesValid
  exact Transition.everyState_iff_everyStep sound (fun _ _ _ kept => kept.step)
    (fun _ _ _ kept => kept.lost) (boot_handlesKept tables mm caps) actions

def noCaps : Caps := ⟨fun _ => ⟨capNone, 0, 0, 0⟩, fun _ => false⟩

def smallCap : Capability := ⟨capMemory, 0, 0x80000000, 1⟩

/-- Destroyed once, the capability leaves the handle of task 0 without an entry. -/
theorem destroyed_handle_dangles :
    ¬∀ actions, Transition.EveryState (CapSystem.step 1 smallTables.pgdTable 0) HandlesValid
      (CapSystem.boot smallTables smallMm noCaps) actions := by
  intro all
  have run : (Transition.exec (CapSystem.step 1 smallTables.pgdTable 0)
      (CapSystem.boot smallTables smallMm noCaps)
      [.task (.create [] 0), .capAlloc smallCap, .taskAddCap 0 0, .capDestroy 0]).any
        (fun system => decide (system.tasks.states 0 ≠ .dead) &&
          decide (0 < (system.tasks.machine.smp.tasks 0).numCaps) &&
          decide (capLookup system.caps ((system.tasks.machine.smp.tasks 0).capTable 0) = none)) =
      true := by decide +kernel
  obtain ⟨system, run, facts⟩ := (Option.any_eq_true _ _).mp run
  simp only [Bool.and_eq_true, decide_eq_true_eq] at facts
  obtain ⟨⟨live, filled⟩, dangling⟩ := facts
  obtain ⟨entry, found, _⟩ := (all _).last run 0 live 0 filled
  rw [dangling] at found
  cases found

end DragoonKernel
