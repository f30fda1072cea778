import DragoonKernel.CapHandles
import DragoonKernel.SyscallCore

/-!
Capabilities of other tasks while one task makes system calls. `SYS_CAP_DESTROY` takes
any id without a look at the caller's table, so what the others hold stays as it is
exactly when the caller never names it.
-/

namespace DragoonKernel

/-- In the table of another live task, and not in that of the caller. -/
def Kernel.Protected (kernel : Kernel) (caller : Nat) (capId : Int) : Prop :=
  let tasks := kernel.tasks.machine.smp.tasks
  (∃ task, task ≠ caller ∧ taskGet kernel.tasks.states task = some task ∧
    ∃ position < (tasks task).numCaps, (tasks task).capTable position = capId) ∧
  ∀ position < (tasks caller).numCaps, (tasks caller).capTable position ≠ capId

/-- Every protected capability in use at the start is as it was. -/
def ProtectedKept (caller : Nat) (start : Kernel) (system : SyscallSystem) : Prop :=
  ∀ capId cap, start.Protected caller capId → capLookup start.caps capId = some cap →
    capLookup system.kernel.caps capId = some cap

/-- The lookups of all protected handles are as they were, stale ones included. -/
def LookupsKept (caller : Nat) (start : Kernel) (system : SyscallSystem) : Prop :=
  ∀ capId, start.Protected caller capId →
    capLookup system.kernel.caps capId = capLookup start.caps capId ∧
    ∀ type, capCheck system.kernel.caps capId type = capCheck start.caps capId type

def SyscallAction.Destroys : SyscallAction → Int → Prop
  | .call _ num a0 _ _ _, capId => syscallOf num = some .capDestroy ∧ intArg a0 = capId
  | _, _ => False

def SyscallAction.Creates : SyscallAction → Prop
  | .call _ num a0 _ _ _ => syscallOf num = some .capCreate ∧
      (a0.setWidth 32 = capMemory ∨ a0.setWidth 32 = capIo)
  | _ => False

/-- The condition at each `SYS_CAP_DESTROY`. -/
def SparesProtected (caller : Nat) (start : Kernel) (_ : SyscallSystem) (action : SyscallAction)
    (_ : SyscallSystem) : Prop :=
  ∀ capId, action.Destroys capId → start.Protected caller capId →
    capLookup start.caps capId = none

/-- The condition at each `SYS_CAP_CREATE`. -/
def ReusesUnprotected (caller : Nat) (start : Kernel) (system : SyscallSystem)
    (action : SyscallAction) (_ : SyscallSystem) : Prop :=
  action.Creates → ∀ index, NextEntry system.kernel.caps index → ¬start.Protected caller index

def SyscallAction.pool (caps : Caps) : SyscallAction → Caps
  | .call _ num a0 a1 a2 _ =>
      match syscallOf num with
      | some .capDestroy => (capDestroy caps (intArg a0)).1
      | some .capCreate =>
          if a0.setWidth 32 = capMemory ∨ a0.setWidth 32 = capIo then
            (capAlloc caps ⟨a0.setWidth 32, 0, a1, a2⟩).1
          else caps
      | _ => caps
  | _ => caps

variable {cpus pgdTable caller : Nat} {taskTrampoline : Word} {start : Kernel}
  {system next : SyscallSystem}

theorem syscallHandler_caps (kernel : Kernel) (cpu : Nat) (num a0 a1 a2 a3 : Word) :
    (syscallHandler kernel cpu num a0 a1 a2 a3).1.caps =
      (SyscallAction.call cpu num a0 a1 a2 a3).pool kernel.caps := by
  simp only [syscallHandler, SyscallAction.pool]
  rcases syscallOf num with _ | call
  · rfl
  · cases call with
    | send | recv | exit => dsimp only; split <;> rfl
    | capCreate => dsimp only; split <;> rfl
    | yield | capDestroy | mapPage | debugPrint => rfl

theorem syscallResume_caps (kernel : Kernel) (tail : SyscallTail) :
    (syscallResume kernel tail).1.caps = kernel.caps := by
  cases tail with
  | recv ep => dsimp only [syscallResume]; split <;> rfl
  | yield | send | exit => rfl

theorem step_pool {action : SyscallAction}
    (stepped : system.step cpus pgdTable taskTrampoline caller action = some next) :
    next.kernel.caps = action.pool system.kernel.caps := by
  have scheduled : ∀ action control,
      system.task cpus pgdTable taskTrampoline action control = some next →
      next.kernel.caps = system.kernel.caps := by
    intro action control moved
    obtain ⟨tasks, _, rfl⟩ := Option.map_eq_some_iff.mp moved
    rfl
  cases action with
  | call cpu num a0 a1 a2 a3 =>
      rw [← syscallHandler_caps system.kernel cpu num a0 a1 a2 a3]
      simp only [SyscallSystem.step, Option.ite_none_right_eq_some] at stepped
      obtain ⟨_, called⟩ := stepped
      split at called
      next kernel value result =>
        rw [← Option.some.inj called, result]
      next kernel tail result =>
        rw [← Option.some.inj called, result]
  | resume cpu =>
      simp only [SyscallSystem.step, Option.ite_none_right_eq_some] at stepped
      obtain ⟨_, resumed⟩ := stepped
      split at resumed
      next tail _ =>
        rw [← Option.some.inj resumed]
        exact syscallResume_caps system.kernel tail
      next => cases resumed
  | schedule cpu => exact scheduled _ _ stepped
  | contextSwitch cpu => exact scheduled _ _ stepped
  | block cpu => exact scheduled _ _ stepped
  | wake taskId => exact scheduled _ _ stepped

theorem SyscallAction.pool_lookup {caps : Caps} {action : SyscallAction} {capId : Int}
    (spared : action.Destroys capId → capLookup caps capId = none)
    (unreused : action.Creates → ∀ index, NextEntry caps index → capId ≠ index) :
    capLookup (action.pool caps) capId = capLookup caps capId := by
  cases action with
  | call cpu num a0 a1 a2 a3 =>
      simp only [SyscallAction.pool]
      split
      next destroys =>
        by_cases named : intArg a0 = capId
        · rw [named, capDestroy_unused (named ▸ spared ⟨destroys, named⟩)]
        · exact capDestroy_lookup_other named
      next creates =>
        by_cases valid : a0.setWidth 32 = capMemory ∨ a0.setWidth 32 = capIo
        · rw [if_pos valid]
          exact capAlloc_lookup_other (unreused ⟨creates, valid⟩) _
        · rw [if_neg valid]
      next => rfl
  | _ => rfl

theorem SyscallAction.Destroys.pool {caps : Caps} {action : SyscallAction} {capId : Int}
    (destroys : action.Destroys capId) : action.pool caps = (capDestroy caps capId).1 := by
  cases action with
  | call cpu num a0 a1 a2 a3 =>
      obtain ⟨named, rfl⟩ := destroys
      simp only [SyscallAction.pool, named]
  | _ => exact destroys.elim

theorem SyscallAction.Creates.pool {action : SyscallAction} (creates : action.Creates)
    (caps : Caps) : ∃ cap, action.pool caps = (capAlloc caps cap).1 := by
  cases action with
  | call cpu num a0 a1 a2 a3 =>
      obtain ⟨named, valid⟩ := creates
      exact ⟨_, by simp only [SyscallAction.pool, named, if_pos valid]; rfl⟩
  | _ => exact creates.elim

theorem ProtectedKept.step (kept : ProtectedKept caller start system) {action : SyscallAction}
    (stepped : system.step cpus pgdTable taskTrampoline caller action = some next)
    (spares : SparesProtected caller start system action next) :
    ProtectedKept caller start next := by
  intro capId cap isolated found
  have before := kept capId cap isolated found
  rw [step_pool stepped, SyscallAction.pool_lookup, before]
  · intro destroys
    rw [spares capId destroys isolated] at found
    cases found
  · rintro _ index taken rfl
    rw [capLookup_unused taken.2.1] at before
    cases before

theorem ProtectedKept.lost (kept : ProtectedKept caller start system) {action : SyscallAction}
    (stepped : system.step cpus pgdTable taskTrampoline caller action = some next)
    (unspared : ¬SparesProtected caller start system action next) :
    ¬ProtectedKept caller start next := by
  intro still
  apply unspared
  intro capId destroys isolated
  by_contra used
  obtain ⟨cap, found⟩ := Option.ne_none_iff_exists'.mp used
  have after := still capId cap isolated found
  rw [step_pool stepped, destroys.pool] at after
  exact capDestroy_lookup (kept capId cap isolated found) after

theorem LookupsKept.protectedKept (kept : LookupsKept caller start system) :
    ProtectedKept caller start system :=
  fun capId _ isolated found => (kept capId isolated).1.trans found

theorem LookupsKept.step (kept : LookupsKept caller start system) {action : SyscallAction}
    (stepped : system.step cpus pgdTable taskTrampoline caller action = some next)
    (spares : SparesProtected caller start system action next)
    (reuses : ReusesUnprotected caller start system action next) :
    LookupsKept caller start next := by
  intro capId isolated
  have same : capLookup next.kernel.caps capId = capLookup start.caps capId := by
    rw [step_pool stepped, SyscallAction.pool_lookup]
    · exact (kept capId isolated).1
    · intro destroys
      exact (kept capId isolated).1.trans (spares capId destroys isolated)
    · rintro creates index taken rfl
      exact reuses creates index taken isolated
  exact ⟨same, fun type => by rw [capCheck, capCheck, same]⟩

theorem LookupsKept.lost (kept : LookupsKept caller start system) {action : SyscallAction}
    (stepped : system.step cpus pgdTable taskTrampoline caller action = some next)
    (unmet : ¬(SparesProtected caller start system action next ∧
      ReusesUnprotected caller start system action next)) : ¬LookupsKept caller start next := by
  intro still
  apply unmet
  constructor
  · by_contra unspared
    exact kept.protectedKept.lost stepped unspared still.protectedKept
  · intro creates index taken isolated
    obtain ⟨cap, pool⟩ := creates.pool system.kernel.caps
    have after := (still index isolated).1
    rw [step_pool stepped, pool, capAlloc_lookup taken, ← (kept index isolated).1,
      capLookup_unused taken.2.1] at after
    cases after

/-- From any state, the calls of a task leave the capabilities of the others alone exactly
when they destroy none of them, and what the handles of the others report exactly when
they also take no entry that a stale handle of another task names. -/
theorem syscalls_confined_iff (cpus pgdTable : Nat) (taskTrampoline : Word) (caller : Nat)
    (start : Kernel) (control : SyscallControl) (actions : List SyscallAction) :
    (Transition.EveryState (SyscallSystem.step cpus pgdTable taskTrampoline caller)
        (ProtectedKept caller start) ⟨start, control⟩ actions ↔
      Transition.EveryStep (SyscallSystem.step cpus pgdTable taskTrampoline caller)
        (SparesProtected caller start) ⟨start, control⟩ actions) ∧
    (Transition.EveryState (SyscallSystem.step cpus pgdTable taskTrampoline caller)
        (LookupsKept caller start) ⟨start, control⟩ actions ↔
      Transition.EveryStep (SyscallSystem.step cpus pgdTable taskTrampoline caller)
        (fun system action next => SparesProtected caller start system action next ∧
          ReusesUnprotected caller start system action next) ⟨start, control⟩ actions) := by
  constructor
  · exact Transition.everyState_iff_everyStep (fun _ kept => kept)
      (fun _ _ _ kept => kept.step) (fun _ _ _ kept => kept.lost)
      (fun _ _ _ found => found) actions
  · exact Transition.everyState_iff_everyStep (fun _ kept => kept)
      (fun _ _ _ kept stepped met => kept.step stepped met.1 met.2)
      (fun _ _ _ kept => kept.lost) (fun _ _ => ⟨rfl, fun _ => rfl⟩) actions

def closedEndpoints : Nat → IpcEndpoint := fun _ =>
  ⟨false, -1, -1, ⟨.replicate 4 0, -1⟩, false⟩

/-- Task 0 is handed a capability, and task 1 runs. -/
def lendsCap : List CapAction := [.task (.create [] 0), .task (.create [] 0), .capAlloc smallCap,
  .taskAddCap 0 0, .task (.schedule 0), .task (.contextSwitch 0)]

theorem capDestroy_unconfined :
    ¬∀ start control actions,
      Transition.EveryState (SyscallSystem.step 1 smallTables.pgdTable 0 1)
        (ProtectedKept 1 start) ⟨start, control⟩ actions := by
  intro all
  have lent : (Transition.exec (CapSystem.step 1 smallTables.pgdTable 0)
      (CapSystem.boot smallTables smallMm noCaps) lendsCap).any (fun system =>
        let tasks := system.tasks.machine.smp.tasks
        decide (system.tasks.runsTask 1 0) && decide (system.tasks.machine.smp.current 0 = 1) &&
        decide (taskGet system.tasks.states 0 = some 0) && decide (0 < (tasks 0).numCaps) &&
        decide ((tasks 0).capTable 0 = 0) && decide ((tasks 1).numCaps = 0) &&
        decide (capLookup system.caps 0 = some { smallCap with refcount := 1 })) = true := by
    decide +kernel
  obtain ⟨system, _, facts⟩ := (Option.any_eq_true _ _).mp lent
  simp only [Bool.and_eq_true, decide_eq_true_eq] at facts
  obtain ⟨⟨⟨⟨⟨⟨runs, current⟩, live⟩, filled⟩, handle⟩, empty⟩, found⟩ := facts
  obtain ⟨start, same⟩ : ∃ start, start = Kernel.mk system.tasks closedEndpoints system.caps :=
    ⟨_, rfl⟩
  have isolated : start.Protected 1 0 := by
    subst same
    refine ⟨⟨0, by decide, live, 0, filled, handle⟩, ?_⟩
    intro position bound
    rw [empty] at bound
    exact absurd bound (Nat.not_lt_zero position)
  have stepped : SyscallSystem.step 1 smallTables.pgdTable 0 1 ⟨start, .outside⟩
      (.call 0 4 0 0 0 0) =
        some ⟨{ start with caps := (capDestroy start.caps 0).1 }, .outside⟩ := by
    subst same
    exact if_pos ⟨rfl, runs, current⟩
  have kept : ProtectedKept 1 start ⟨start, .outside⟩ := fun _ _ _ found => found
  refine kept.lost stepped ?_ ((all start .outside [_]).last
    (Transition.exec_cons_iff.mpr ⟨_, stepped, rfl⟩))
  intro spares
  have gone := spares 0 ⟨rfl, rfl⟩ isolated
  rw [same, found] at gone
  cases gone

end DragoonKernel
