import DragoonKernel.ContextSwitchSpec
import DragoonKernel.Library.Transition

/-!
Loads of saved contexts. They are never stale in runs in which no decision of
`schedule()` comes first upon a ready task that another CPU has yet to save.
-/

namespace DragoonKernel

structure TracedMachine where
  machine : Machine
  lastRegs : Nat → TaskContext

inductive SwitchAction where
  | run (cpu : Nat) (regs : TaskContext)
  | schedule (cpu : Nat)
  | contextSwitch (cpu : Nat)

def TracedMachine.step (cpus : Nat) (traced : TracedMachine) : SwitchAction → Option TracedMachine
  | .run cpu regs =>
      if cpu < cpus then some {
        machine := { traced.machine with regs := Function.update traced.machine.regs cpu regs }
        lastRegs := fun task =>
          if traced.machine.owner cpu = .task task then regs else traced.lastRegs task }
      else none
  | .schedule cpu =>
      if cpu < cpus ∧ traced.machine.phases cpu = .running then
        some { traced with machine := traced.machine.schedule cpu }
      else none
  | .contextSwitch cpu =>
      match traced.machine.phases cpu with
      | .running => none
      | .switching old new ttbr0 =>
          if cpu < cpus then
            some { traced with machine := traced.machine.contextSwitch cpu old new ttbr0 }
          else none

def UnsavedElsewhere (cpus : Nat) (machine : Machine) (cpu task : Nat) : Prop :=
  ∃ other < cpus, other ≠ cpu ∧ ∃ new ttbr0,
    machine.phases other = .switching (.task task) new ttbr0

/-- The condition at each decision: a ready task that another CPU has yet to save is
preceded in the search by one that is saved. -/
def DecidesSaved (cpus : Nat) (traced : TracedMachine) (action : SwitchAction)
    (_ : TracedMachine) : Prop :=
  match action with
  | .schedule cpu => Shielded traced.machine.smp.states
      (scanStart (traced.machine.smp.current cpu)) (UnsavedElsewhere cpus traced.machine cpu)
  | _ => True

/-- A load of a task's context: no other CPU still holds the task's registers, and the
context is what the task's code last had. -/
def LoadsSaved (cpus : Nat) (traced : TracedMachine) (action : SwitchAction)
    (after : TracedMachine) : Prop :=
  ∀ cpu old task ttbr0, action = .contextSwitch cpu →
    traced.machine.phases cpu = .switching old (.task task) ttbr0 →
    (∀ other < cpus, other ≠ cpu → traced.machine.owner other ≠ .task task) ∧
      after.machine.regs cpu = traced.lastRegs task

abbrev RunsCurrent (cpus : Nat) (machine : Machine) : Prop :=
  CurrentTasks (· = .running) cpus machine.smp

structure Held (cpus : Nat) (traced : TracedMachine) : Prop where
  current : RunsCurrent cpus traced.machine
  target : ∀ cpu < cpus, ∀ old new ttbr0,
    traced.machine.phases cpu = .switching old new ttbr0 →
      old ≠ new ∧ new = traced.machine.smp.currentContext cpu
  exclusive : ∀ first < cpus, ∀ second < cpus, first ≠ second → ∀ task,
    traced.machine.owner first = .task task → traced.machine.owner second ≠ .task task
  targetFree : ∀ cpu < cpus, ∀ old task ttbr0,
    traced.machine.phases cpu = .switching old (.task task) ttbr0 →
    ∀ other < cpus, other ≠ cpu → traced.machine.owner other ≠ .task task
  live : ∀ cpu < cpus, ∀ task, traced.machine.owner cpu = .task task →
    traced.machine.regs cpu = traced.lastRegs task
  saved : ∀ task, (∀ cpu < cpus, traced.machine.owner cpu ≠ .task task) →
    (traced.machine.smp.tasks task).ctx = traced.lastRegs task

theorem RunsCurrent.mayLeave {cpus cpu : Nat} {machine : Machine}
    (current : RunsCurrent cpus machine) (bound : cpu < cpus) : MayLeave machine.smp cpu := by
  intro task runs
  obtain ⟨inside, running⟩ := current.states cpu bound task runs
  exact ⟨inside, by rw [running]; decide⟩

theorem RunsCurrent.leaves_owner {cpus cpu : Nat} {machine : Machine} {smp : Smp}
    {old new : ContextRef} (current : RunsCurrent cpus machine) (bound : cpu < cpus)
    (phase : machine.phases cpu = .running) (decided : Decided machine cpu smp old new) :
    old = machine.owner cpu := by
  rcases decided.leaves with same | ⟨_, task, runs, dead⟩
  · rw [same, owner_running phase]
  · have running := (current.states cpu bound task runs).2
    rw [dead] at running
    cases running

theorem Held.run {cpus cpu : Nat} {traced after : TracedMachine} {regs : TaskContext}
    (held : Held cpus traced) (stepped : traced.step cpus (.run cpu regs) = some after) :
    Held cpus after := by
  simp only [TracedMachine.step, Option.ite_none_right_eq_some, Option.some.injEq] at stepped
  obtain ⟨bound, rfl⟩ := stepped
  refine ⟨held.current, held.target, held.exclusive,
    held.targetFree, ?_, ?_⟩
  · intro other otherBound task owns
    simp only
    by_cases here : other = cpu
    · subst here
      rw [Function.update_self, if_pos]
      exact owns
    · rw [Function.update_of_ne here, if_neg]
      · exact held.live other otherBound task owns
      · exact held.exclusive other otherBound cpu bound here task owns
  · intro task free
    simp only
    rw [if_neg]
    · exact held.saved task free
    · exact free cpu bound

theorem Held.decided {cpus cpu : Nat} {traced : TracedMachine} {smp : Smp} {old new : ContextRef}
    {ttbr0 : Word} (held : Held cpus traced) (bound : cpu < cpus)
    (phase : traced.machine.phases cpu = .running)
    (decided : Decided traced.machine cpu smp old new)
    (saved : ∀ task, new = .task task → ¬UnsavedElsewhere cpus traced.machine cpu task) :
    Held cpus { traced with machine := traced.machine.leave cpu smp old new ttbr0 } := by
  have leavesOwner := held.current.leaves_owner bound phase decided
  have owner : ∀ other, (traced.machine.leave cpu smp old new ttbr0).owner other =
      traced.machine.owner other := by
    intro other
    rw [leave_owner decided]
    split
    next here => rw [here, leavesOwner]
    next => rfl
  have phaseHere := leave_phase traced.machine cpu smp old new ttbr0
  refine ⟨held.current.decided (by simp) rfl bound decided, ?_, ?_, ?_, ?_, ?_⟩
  · intro other otherBound left target root switching
    by_cases here : other = cpu
    · subst here
      cases phaseHere.symm.trans switching
      exact ⟨decided.moves, decided.target⟩
    · have before := held.target other otherBound left target root
        ((leave_phase_of_ne _ smp old new _ here).symm.trans switching)
      refine ⟨before.1, before.2.trans ?_⟩
      change _ = smp.currentContext other
      rw [Smp.currentContext, Smp.currentContext, decided.others other here]
  · intro first firstBound second secondBound different task
    rw [owner, owner]
    exact held.exclusive first firstBound second secondBound different task
  · intro other otherBound left task root switching third thirdBound different
    rw [owner]
    by_cases here : other = cpu
    · subst here
      cases phaseHere.symm.trans switching
      intro owns
      -- a running CPU's task is not ready, so the other CPU is yet to save it
      have ready := (findReady_ready ((decided.found task).mp rfl)).1
      cases phase : traced.machine.phases third with
      | running =>
          rw [owner_running phase, currentContext_task] at owns
          have running := (held.current.states third thirdBound task owns).2
          rw [ready] at running
          cases running
      | switching left new root =>
          rw [owner_switching phase] at owns
          subst owns
          exact saved task rfl ⟨third, thirdBound, different, new, root, phase⟩
    · exact held.targetFree other otherBound left task root
        ((leave_phase_of_ne _ smp old new _ here).symm.trans switching) third thirdBound different
  · intro other otherBound task
    rw [owner]
    exact held.live other otherBound task
  · intro task free
    change (smp.tasks task).ctx = _
    rw [decided.contexts]
    refine held.saved task fun other otherBound => ?_
    rw [← owner]
    exact free other otherBound

theorem Held.schedule {cpus cpu : Nat} {traced after : TracedMachine} (held : Held cpus traced)
    (stepped : traced.step cpus (.schedule cpu) = some after)
    (guarded : DecidesSaved cpus traced (.schedule cpu) after) : Held cpus after := by
  simp only [TracedMachine.step, Option.ite_none_right_eq_some, Option.some.injEq] at stepped
  obtain ⟨⟨bound, phase⟩, rfl⟩ := stepped
  rcases schedule_decided (held.current.mayLeave bound) with
    ⟨_, _, same⟩ | ⟨task, found, runs, _⟩ | ⟨smp, old, new, ttbr0, decided, same⟩
  · rw [same]
    exact held
  · exact absurd rfl (held.current.found_ne (by simp) bound runs found)
  · rw [same]
    refine held.decided bound phase decided ?_
    intro task named
    exact shielded_iff.mp guarded task ((decided.found task).mp named)

theorem Held.loads {cpus cpu task : Nat} {traced : TracedMachine} {old : ContextRef} {ttbr0 : Word}
    (held : Held cpus traced) (bound : cpu < cpus)
    (phase : traced.machine.phases cpu = .switching old (.task task) ttbr0) :
    (traced.machine.contextSwitch cpu old (.task task) ttbr0).regs cpu = traced.lastRegs task := by
  have moves := (held.target cpu bound old (.task task) ttbr0 phase).1
  rw [contextSwitch_loads ttbr0 moves]
  refine held.saved task fun other otherBound => ?_
  by_cases here : other = cpu
  · subst here
    rw [owner_switching phase]
    exact moves
  · exact held.targetFree cpu bound old task ttbr0 phase other otherBound here

theorem Held.contextSwitch {cpus cpu : Nat} {traced : TracedMachine} {old new : ContextRef}
    {ttbr0 : Word} (held : Held cpus traced) (bound : cpu < cpus)
    (phase : traced.machine.phases cpu = .switching old new ttbr0) :
    Held cpus
      { traced with machine := traced.machine.contextSwitch cpu old new ttbr0 } := by
  obtain ⟨moves, target⟩ := held.target cpu bound old new ttbr0 phase
  have owner : ∀ other, (traced.machine.contextSwitch cpu old new ttbr0).owner other =
      if other = cpu then new else traced.machine.owner other := contextSwitch_owner target
  have free : ∀ task, new = .task task → ∀ other < cpus, other ≠ cpu →
      traced.machine.owner other ≠ .task task := by
    intro task named other otherBound different
    subst named
    exact held.targetFree cpu bound old task ttbr0 phase other otherBound different
  refine ⟨held.current.congr (contextSwitch_states _ _ _ _ _) (contextSwitch_current _ _ _ _ _),
    ?_, ?_, ?_, ?_, ?_⟩
  · intro other otherBound left entered root switching
    obtain ⟨_, before⟩ := switching_of_contextSwitch switching
    simp only [contextSwitch_currentContext]
    exact held.target other otherBound left entered root before
  · intro first firstBound second secondBound different task
    simp only [owner]
    by_cases atFirst : first = cpu
    · subst atFirst
      rw [if_pos rfl, if_neg (Ne.symm different)]
      exact fun named => free task named second secondBound (Ne.symm different)
    · by_cases atSecond : second = cpu
      · subst atSecond
        rw [if_neg different, if_pos rfl]
        exact fun owns named => free task named first firstBound different owns
      · rw [if_neg atFirst, if_neg atSecond]
        exact held.exclusive first firstBound second secondBound different task
  · intro other otherBound left task root switching third thirdBound different
    obtain ⟨_, before⟩ := switching_of_contextSwitch switching
    simp only [owner]
    by_cases there : third = cpu
    · subst there
      rw [if_pos rfl]
      intro named
      have second := (held.target other otherBound left (.task task) root before).2
      rw [target, currentContext_task] at named
      exact held.current.distinct other otherBound third thirdBound (Ne.symm different) task
        (currentContext_task.mp second.symm) named
    · rw [if_neg there]
      exact held.targetFree other otherBound left task root before third thirdBound different
  · intro other otherBound task
    simp only [owner]
    by_cases here : other = cpu
    · subst here
      rw [if_pos rfl]
      rintro rfl
      exact held.loads bound phase
    · rw [if_neg here, contextSwitch_regs_of_ne _ _ _ _ here]
      exact held.live other otherBound task
  · intro task unowned
    simp only [contextSwitch_ctx]
    by_cases leaves : old = .task task
    · rw [if_pos leaves]
      exact held.live cpu bound task ((owner_switching phase).trans leaves)
    · rw [if_neg leaves]
      refine held.saved task fun other otherBound => ?_
      by_cases here : other = cpu
      · subst here
        rw [owner_switching phase]
        exact leaves
      · have after := unowned other otherBound
        simp only [owner] at after
        rwa [if_neg here] at after

/-- The machine with the registers that each task has, on its CPU or saved. -/
def Machine.traced (machine : Machine) (cpus : Nat) : TracedMachine where
  machine := machine
  lastRegs := fun task =>
    match (List.range cpus).find? fun cpu => machine.smp.current cpu = (task : Int) with
    | some cpu => machine.regs cpu
    | none => (machine.smp.tasks task).ctx

theorem traced_held {cpus : Nat} {machine : Machine}
    (running : ∀ cpu < cpus, machine.phases cpu = .running) (current : RunsCurrent cpus machine) :
    Held cpus (machine.traced cpus) := by
  have owner : ∀ cpu < cpus, ∀ task : Nat,
      machine.owner cpu = .task task ↔ machine.smp.current cpu = task := by
    intro cpu bound task
    rw [owner_running (running cpu bound), currentContext_task]
  refine ⟨current, ?_, ?_, ?_, ?_, ?_⟩
  · intro cpu bound old new ttbr0 switching
    cases (running cpu bound).symm.trans switching
  · intro first firstBound second secondBound different task atFirst atSecond
    exact current.distinct first firstBound second secondBound different task
      ((owner first firstBound task).mp atFirst) ((owner second secondBound task).mp atSecond)
  · intro cpu bound old task ttbr0 switching
    cases (running cpu bound).symm.trans switching
  · intro cpu bound task owns
    have here := (owner cpu bound task).mp owns
    simp only [Machine.traced]
    split
    next other found =>
      have same := List.find?_some found
      have otherBound := List.mem_range.mp (List.mem_of_find?_eq_some found)
      rw [decide_eq_true_eq] at same
      by_cases different : cpu = other
      · rw [different]
      · exact absurd same (current.distinct cpu bound other otherBound different task here)
    next missing =>
      rw [List.find?_eq_none] at missing
      exact absurd (decide_eq_true here) (missing cpu (List.mem_range.mpr bound))
  · intro task free
    simp only [Machine.traced]
    split
    next cpu found =>
      have same := List.find?_some found
      have bound := List.mem_range.mp (List.mem_of_find?_eq_some found)
      rw [decide_eq_true_eq] at same
      exact absurd ((owner cpu bound task).mpr same) (free cpu bound)
    next missing => rfl

theorem Held.step {cpus : Nat} {traced after : TracedMachine} {action : SwitchAction}
    (held : Held cpus traced) (stepped : traced.step cpus action = some after)
    (guarded : DecidesSaved cpus traced action after) :
    Held cpus after ∧ LoadsSaved cpus traced action after := by
  cases action with
  | run cpu regs =>
      refine ⟨held.run stepped, ?_⟩
      intro other old task ttbr0 impossible
      cases impossible
  | schedule cpu =>
      refine ⟨held.schedule stepped guarded, ?_⟩
      intro other old task ttbr0 impossible
      cases impossible
  | contextSwitch cpu =>
      simp only [TracedMachine.step] at stepped
      split at stepped
      next => cases stepped
      next old new ttbr0 phase =>
        rw [Option.ite_none_right_eq_some, Option.some.injEq] at stepped
        obtain ⟨bound, rfl⟩ := stepped
        refine ⟨held.contextSwitch bound phase, ?_⟩
        intro other left task root same switching
        cases same
        cases phase.symm.trans switching
        exact ⟨held.targetFree cpu bound old task ttbr0 phase, held.loads bound phase⟩

/-- A decision for a task that is yet to be saved, carried out at once, loads it too early. -/
theorem Held.unsaved_loads {cpus cpu : Nat} {traced after : TracedMachine}
    (held : Held cpus traced) (stepped : traced.step cpus (.schedule cpu) = some after)
    (unguarded : ¬DecidesSaved cpus traced (.schedule cpu) after) :
    ∃ final, after.step cpus (.contextSwitch cpu) = some final ∧
      ¬LoadsSaved cpus after (.contextSwitch cpu) final := by
  simp only [DecidesSaved, shielded_iff, Classical.not_forall, not_not] at unguarded
  obtain ⟨next, found, other, otherBound, different, new, root, unsaved⟩ := unguarded
  simp only [TracedMachine.step, Option.ite_none_right_eq_some, Option.some.injEq] at stepped
  obtain ⟨⟨bound, phase⟩, rfl⟩ := stepped
  rcases schedule_decided (held.current.mayLeave bound) with
    ⟨missing, _, _⟩ | ⟨task, again, runs, _⟩ | ⟨smp, old, target, ttbr0, decided, same⟩
  · rw [missing] at found
    cases found
  · exact absurd rfl (held.current.found_ne (by simp) bound runs again)
  · obtain rfl := (decided.found next).mpr found
    have entered := leave_phase traced.machine cpu smp old (.task next) ttbr0
    have owns := leave_owner decided ttbr0 other
    rw [if_neg different, owner_switching unsaved] at owns
    rw [← same] at entered owns
    let final := (traced.machine.schedule cpu).contextSwitch cpu old (.task next) ttbr0
    refine ⟨{ traced with machine := final }, ?_, ?_⟩
    · simp only [TracedMachine.step, entered, if_pos bound, final]
    · intro loads
      exact (loads cpu _ next ttbr0 rfl entered).1 other otherBound different owns

/-- For any number of CPUs and every interleaving: no stale context is loaded while every
decision meets the condition, and the first decision that does not leads to such a load. -/
theorem contextSwitch_loads_saved (cpus : Nat) (machine : Machine)
    (running : ∀ cpu < cpus, machine.phases cpu = .running) (current : RunsCurrent cpus machine) :
    (∀ actions, Transition.EveryStep (TracedMachine.step cpus) (DecidesSaved cpus)
        (machine.traced cpus) actions →
      Transition.EveryStep (TracedMachine.step cpus) (LoadsSaved cpus)
        (machine.traced cpus) actions) ∧
    ∀ actions cpu, Transition.EveryStep (TracedMachine.step cpus) (DecidesSaved cpus)
        (machine.traced cpus) actions →
      ¬Transition.EveryStep (TracedMachine.step cpus) (DecidesSaved cpus)
        (machine.traced cpus) (actions ++ [.schedule cpu]) →
      ¬Transition.EveryStep (TracedMachine.step cpus) (LoadsSaved cpus)
        (machine.traced cpus) (actions ++ [.schedule cpu, .contextSwitch cpu]) := by
  have start := traced_held running current
  constructor
  · intro actions guarded
    exact Transition.everyStep_of_guard (fun _ _ _ held stepped guard => held.step stepped guard)
      start guarded
  · intro actions cpu guarded unguarded loads
    rw [Transition.everyStep_append_iff] at unguarded loads
    refine unguarded ⟨guarded, fun middle run after stepped => ⟨?_, trivial⟩⟩
    have held := (Transition.everyState_of_guard
      (fun _ _ _ held stepped guard => (held.step stepped guard).1) start guarded).last run
    by_contra unmet
    obtain ⟨final, switched, stale⟩ := held.unsaved_loads stepped unmet
    exact stale (((loads.2 middle run) after stepped).2 final switched).1

def oneReady : Machine where
  smp := {
    tasks := fun task => { Task.zero with
      state := if task = 0 then .running else if task = 1 then .ready else .dead }
    percpu := fun cpu => Percpu.running (if cpu = 0 then 0 else -1) }
  regs := fun _ => { TaskContext.zero with sp := 0x1000 }
  ttbr0 := fun _ => 0
  phases := fun _ => .running

theorem oneReady_runsCurrent : RunsCurrent 2 oneReady := by
  refine CurrentTasks.single ?_ rfl
  intro cpu task runs
  simp only [oneReady, Smp.current, Percpu.running] at runs
  split at runs <;> omega

theorem contextSwitch_loads_saved_oneReady :
    (∀ actions, Transition.EveryStep (TracedMachine.step 2) (DecidesSaved 2)
        (oneReady.traced 2) actions →
      Transition.EveryStep (TracedMachine.step 2) (LoadsSaved 2) (oneReady.traced 2) actions) ∧
    ∀ actions cpu, Transition.EveryStep (TracedMachine.step 2) (DecidesSaved 2)
        (oneReady.traced 2) actions →
      ¬Transition.EveryStep (TracedMachine.step 2) (DecidesSaved 2)
        (oneReady.traced 2) (actions ++ [.schedule cpu]) →
      ¬Transition.EveryStep (TracedMachine.step 2) (LoadsSaved 2)
        (oneReady.traced 2) (actions ++ [.schedule cpu, .contextSwitch cpu]) :=
  contextSwitch_loads_saved 2 oneReady (fun _ _ => rfl) oneReady_runsCurrent

/-- Between the decision of CPU 0 to leave task 0 and its save, CPU 1 takes the task. -/
def tookUnsaved : List SwitchAction := [.schedule 0, .schedule 1]

theorem tookUnsaved_loads_stale :
    ¬∀ actions, Transition.EveryStep (TracedMachine.step 2) (LoadsSaved 2)
      (oneReady.traced 2) actions := by
  intro all
  have reached : ((Transition.exec (TracedMachine.step 2) (oneReady.traced 2) tookUnsaved).bind
      fun traced => (traced.step 2 (.contextSwitch 1)).map fun after => (traced, after)).any
      (fun states =>
        decide (states.1.machine.phases 1 = .switching (.idle 1) (.task 0) 0) &&
        decide (states.2.machine.regs 1 ≠ states.1.lastRegs 0)) = true := by
    decide +kernel
  obtain ⟨⟨traced, after⟩, found, facts⟩ := (Option.any_eq_true _ _).mp reached
  obtain ⟨middle, run, stepped⟩ := Option.bind_eq_some_iff.mp found
  obtain ⟨final, stepped, same⟩ := Option.map_eq_some_iff.mp stepped
  cases same
  simp only [Bool.and_eq_true, decide_eq_true_eq] at facts
  have loads := (all (tookUnsaved ++ [.contextSwitch 1])).snoc run stepped
  exact facts.2 (loads 1 _ 0 _ rfl facts.1).2

end DragoonKernel
