import DragoonKernel.IpcWaiters
import DragoonKernel.Library.Transition

/-!
Every blocked caller can be woken in exactly the runs in which no recorded waiter is
overwritten, left behind by the tail of a receive, or dropped by the destruction of its
endpoint.
-/

namespace DragoonKernel

/-- The condition under which no caller is orphaned, on the state before each step. -/
def KeepsWaiters (system : IpcSystem) (action : IpcAction) (_ : IpcSystem) : Prop :=
  match action with
  | .call _ (.send epId _) => ∀ ep, system.ipc.activeEndpoint epId = some ep →
      (system.ipc.endpoints ep).receiverTask < 0 → (system.ipc.endpoints ep).senderTask < 0
  | .call _ (.recv epId) => ∀ ep, system.ipc.activeEndpoint epId = some ep →
      (system.ipc.endpoints ep).hasPending = false → (system.ipc.endpoints ep).receiverTask < 0
  | .call task .resume => ∀ ep, system.controls task = .receiving ep →
      (system.ipc.endpoints ep).hasPending = true → (system.ipc.endpoints ep).senderTask < 0
  | .create _ => True
  | .destroy _ epId => ∀ ep < maxEndpoints, epId = (ep : Int) →
      (system.ipc.endpoints ep).senderTask < 0 ∧ (system.ipc.endpoints ep).receiverTask < 0

theorem IpcSystem.ConsistentBut.receiver_none {system : IpcSystem} {task ep : Nat}
    (consistent : system.ConsistentBut task) (bound : ep < maxEndpoints)
    (notFound : taskGet system.ipc.states (system.ipc.endpoints ep).receiverTask = none) :
    (system.ipc.endpoints ep).receiverTask < 0 := by
  by_contra recorded
  obtain ⟨receiver, same, blocked⟩ := (consistent.balanced ep bound).recorded_receiver recorded
  have notTask : receiver ≠ task := by
    rintro rfl
    exact consistent.awake blocked.2
  have found : taskGet system.ipc.states (system.ipc.endpoints ep).receiverTask = some receiver :=
    taskGet_some.mpr ⟨same, (consistent.settled receiver notTask).bound (by simp [blocked.1]),
      by simp [blocked.2]⟩
  rw [notFound] at found
  simp at found

theorem IpcSystem.ConsistentBut.effect {system after : IpcSystem} {task : Nat} {call : IpcCall}
    (consistent : system.ConsistentBut task)
    (guard : KeepsWaiters system (.call task call) after)
    (effect : IpcEffect system task call after) : after.Consistent := by
  cases effect with
  | refusedSend outside => exact consistent.unchanged outside
  | refusedRecv outside => exact consistent.unchanged outside
  | delivered outside found waiting =>
      exact consistent.delivered outside (activeEndpoint_some.mp found).2.1
        (taskGet_some.mp waiting).1 rfl rfl rfl rfl
  | @blockedSend ep msg outside found waiting =>
      obtain ⟨_, bound, active⟩ := activeEndpoint_some.mp found
      have unwaited := consistent.receiver_none bound waiting
      exact consistent.blockedSend bound active (guard ep found unwaited) unwaited rfl
        (consistent.live .blocked) rfl rfl
  | received outside found pending =>
      exact consistent.received outside (activeEndpoint_some.mp found).2.1 pending rfl rfl rfl rfl
  | @blockedRecv ep outside found idle =>
      obtain ⟨_, bound, active⟩ := activeEndpoint_some.mp found
      exact consistent.blockedRecv bound active idle (guard ep found idle) rfl
        (consistent.live .blocked) rfl rfl
  | @sendTail ep number control =>
      refine consistent.tail ((consistent.inside ep).1 number control) (fun _ _ => rfl)
        ⟨rfl, rfl, rfl⟩ (fun other different => Function.update_of_ne different _ _) rfl rfl ?_ ?_
      · exact Or.inl ⟨rfl, by simp [IpcLedger.complete]⟩
      · simp [IpcLedger.complete]
  | @recvTail ep control pending =>
      refine consistent.tail ((consistent.inside ep).2 control)
        (fun other different => Function.update_of_ne different _ _) (by simp)
        (fun other different => Function.update_of_ne different _ _) rfl rfl ?_ ?_
      · refine Or.inr ⟨by simp, pending, guard ep control pending,
          (system.ipc.endpoints ep).pendingMsg, ?_⟩
        simp only [Function.update_self]
      · simp [IpcLedger.receive]
  | @emptyTail ep control idle =>
      exact consistent.tail ((consistent.inside ep).2 control) (fun _ _ => rfl) ⟨rfl, rfl, rfl⟩
        (fun _ _ => rfl) rfl rfl (Or.inl ⟨rfl, rfl⟩) rfl

theorem ipcEndpointCreate_cases (ipc : Ipc) :
    ipcEndpointCreate ipc = (ipc, -1) ∨
      ∃ ep < maxEndpoints, (ipc.endpoints ep).active = false ∧ ipcEndpointCreate ipc =
        ({ ipc with endpoints :=
            Function.update ipc.endpoints ep ((ipc.endpoints ep).reset true) }, (ep : Int)) := by
  unfold ipcEndpointCreate
  split
  next ep found =>
    have listed := List.mem_of_find?_eq_some found
    have inactive := List.find?_some found
    exact Or.inr ⟨ep, List.mem_range.mp listed, by simpa using inactive, rfl⟩
  next => exact Or.inl rfl

theorem ipcEndpointDestroy_inside (ipc : Ipc) {ep : Nat} (bound : ep < maxEndpoints) :
    ipcEndpointDestroy ipc ep =
      { ipc with
        endpoints := Function.update ipc.endpoints ep
          { ipc.endpoints ep with active := false } } := by
  unfold ipcEndpointDestroy
  rw [if_neg (by omega), Int.toNat_natCast]

theorem ipcEndpointDestroy_outside (ipc : Ipc) {epId : Int}
    (outside : ∀ ep < maxEndpoints, epId ≠ (ep : Int)) : ipcEndpointDestroy ipc epId = ipc := by
  unfold ipcEndpointDestroy
  apply if_pos
  by_contra inside
  exact outside epId.toNat (by omega) (by omega)

/-- A caller that stays blocked while its endpoint stops naming it is orphaned. -/
theorem IpcSystem.ConsistentBut.effect_spoils {system after : IpcSystem} {task : Nat}
    {call : IpcCall} (consistent : system.ConsistentBut task)
    (effect : IpcEffect system task call after)
    (unmet : ¬KeepsWaiters system (.call task call) after) : ¬NoOrphans after := by
  intro noOrphans
  have apart : ∀ other control, BlockedIn system other control → other ≠ task := by
    rintro other control blocked rfl
    exact consistent.awake blocked.2
  cases effect with
  | refusedSend _ refused =>
      apply unmet
      intro ep found
      simp [refused] at found
  | refusedRecv _ refused =>
      apply unmet
      intro ep found
      simp [refused] at found
  | @delivered ep receiver msg _ found waiting =>
      apply unmet
      intro other same unwaited
      obtain rfl : ep = other := by simpa [found] using same
      have recorded := (taskGet_some.mp waiting).1
      omega
  | @blockedSend ep msg _ found waiting =>
      apply unmet
      intro other same _
      obtain rfl : ep = other := by simpa [found] using same
      by_contra recorded
      have bound := (activeEndpoint_some.mp found).2.1
      obtain ⟨sender, number, _, blocked⟩ := (consistent.balanced ep bound).recorded_sender recorded
      have different := apart sender _ blocked
      have still := (noOrphans.sender sender ep number
        ((blockedIn_block consistent.awake rfl (consistent.live .blocked) sender _).mpr
          (Or.inr blocked))).2.1
      simp only [Function.update_self] at still
      omega
  | received _ found pending =>
      apply unmet
      intro other same idle
      obtain rfl := Option.some.inj (found.symm.trans same)
      simp [pending] at idle
  | @blockedRecv ep _ found idle =>
      apply unmet
      intro other same _
      obtain rfl : ep = other := by simpa [found] using same
      by_contra recorded
      have bound := (activeEndpoint_some.mp found).2.1
      obtain ⟨receiver, _, blocked⟩ := (consistent.balanced ep bound).recorded_receiver recorded
      have different := apart receiver _ blocked
      have still := (noOrphans.receiver receiver ep
        ((blockedIn_block consistent.awake rfl (consistent.live .blocked) receiver _).mpr
          (Or.inr blocked))).2.1
      simp only [Function.update_self] at still
      omega
  | sendTail control =>
      apply unmet
      intro ep inside
      simp [control] at inside
  | @recvTail ep control pending =>
      apply unmet
      intro other inside _
      obtain rfl : ep = other := by simpa [control] using inside
      by_contra recorded
      have bound := (consistent.inside ep).2 control
      obtain ⟨sender, number, _, blocked⟩ := (consistent.balanced ep bound).recorded_sender recorded
      have still := (noOrphans.sender sender ep number
        ((blockedIn_leave consistent.awake (by rfl) (by rfl) sender _).mpr blocked)).2.2
      simp at still
  | emptyTail control idle =>
      apply unmet
      intro ep inside pending
      obtain rfl := (IpcControl.receiving.inj (control.symm.trans inside))
      simp [idle] at pending

theorem KeepsWaiters.dispatched {system current after : IpcSystem} {task : Nat} {call : IpcCall}
    (dispatched : Dispatched system current task) :
    KeepsWaiters system (.call task call) after ↔ KeepsWaiters current (.call task call) after := by
  cases call <;>
    simp only [KeepsWaiters, Ipc.activeEndpoint, dispatched.endpoints, dispatched.controls]

theorem step_endpoint {system after : IpcSystem} {task : Nat} {ipc : IpcSystem → Ipc}
    (stepped : (if system.controls task = .outside then
      (system.dispatch task).map fun current => { current with ipc := ipc current }
      else none) = some after) :
    ∃ current, Dispatched system current task ∧ current.controls task = .outside ∧
      after = { current with ipc := ipc current } := by
  simp only [Option.ite_none_right_eq_some, Option.map_eq_some_iff] at stepped
  obtain ⟨outside, current, dispatched, rfl⟩ := stepped
  have same := dispatch_some dispatched
  exact ⟨current, same, by rw [same.controls, outside], rfl⟩

theorem IpcSystem.Consistent.step {system after : IpcSystem} {action : IpcAction}
    (consistent : system.Consistent) (stepped : system.step action = some after)
    (guard : KeepsWaiters system action after) : after.Consistent := by
  cases action with
  | call task call =>
      obtain ⟨current, dispatched, effect⟩ := callStep_some stepped
      exact (consistent.dispatched dispatched).effect
        ((KeepsWaiters.dispatched dispatched).mp guard) effect
  | create task =>
      obtain ⟨current, dispatched, outside, rfl⟩ := step_endpoint stepped
      have consistent := consistent.dispatched dispatched
      rcases ipcEndpointCreate_cases current.ipc with same | ⟨ep, bound, inactive, same⟩
      · rw [same]
        exact consistent.unchanged outside
      · have balanced := consistent.balanced ep bound
        refine consistent.replaced outside bound ?_ ?_ ?_ ?_ (by rw [same])
        · intro other call inside
          simp [(balanced.senderPending other call inside).1] at inactive
        · intro other inside
          simp [(balanced.receiverIdle other inside).1] at inactive
        · simp [IpcEndpoint.reset]
        · simp [IpcEndpoint.reset]
  | destroy task epId =>
      obtain ⟨current, dispatched, outside, rfl⟩ := step_endpoint stepped
      have consistent := consistent.dispatched dispatched
      by_cases inside : ∃ ep < maxEndpoints, epId = (ep : Int)
      · obtain ⟨ep, bound, rfl⟩ := inside
        have balanced := consistent.balanced ep bound
        have unrecorded := guard ep bound rfl
        rw [← dispatched.endpoints] at unrecorded
        refine consistent.replaced outside bound (balanced.no_sender unrecorded.1)
          (balanced.no_receiver unrecorded.2) ?_ ?_
          (congrArg (fun ipc => { current with ipc := ipc })
            (ipcEndpointDestroy_inside current.ipc bound))
        · exact unrecorded
        · exact id
      · rw [ipcEndpointDestroy_outside current.ipc
          fun ep bound same => inside ⟨ep, bound, same⟩]
        exact consistent.unchanged outside

theorem IpcSystem.Consistent.step_spoils {system after : IpcSystem} {action : IpcAction}
    (consistent : system.Consistent) (stepped : system.step action = some after)
    (unmet : ¬KeepsWaiters system action after) : ¬NoOrphans after := by
  cases action with
  | call task call =>
      obtain ⟨current, dispatched, effect⟩ := callStep_some stepped
      exact (consistent.dispatched dispatched).effect_spoils effect
        (fun guard => unmet ((KeepsWaiters.dispatched dispatched).mpr guard))
  | create task => exact absurd trivial unmet
  | destroy task epId =>
      obtain ⟨current, dispatched, outside, rfl⟩ := step_endpoint stepped
      have consistent := consistent.dispatched dispatched
      intro noOrphans
      apply unmet
      rintro ep bound rfl
      rw [← dispatched.endpoints]
      rw [ipcEndpointDestroy_inside current.ipc bound] at noOrphans
      have balanced := consistent.balanced ep bound
      constructor
      · by_contra recorded
        obtain ⟨sender, number, _, blocked⟩ := balanced.recorded_sender recorded
        have active := (noOrphans.sender sender ep number blocked).1
        simp at active
      · by_contra recorded
        obtain ⟨receiver, _, blocked⟩ := balanced.recorded_receiver recorded
        have active := (noOrphans.receiver receiver ep blocked).1
        simp at active

def IpcSystem.boot (ipc : Ipc) : IpcSystem where
  ipc := ipcInit ipc
  controls := fun _ => .outside
  ledgers := fun _ => ⟨[], [], []⟩

theorem boot_consistent_ipc (ipc : Ipc) : (IpcSystem.boot ipc).Consistent := by
  constructor
  · intro ep bound
    constructor <;>
      simp [IpcSystem.boot, ipcInit, bound, IpcEndpoint.reset, BlockedIn]
  · exact fun task => settled_outside rfl

/-- Over every interleaving of the four operations, no caller is orphaned in any state
if and only if no step loses a recorded waiter. -/
theorem ipc_noOrphans_iff (ipc : Ipc) (actions : List IpcAction) :
    Transition.EveryState IpcSystem.step NoOrphans (IpcSystem.boot ipc) actions ↔
      Transition.EveryStep IpcSystem.step KeepsWaiters (IpcSystem.boot ipc) actions := by
  refine Transition.everyState_iff_everyStep ?_ ?_ ?_ (boot_consistent_ipc ipc) actions
  · exact fun system consistent => consistent.noOrphans
  · exact fun system action after consistent stepped guard => consistent.step stepped guard
  · exact fun system action after consistent stepped unmet => consistent.step_spoils stepped unmet

def readyTasks : Ipc where
  endpoints := fun _ => ⟨false, -1, -1, ⟨#v[0, 0, 0, 0], -1⟩, false⟩
  states := fun task => if task < 3 then .ready else .dead

/-- The second blocking send takes the place of the first in `sender_task`. -/
def secondSender : List IpcAction :=
  [.create 0, .call 1 (.send 0 ⟨#v[1, 0, 0, 0], -1⟩), .call 2 (.send 0 ⟨#v[2, 0, 0, 0], -1⟩)]

theorem first_sender_orphaned :
    ¬∀ ipc actions, Transition.EveryState IpcSystem.step NoOrphans (IpcSystem.boot ipc) actions := by
  intro all
  have orphaned : (Transition.exec IpcSystem.step (IpcSystem.boot readyTasks) secondSender).any
      (fun system => decide (system.controls 1 = .sending 0 0) &&
        decide (system.ipc.states 1 = .blocked) &&
        decide ((system.ipc.endpoints 0).senderTask = 2)) = true := by
    decide +kernel
  obtain ⟨system, run, facts⟩ := (Option.any_eq_true _ _).mp orphaned
  simp only [Bool.and_eq_true, decide_eq_true_eq] at facts
  obtain ⟨⟨control, blocked⟩, recorded⟩ := facts
  have noOrphans := (all readyTasks secondSender).last run
  have first := (noOrphans.sender 1 0 0 ⟨control, blocked⟩).2.1
  rw [recorded] at first
  simp at first

end DragoonKernel
