import DragoonKernel.IpcSpec

/-!
Blocked callers and the endpoint fields that are to wake them: an invariant, with one
lemma for each way in which a call leaves an endpoint.
-/

namespace DragoonKernel

def BlockedIn (system : IpcSystem) (task : Nat) (control : IpcControl) : Prop :=
  system.controls task = control ∧ system.ipc.states task = .blocked

/-- Every task that is blocked in a call can be woken by the next call on its endpoint. -/
structure NoOrphans (system : IpcSystem) : Prop where
  sender : ∀ task ep call, BlockedIn system task (.sending ep call) →
    (system.ipc.endpoints ep).active = true ∧ (system.ipc.endpoints ep).senderTask = task ∧
      (system.ipc.endpoints ep).hasPending = true
  receiver : ∀ task ep, BlockedIn system task (.receiving ep) →
    (system.ipc.endpoints ep).active = true ∧ (system.ipc.endpoints ep).receiverTask = task ∧
      (system.ipc.endpoints ep).hasPending = false
  woken : ∀ task ep call msg, system.controls task = .sending ep call →
    (call, msg) ∈ (system.ledgers ep).receipts → system.ipc.states task = .ready

/-- The recorded waiters of an endpoint are exactly its blocked callers. -/
structure Balanced (system : IpcSystem) (ep : Nat) : Prop where
  sender : ∀ task : Nat, (system.ipc.endpoints ep).senderTask = task ↔
    ∃ call, BlockedIn system task (.sending ep call)
  receiver : ∀ task : Nat, (system.ipc.endpoints ep).receiverTask = task ↔
    BlockedIn system task (.receiving ep)
  senderPending : ∀ task call, BlockedIn system task (.sending ep call) →
    (system.ipc.endpoints ep).active = true ∧ (system.ipc.endpoints ep).hasPending = true ∧
      ∀ msg, (call, msg) ∉ (system.ledgers ep).receipts
  receiverIdle : ∀ task, BlockedIn system task (.receiving ep) →
    (system.ipc.endpoints ep).active = true ∧ (system.ipc.endpoints ep).hasPending = false
  deposited : (system.ipc.endpoints ep).hasPending = true →
    0 < (system.ledgers ep).deposits.length
  numbered : ∀ receipt ∈ (system.ledgers ep).receipts,
    receipt.1 < (system.ledgers ep).deposits.length

structure Settled (system : IpcSystem) (task : Nat) : Prop where
  bound : system.controls task ≠ .outside → task < maxTasks
  waiting : system.controls task ≠ .outside →
    system.ipc.states task = .blocked ∨ system.ipc.states task = .ready
  sendingTo : ∀ ep call, system.controls task = .sending ep call → ep < maxEndpoints
  receivingFrom : ∀ ep, system.controls task = .receiving ep → ep < maxEndpoints

structure IpcSystem.Consistent (system : IpcSystem) : Prop where
  balanced : ∀ ep < maxEndpoints, Balanced system ep
  settled : ∀ task, Settled system task

theorem IpcSystem.Consistent.noOrphans {system : IpcSystem} (consistent : system.Consistent) :
    NoOrphans system := by
  constructor
  · intro task ep call blocked
    have balanced := consistent.balanced ep ((consistent.settled task).sendingTo ep call blocked.1)
    obtain ⟨active, pending, _⟩ := balanced.senderPending task call blocked
    exact ⟨active, (balanced.sender task).mpr ⟨call, blocked⟩, pending⟩
  · intro task ep blocked
    have balanced := consistent.balanced ep ((consistent.settled task).receivingFrom ep blocked.1)
    obtain ⟨active, idle⟩ := balanced.receiverIdle task blocked
    exact ⟨active, (balanced.receiver task).mpr blocked, idle⟩
  · intro task ep call msg control taken
    have settled := consistent.settled task
    rcases settled.waiting (by simp [control]) with blocked | ready
    · have balanced := consistent.balanced ep (settled.sendingTo ep call control)
      exact absurd taken ((balanced.senderPending task call ⟨control, blocked⟩).2.2 msg)
    · exact ready

theorem Balanced.no_sender {system : IpcSystem} {ep : Nat} (balanced : Balanced system ep)
    (unrecorded : (system.ipc.endpoints ep).senderTask < 0) (task call : Nat) :
    ¬BlockedIn system task (.sending ep call) := by
  intro blocked
  have recorded := (balanced.sender task).mpr ⟨call, blocked⟩
  omega

theorem Balanced.no_receiver {system : IpcSystem} {ep : Nat} (balanced : Balanced system ep)
    (unrecorded : (system.ipc.endpoints ep).receiverTask < 0) (task : Nat) :
    ¬BlockedIn system task (.receiving ep) := by
  intro blocked
  have recorded := (balanced.receiver task).mpr blocked
  omega

theorem Balanced.recorded_sender {system : IpcSystem} {ep : Nat} (balanced : Balanced system ep)
    (recorded : ¬(system.ipc.endpoints ep).senderTask < 0) :
    ∃ task call, (system.ipc.endpoints ep).senderTask = (task : Nat) ∧
      BlockedIn system task (.sending ep call) := by
  obtain ⟨task, same⟩ := Int.eq_ofNat_of_zero_le (Int.not_lt.mp recorded)
  obtain ⟨call, blocked⟩ := (balanced.sender task).mp same
  exact ⟨task, call, same, blocked⟩

theorem Balanced.recorded_receiver {system : IpcSystem} {ep : Nat} (balanced : Balanced system ep)
    (recorded : ¬(system.ipc.endpoints ep).receiverTask < 0) :
    ∃ task, (system.ipc.endpoints ep).receiverTask = (task : Nat) ∧
      BlockedIn system task (.receiving ep) := by
  obtain ⟨task, same⟩ := Int.eq_ofNat_of_zero_le (Int.not_lt.mp recorded)
  exact ⟨task, same, (balanced.receiver task).mp same⟩

theorem Balanced.congr {system after : IpcSystem} {ep : Nat} (balanced : Balanced system ep)
    (endpoint : after.ipc.endpoints ep = system.ipc.endpoints ep)
    (receipts : (after.ledgers ep).receipts = (system.ledgers ep).receipts)
    (deposits : (after.ledgers ep).deposits = (system.ledgers ep).deposits)
    (senders : ∀ task call, BlockedIn after task (.sending ep call) ↔
      BlockedIn system task (.sending ep call))
    (receivers : ∀ task, BlockedIn after task (.receiving ep) ↔
      BlockedIn system task (.receiving ep)) : Balanced after ep := by
  constructor
  · simpa only [endpoint, senders] using balanced.sender
  · simpa only [endpoint, receivers] using balanced.receiver
  · simpa only [endpoint, receipts, senders] using balanced.senderPending
  · simpa only [endpoint, receivers] using balanced.receiverIdle
  · simpa only [endpoint, deposits] using balanced.deposited
  · simpa only [receipts, deposits] using balanced.numbered

theorem blockedIn_wake {system after : IpcSystem} {woken : Nat}
    (controls : after.controls = system.controls)
    (states : after.ipc.states = Function.update system.ipc.states woken .ready)
    (task : Nat) (control : IpcControl) :
    BlockedIn after task control ↔ task ≠ woken ∧ BlockedIn system task control := by
  rw [BlockedIn, BlockedIn, controls, states]
  by_cases here : task = woken
  · simp [here]
  · simp [here]

theorem blockedIn_block {system after : IpcSystem} {caller : Nat} {entered : IpcControl}
    (awake : system.ipc.states caller ≠ .blocked)
    (controls : after.controls = Function.update system.controls caller entered)
    (states : after.ipc.states = Function.update system.ipc.states caller .blocked)
    (task : Nat) (control : IpcControl) :
    BlockedIn after task control ↔
      (task = caller ∧ control = entered) ∨ BlockedIn system task control := by
  rw [BlockedIn, BlockedIn, controls, states]
  by_cases here : task = caller
  · subst here
    simp [awake, eq_comm]
  · simp [here]

theorem blockedIn_leave {system after : IpcSystem} {caller : Nat}
    (awake : system.ipc.states caller ≠ .blocked)
    (controls : after.controls = Function.update system.controls caller .outside)
    (states : after.ipc.states = system.ipc.states) (task : Nat) (control : IpcControl) :
    BlockedIn after task control ↔ BlockedIn system task control := by
  rw [BlockedIn, BlockedIn, controls, states]
  by_cases here : task = caller
  · subst here
    simp [awake]
  · simp [here]

/-- The parts of the invariant that a dispatch keeps for all tasks but the current one. -/
structure IpcSystem.ConsistentBut (system : IpcSystem) (current : Nat) : Prop where
  balanced : ∀ ep < maxEndpoints, Balanced system ep
  settled : ∀ task, task ≠ current → Settled system task
  inside : ∀ ep, (∀ call, system.controls current = .sending ep call → ep < maxEndpoints) ∧
    (system.controls current = .receiving ep → ep < maxEndpoints)
  bound : current < maxTasks
  running : system.ipc.states current = .running

theorem IpcSystem.Consistent.dispatched {system current : IpcSystem} {task : Nat}
    (consistent : system.Consistent) (dispatched : Dispatched system current task) :
    current.ConsistentBut task := by
  have same : ∀ other control, BlockedIn current other control ↔ BlockedIn system other control := by
    intro other control
    rw [BlockedIn, BlockedIn, dispatched.controls, dispatched.blocked]
  constructor
  · intro ep bound
    exact (consistent.balanced ep bound).congr (by rw [dispatched.endpoints])
      (by rw [dispatched.ledgers]) (by rw [dispatched.ledgers])
      (fun other call => same other _) (fun other => same other _)
  · intro other different
    have settled := consistent.settled other
    constructor
    · rw [dispatched.controls]
      exact settled.bound
    · rw [dispatched.controls, dispatched.blocked]
      intro inside
      exact (settled.waiting inside).imp_right (dispatched.ready other different)
    · rw [dispatched.controls]
      exact settled.sendingTo
    · rw [dispatched.controls]
      exact settled.receivingFrom
  · intro ep
    rw [dispatched.controls]
    exact ⟨(consistent.settled task).sendingTo ep, (consistent.settled task).receivingFrom ep⟩
  · exact dispatched.bound
  · exact dispatched.running

theorem IpcSystem.ConsistentBut.awake {system : IpcSystem} {current : Nat}
    (consistent : system.ConsistentBut current) : system.ipc.states current ≠ .blocked := by
  simp [consistent.running]

theorem IpcSystem.ConsistentBut.live {system : IpcSystem} {current : Nat}
    (consistent : system.ConsistentBut current) (state : TaskState) :
    setState system.ipc.states current state =
      Function.update system.ipc.states current state :=
  setState_live consistent.bound (by simp [consistent.running]) state

theorem settled_outside {system : IpcSystem} {task : Nat}
    (outside : system.controls task = .outside) : Settled system task := by
  constructor <;> simp [outside]

theorem Settled.wake {system after : IpcSystem} {task woken : Nat} (settled : Settled system task)
    (controls : after.controls task = system.controls task)
    (states : after.ipc.states = Function.update system.ipc.states woken .ready) :
    Settled after task := by
  constructor
  · rw [controls]
    exact settled.bound
  · rw [controls, states]
    intro inside
    by_cases here : task = woken
    · simp [here]
    · rw [Function.update_of_ne here]
      exact settled.waiting inside
  · rw [controls]
    exact settled.sendingTo
  · rw [controls]
    exact settled.receivingFrom

theorem Settled.congr {system after : IpcSystem} {task : Nat} (settled : Settled system task)
    (controls : after.controls task = system.controls task)
    (states : after.ipc.states task = system.ipc.states task) : Settled after task := by
  constructor
  · rw [controls]
    exact settled.bound
  · rw [controls, states]
    exact settled.waiting
  · rw [controls]
    exact settled.sendingTo
  · rw [controls]
    exact settled.receivingFrom

theorem settled_blocked {system after : IpcSystem} {task target : Nat} {control : IpcControl}
    (inside : task < maxTasks) (bound : target < maxEndpoints)
    (waits : control = .receiving target ∨ ∃ call, control = .sending target call)
    (controls : after.controls = Function.update system.controls task control)
    (states : after.ipc.states = Function.update system.ipc.states task .blocked) :
    Settled after task := by
  have here : after.controls task = control := by rw [controls, Function.update_self]
  refine ⟨fun _ => inside, fun _ => Or.inl ?_, ?_, ?_⟩
  · rw [states, Function.update_self]
  · intro ep call sending
    rcases waits with rfl | ⟨_, rfl⟩
    · cases here.symm.trans sending
    · cases here.symm.trans sending
      exact bound
  · intro ep receiving
    rcases waits with rfl | ⟨_, rfl⟩
    · cases here.symm.trans receiving
      exact bound
    · cases here.symm.trans receiving

/-- A step that changes one endpoint has to balance that endpoint only. -/
theorem IpcSystem.ConsistentBut.close {system after : IpcSystem} {task target : Nat}
    (consistent : system.ConsistentBut task)
    (endpoints : ∀ ep, ep ≠ target → after.ipc.endpoints ep = system.ipc.endpoints ep)
    (ledgers : ∀ ep, ep ≠ target → after.ledgers ep = system.ledgers ep)
    (senders : ∀ other ep call, ep ≠ target →
      (BlockedIn after other (.sending ep call) ↔ BlockedIn system other (.sending ep call)))
    (receivers : ∀ other ep, ep ≠ target →
      (BlockedIn after other (.receiving ep) ↔ BlockedIn system other (.receiving ep)))
    (balanced : Balanced after target) (settled : ∀ other, other ≠ task → Settled after other)
    (caller : Settled after task) : after.Consistent := by
  constructor
  · intro ep bound
    by_cases here : ep = target
    · exact here ▸ balanced
    · exact (consistent.balanced ep bound).congr (endpoints ep here) (by rw [ledgers ep here])
        (by rw [ledgers ep here]) (fun other call => senders other ep call here)
        (fun other => receivers other ep here)
  · intro other
    by_cases here : other = task
    · exact here ▸ caller
    · exact settled other here

theorem IpcSystem.ConsistentBut.delivered {system after : IpcSystem} {task target receiver : Nat}
    {msg : IpcMessage} (consistent : system.ConsistentBut task)
    (outside : system.controls task = .outside) (bound : target < maxEndpoints)
    (waiting : (system.ipc.endpoints target).receiverTask = receiver)
    (endpoints : after.ipc.endpoints = Function.update system.ipc.endpoints target
      { system.ipc.endpoints target with pendingMsg := msg, hasPending := true, receiverTask := -1 })
    (states : after.ipc.states = Function.update system.ipc.states receiver .ready)
    (controls : after.controls = system.controls)
    (ledgers : after.ledgers = Function.update system.ledgers target
      (((system.ledgers target).deposit msg).complete (system.ledgers target).deposits.length)) :
    after.Consistent := by
  have woken := fun other control => blockedIn_wake controls states other control
  have balanced := consistent.balanced target bound
  have blocked := (balanced.receiver receiver).mp waiting
  have idle := (balanced.receiverIdle receiver blocked).2
  have apart : ∀ other control, control ≠ .receiving target →
      (BlockedIn after other control ↔ BlockedIn system other control) := by
    intro other control different
    rw [woken]
    refine ⟨And.right, fun inside => ⟨?_, inside⟩⟩
    rintro rfl
    exact different (inside.1.symm.trans blocked.1)
  have senders : ∀ other ep call, BlockedIn after other (.sending ep call) ↔
      BlockedIn system other (.sending ep call) := fun other ep call => apart other _ nofun
  have noReceiver : ∀ other, ¬BlockedIn after other (.receiving target) := by
    intro other inside
    obtain ⟨different, inside⟩ := (woken other _).mp inside
    have recorded := (balanced.receiver other).mpr inside
    omega
  apply consistent.close
    (fun ep different => by rw [endpoints, Function.update_of_ne different])
    (fun ep different => by rw [ledgers, Function.update_of_ne different])
    (fun other ep call _ => senders other ep call)
    (fun other ep different => apart other _ (by simpa using different))
  · constructor
    · intro other
      simp only [endpoints, Function.update_self, senders]
      exact balanced.sender other
    · intro other
      simp only [endpoints, Function.update_self, noReceiver, iff_false]
      omega
    · intro other call inside
      have pending := (balanced.senderPending other call ((senders other _ _).mp inside)).2.1
      simp [idle] at pending
    · exact fun other inside => absurd inside (noReceiver other)
    · simp [ledgers, IpcLedger.complete, IpcLedger.deposit]
    · intro receipt listed
      simp only [ledgers, Function.update_self, IpcLedger.complete, IpcLedger.deposit,
        List.length_append, List.length_singleton] at listed ⊢
      have known := balanced.numbered receipt listed
      omega
  · exact fun other different => (consistent.settled other different).wake (by rw [controls]) states
  · exact settled_outside (by rw [controls, outside])

theorem IpcSystem.ConsistentBut.blockedSend {system after : IpcSystem} {task target : Nat}
    {msg : IpcMessage} (consistent : system.ConsistentBut task) (bound : target < maxEndpoints)
    (active : (system.ipc.endpoints target).active = true)
    (unrecorded : (system.ipc.endpoints target).senderTask < 0)
    (unwaited : (system.ipc.endpoints target).receiverTask < 0)
    (endpoints : after.ipc.endpoints = Function.update system.ipc.endpoints target
      { system.ipc.endpoints target with pendingMsg := msg, hasPending := true, senderTask := task })
    (states : after.ipc.states = Function.update system.ipc.states task .blocked)
    (controls : after.controls = Function.update system.controls task
      (.sending target (system.ledgers target).deposits.length))
    (ledgers : after.ledgers = Function.update system.ledgers target
      ((system.ledgers target).deposit msg)) : after.Consistent := by
  have entered := fun other control =>
    blockedIn_block consistent.awake controls states other control
  have balanced := consistent.balanced target bound
  have senders : ∀ other call, BlockedIn after other (.sending target call) ↔
      other = task ∧ call = (system.ledgers target).deposits.length := by
    intro other call
    simp [entered, balanced.no_sender unrecorded]
  have noReceiver : ∀ other, ¬BlockedIn after other (.receiving target) := by
    intro other
    simp [entered, balanced.no_receiver unwaited]
  apply consistent.close
    (fun ep different => by rw [endpoints, Function.update_of_ne different])
    (fun ep different => by rw [ledgers, Function.update_of_ne different])
    (fun other ep call different => by simp [entered, different])
    (fun other ep different => by simp [entered])
  · constructor
    · intro other
      simp only [endpoints, Function.update_self, senders]
      constructor
      · intro same
        exact ⟨_, by omega, rfl⟩
      · rintro ⟨_, rfl, _⟩
        rfl
    · intro other
      simp only [endpoints, Function.update_self, noReceiver, iff_false]
      omega
    · intro other call inside
      obtain ⟨_, rfl⟩ := (senders other call).mp inside
      simp only [endpoints, ledgers, Function.update_self, IpcLedger.deposit]
      refine ⟨active, trivial, fun content listed => ?_⟩
      have known := balanced.numbered _ listed
      simp at known
    · exact fun other inside => absurd inside (noReceiver other)
    · simp [ledgers, IpcLedger.deposit]
    · intro receipt listed
      simp only [ledgers, Function.update_self, IpcLedger.deposit,
        List.length_append, List.length_singleton] at listed ⊢
      have known := balanced.numbered receipt listed
      omega
  · intro other different
    exact (consistent.settled other different).congr
      (by rw [controls, Function.update_of_ne different])
      (by rw [states, Function.update_of_ne different])
  · exact settled_blocked consistent.bound bound (Or.inr ⟨_, rfl⟩) controls states

theorem IpcSystem.ConsistentBut.wakeSender {system after : IpcSystem} {task target : Nat}
    (consistent : system.ConsistentBut task) (bound : target < maxEndpoints)
    (states : after.ipc.states =
      setState system.ipc.states (system.ipc.endpoints target).senderTask .ready)
    (controls : after.controls = system.controls) :
    ∃ woken, (after.ipc.states = system.ipc.states ∨
        after.ipc.states = Function.update system.ipc.states woken .ready) ∧
      ∀ other control, BlockedIn after other control ↔ BlockedIn system other control ∧
        ∀ call, control ≠ .sending target call := by
  have balanced := consistent.balanced target bound
  -- with no recorded sender nobody is woken
  by_cases recorded : (system.ipc.endpoints target).senderTask < 0
  · have same := states.trans (setState_negative recorded .ready)
    refine ⟨0, Or.inl same, ?_⟩
    intro other control
    rw [BlockedIn, controls, same]
    refine ⟨fun inside => ⟨inside, ?_⟩, And.left⟩
    rintro call rfl
    exact balanced.no_sender recorded other call inside
  · obtain ⟨sender, call, isSender, blocked⟩ := balanced.recorded_sender recorded
    have notTask : sender ≠ task := by
      rintro rfl
      exact consistent.awake blocked.2
    have alive : system.ipc.states sender ≠ .dead := by simp [blocked.2]
    have live := setState_live
      ((consistent.settled sender notTask).bound (by simp [blocked.1])) alive .ready
    rw [isSender, live] at states
    refine ⟨sender, Or.inr states, ?_⟩
    intro other control
    rw [blockedIn_wake controls states]
    constructor
    · rintro ⟨different, inside⟩
      refine ⟨inside, ?_⟩
      rintro number rfl
      have same := (balanced.sender other).mpr ⟨number, inside⟩
      omega
    · rintro ⟨inside, different⟩
      refine ⟨?_, inside⟩
      rintro rfl
      exact different call (inside.1.symm.trans blocked.1)

theorem IpcSystem.ConsistentBut.received {system after : IpcSystem} {task target : Nat}
    (consistent : system.ConsistentBut task) (outside : system.controls task = .outside)
    (bound : target < maxEndpoints) (pending : (system.ipc.endpoints target).hasPending = true)
    (endpoints : after.ipc.endpoints = Function.update system.ipc.endpoints target
      { system.ipc.endpoints target with
        hasPending := false
        senderTask :=
          if 0 ≤ (system.ipc.endpoints target).senderTask then -1
          else (system.ipc.endpoints target).senderTask })
    (states : after.ipc.states =
      setState system.ipc.states (system.ipc.endpoints target).senderTask .ready)
    (controls : after.controls = system.controls)
    (ledgers : after.ledgers = Function.update system.ledgers target
      ((system.ledgers target).receive (system.ipc.endpoints target).pendingMsg)) :
    after.Consistent := by
  have balanced := consistent.balanced target bound
  obtain ⟨woken, wakes, only⟩ := consistent.wakeSender bound states controls
  have noSender : ∀ other call, ¬BlockedIn after other (.sending target call) :=
    fun other call inside => ((only other _).mp inside).2 call rfl
  have noReceiver : ∀ other, ¬BlockedIn after other (.receiving target) := by
    intro other inside
    have idle := (balanced.receiverIdle other ((only other _).mp inside).1).2
    simp [pending] at idle
  apply consistent.close
    (fun ep different => by rw [endpoints, Function.update_of_ne different])
    (fun ep different => by rw [ledgers, Function.update_of_ne different])
    (fun other ep call different => by simp [only, different])
    (fun other ep different => by simp [only])
  · constructor
    · intro other
      simp only [endpoints, Function.update_self, noSender, exists_false, iff_false]
      intro same
      split_ifs at same
      omega
    · intro other
      simp only [endpoints, Function.update_self, only]
      simpa using balanced.receiver other
    · exact fun other call inside => absurd inside (noSender other call)
    · exact fun other inside => absurd inside (noReceiver other)
    · simp [endpoints]
    · intro receipt listed
      have deposited := balanced.deposited pending
      simp only [ledgers, Function.update_self, IpcLedger.receive, List.mem_append,
        List.mem_singleton] at listed ⊢
      rcases listed with listed | rfl
      · exact balanced.numbered receipt listed
      · exact Nat.sub_lt deposited Nat.one_pos
  · intro other different
    have settled := consistent.settled other different
    rcases wakes with same | wakes
    · exact settled.congr (by rw [controls]) (by rw [same])
    · exact settled.wake (by rw [controls]) wakes
  · exact settled_outside (by rw [controls, outside])

theorem IpcSystem.ConsistentBut.blockedRecv {system after : IpcSystem} {task target : Nat}
    (consistent : system.ConsistentBut task) (bound : target < maxEndpoints)
    (active : (system.ipc.endpoints target).active = true)
    (idle : (system.ipc.endpoints target).hasPending = false)
    (unrecorded : (system.ipc.endpoints target).receiverTask < 0)
    (endpoints : after.ipc.endpoints = Function.update system.ipc.endpoints target
      { system.ipc.endpoints target with receiverTask := task })
    (states : after.ipc.states = Function.update system.ipc.states task .blocked)
    (controls : after.controls = Function.update system.controls task (.receiving target))
    (ledgers : after.ledgers = system.ledgers) : after.Consistent := by
  have entered := fun other control =>
    blockedIn_block consistent.awake controls states other control
  have balanced := consistent.balanced target bound
  have receivers : ∀ other, BlockedIn after other (.receiving target) ↔ other = task := by
    intro other
    simp [entered, balanced.no_receiver unrecorded]
  have senders : ∀ other ep call, BlockedIn after other (.sending ep call) ↔
      BlockedIn system other (.sending ep call) := by
    intro other ep call
    simp [entered]
  apply consistent.close
    (fun ep different => by rw [endpoints, Function.update_of_ne different])
    (fun ep different => by rw [ledgers])
    (fun other ep call _ => senders other ep call)
    (fun other ep different => by simp [entered, different])
  · constructor
    · intro other
      simp only [endpoints, Function.update_self, senders]
      exact balanced.sender other
    · intro other
      simp only [endpoints, Function.update_self, receivers]
      omega
    · intro other call inside
      have pending := (balanced.senderPending other call ((senders other _ _).mp inside)).2.1
      simp [idle] at pending
    · intro other _
      simp only [endpoints, Function.update_self]
      exact ⟨active, idle⟩
    · simp [endpoints, idle]
    · rw [ledgers]
      exact balanced.numbered
  · intro other different
    exact (consistent.settled other different).congr
      (by rw [controls, Function.update_of_ne different])
      (by rw [states, Function.update_of_ne different])
  · exact settled_blocked consistent.bound bound (Or.inl rfl) controls states

theorem IpcSystem.ConsistentBut.tail {system after : IpcSystem} {task target : Nat}
    (consistent : system.ConsistentBut task) (bound : target < maxEndpoints)
    (endpoints : ∀ ep, ep ≠ target → after.ipc.endpoints ep = system.ipc.endpoints ep)
    (fields : (after.ipc.endpoints target).active = (system.ipc.endpoints target).active ∧
      (after.ipc.endpoints target).senderTask = (system.ipc.endpoints target).senderTask ∧
      (after.ipc.endpoints target).receiverTask = (system.ipc.endpoints target).receiverTask)
    (others : ∀ ep, ep ≠ target → after.ledgers ep = system.ledgers ep)
    (states : after.ipc.states = system.ipc.states)
    (controls : after.controls = Function.update system.controls task .outside)
    (pending : ((after.ipc.endpoints target).hasPending =
        (system.ipc.endpoints target).hasPending ∧
        (after.ledgers target).receipts = (system.ledgers target).receipts) ∨
      ((after.ipc.endpoints target).hasPending = false ∧
        (system.ipc.endpoints target).hasPending = true ∧
        (system.ipc.endpoints target).senderTask < 0 ∧
        ∃ msg, (after.ledgers target).receipts =
          ((system.ledgers target).receive msg).receipts))
    (deposits : (after.ledgers target).deposits = (system.ledgers target).deposits) :
    after.Consistent := by
  have left := fun other control => blockedIn_leave consistent.awake controls states other control
  have balanced := consistent.balanced target bound
  obtain ⟨active, sender, receiver⟩ := fields
  apply consistent.close endpoints others (fun other ep call _ => left other _)
    (fun other ep _ => left other _)
  · constructor
    · intro other
      simp only [sender, left]
      exact balanced.sender other
    · intro other
      rw [receiver, left]
      exact balanced.receiver other
    · intro other call inside
      have before := balanced.senderPending other call ((left other _).mp inside)
      rcases pending with ⟨same, receipts⟩ | ⟨_, _, unrecorded, _⟩
      · rw [active, same, receipts]
        exact before
      · exact absurd ((left other _).mp inside) (balanced.no_sender unrecorded other call)
    · intro other inside
      have before := balanced.receiverIdle other ((left other _).mp inside)
      rcases pending with ⟨same, _⟩ | ⟨emptied, _⟩
      · rw [active, same]
        exact before
      · exact ⟨active.trans before.1, emptied⟩
    · rw [deposits]
      rcases pending with ⟨same, _⟩ | ⟨emptied, _⟩
      · rw [same]
        exact balanced.deposited
      · simp [emptied]
    · rw [deposits]
      rcases pending with ⟨_, receipts⟩ | ⟨_, waiting, _, msg, receipts⟩
      · rw [receipts]
        exact balanced.numbered
      · intro receipt listed
        simp only [receipts, IpcLedger.receive, List.mem_append, List.mem_singleton] at listed
        rcases listed with listed | rfl
        · exact balanced.numbered receipt listed
        · exact Nat.sub_lt (balanced.deposited waiting) Nat.one_pos
  · intro other different
    exact (consistent.settled other different).congr
      (by rw [controls, Function.update_of_ne different]) (by rw [states])
  · exact settled_outside (by rw [controls, Function.update_self])

theorem IpcSystem.ConsistentBut.replaced {system after : IpcSystem} {task target : Nat}
    (consistent : system.ConsistentBut task) (outside : system.controls task = .outside)
    (bound : target < maxEndpoints) {endpoint : IpcEndpoint}
    (noSender : ∀ other call, ¬BlockedIn system other (.sending target call))
    (noReceiver : ∀ other, ¬BlockedIn system other (.receiving target))
    (unrecorded : endpoint.senderTask < 0 ∧ endpoint.receiverTask < 0)
    (pending : endpoint.hasPending = true → (system.ipc.endpoints target).hasPending = true)
    (changed : after = { system with ipc := { system.ipc with
      endpoints := Function.update system.ipc.endpoints target endpoint } }) :
    after.Consistent := by
  subst changed
  have balanced := consistent.balanced target bound
  have same : ∀ other control, BlockedIn { system with ipc := { system.ipc with
      endpoints := Function.update system.ipc.endpoints target endpoint } } other control ↔
      BlockedIn system other control := fun _ _ => Iff.rfl
  refine consistent.close (fun ep different => Function.update_of_ne different _ _)
    (fun _ _ => rfl) (fun other ep call _ => same other _) (fun other ep _ => same other _) ?_ ?_ ?_
  · constructor
    · intro other
      simp only [Function.update_self, same, noSender, exists_false, iff_false]
      omega
    · intro other
      simp only [Function.update_self, same, noReceiver, iff_false]
      omega
    · exact fun other call inside => absurd inside (noSender other call)
    · exact fun other inside => absurd inside (noReceiver other)
    · simp only [Function.update_self]
      exact fun waiting => balanced.deposited (pending waiting)
    · exact balanced.numbered
  · exact fun other different => (consistent.settled other different).congr rfl rfl
  · exact settled_outside outside

theorem IpcSystem.ConsistentBut.unchanged {system : IpcSystem} {task : Nat}
    (consistent : system.ConsistentBut task) (outside : system.controls task = .outside) :
    system.Consistent := by
  refine ⟨consistent.balanced, fun other => ?_⟩
  by_cases here : other = task
  · exact here ▸ settled_outside outside
  · exact consistent.settled other here

end DragoonKernel
