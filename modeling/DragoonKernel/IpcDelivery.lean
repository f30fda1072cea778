import DragoonKernel.IpcSpec
import DragoonKernel.Library.Transition

/-!
Exactly-once delivery on one endpoint. It holds in exactly the runs in which no
`ipc_send` on the endpoint finds a message pending.
-/

namespace DragoonKernel

/-- The deposit that is still in the endpoint, with its number. -/
def IpcEndpoint.pending (endpoint : IpcEndpoint) (ledger : IpcLedger) : List (Nat × IpcMessage) :=
  if endpoint.hasPending then [(ledger.deposits.length - 1, endpoint.pendingMsg)] else []

/-- Delivery as a receiver and a sender see it. -/
structure Delivers (endpoint : IpcEndpoint) (ledger : IpcLedger) : Prop where
  once : ∀ call ∈ ledger.returned, ∃ msg, (call, msg) ∈ ledger.deposits ∧
    ((ledger.receipts.filter (fun receipt => receipt.1 = call) = [(call, msg)] ∧
        (call, msg) ∉ endpoint.pending ledger) ∨
      (ledger.receipts.filter (fun receipt => receipt.1 = call) = [] ∧
        (call, msg) ∈ endpoint.pending ledger))
  kept : ∀ deposit ∈ ledger.deposits, deposit ∈ ledger.receipts ∨
    deposit ∈ endpoint.pending ledger
  ordered : (ledger.receipts.map Prod.fst).Pairwise (· < ·)

/-- The receipts are the deposits in their order, less the pending one. -/
structure InOrder (endpoint : IpcEndpoint) (ledger : IpcLedger) : Prop where
  numbered : ledger.deposits.map Prod.fst = List.range ledger.deposits.length
  whole : ledger.receipts ++ endpoint.pending ledger = ledger.deposits
  known : ∀ call ∈ ledger.returned, call < ledger.deposits.length

theorem filter_key_singleton {items : List (Nat × IpcMessage)} (distinct : (items.map Prod.fst).Nodup)
    {call : Nat} {msg : IpcMessage} (listed : (call, msg) ∈ items) :
    items.filter (fun item => item.1 = call) = [(call, msg)] := by
  induction items with
  | nil => simp at listed
  | cons item rest ih =>
      rw [List.map_cons, List.nodup_cons] at distinct
      rcases List.mem_cons.mp listed with rfl | listed
      · have noOther : rest.filter (fun item => item.1 = call) = [] := by
          rw [List.filter_eq_nil_iff]
          intro other inside
          simp only [decide_eq_true_eq]
          exact fun same => distinct.1 (List.mem_map.mpr ⟨other, inside, same⟩)
        simp [noOther]
      · have different : item.1 ≠ call :=
          fun same => distinct.1 (List.mem_map.mpr ⟨(call, msg), listed, same.symm⟩)
        rw [List.filter_cons_of_neg (by simpa using different), ih distinct.2 listed]

theorem InOrder.numbers_nodup {endpoint : IpcEndpoint} {ledger : IpcLedger}
    (inOrder : InOrder endpoint ledger) : (ledger.deposits.map Prod.fst).Nodup :=
  inOrder.numbered ▸ List.nodup_range

theorem InOrder.delivers {endpoint : IpcEndpoint} {ledger : IpcLedger}
    (inOrder : InOrder endpoint ledger) : Delivers endpoint ledger := by
  constructor
  · intro call listed
    have inside : call ∈ ledger.deposits.map Prod.fst := by
      rw [inOrder.numbered]
      exact List.mem_range.mpr (inOrder.known call listed)
    obtain ⟨⟨number, msg⟩, deposited, rfl⟩ := List.mem_map.mp inside
    refine ⟨msg, deposited, ?_⟩
    have single := filter_key_singleton inOrder.numbers_nodup deposited
    rw [← inOrder.whole, List.filter_append, List.append_eq_singleton_iff] at single
    rcases single with ⟨untaken, waiting⟩ | ⟨taken, gone⟩
    · right
      refine ⟨untaken, List.mem_of_mem_filter (waiting ▸ List.mem_singleton_self _)⟩
    · left
      refine ⟨taken, fun waiting => ?_⟩
      have kept := List.filter_eq_nil_iff.mp gone _ waiting
      simp at kept
  · intro deposit listed
    rw [← inOrder.whole] at listed
    exact List.mem_append.mp listed
  · have sublist : (ledger.receipts.map Prod.fst).Sublist (List.range ledger.deposits.length) := by
      rw [← inOrder.numbered]
      exact (inOrder.whole ▸ List.sublist_append_left _ _ :
        ledger.receipts.Sublist ledger.deposits).map _
    exact List.pairwise_lt_range.sublist sublist

theorem InOrder.deposit {endpoint after : IpcEndpoint} {ledger : IpcLedger}
    (inOrder : InOrder endpoint ledger) (idle : endpoint.hasPending = false) {msg : IpcMessage}
    (stored : after.hasPending = true ∧ after.pendingMsg = msg) :
    InOrder after (ledger.deposit msg) := by
  have whole := inOrder.whole
  simp only [IpcEndpoint.pending, idle, Bool.false_eq_true, if_false, List.append_nil] at whole
  constructor
  · simp [IpcLedger.deposit, inOrder.numbered, List.range_succ]
  · simp [IpcLedger.deposit, IpcEndpoint.pending, stored, whole]
  · intro call listed
    have bound := inOrder.known call listed
    simp only [IpcLedger.deposit, List.length_append, List.length_singleton]
    omega

theorem InOrder.complete {endpoint : IpcEndpoint} {ledger : IpcLedger}
    (inOrder : InOrder endpoint ledger) {call : Nat} (bound : call < ledger.deposits.length) :
    InOrder endpoint (ledger.complete call) := by
  refine ⟨inOrder.numbered, inOrder.whole, ?_⟩
  intro other listed
  rcases List.mem_append.mp listed with listed | listed
  · exact inOrder.known other listed
  · rw [List.mem_singleton.mp listed]
    exact bound

theorem InOrder.receive {endpoint after : IpcEndpoint} {ledger : IpcLedger}
    (inOrder : InOrder endpoint ledger) (waiting : endpoint.hasPending = true)
    (emptied : after.hasPending = false) :
    InOrder after (ledger.receive endpoint.pendingMsg) := by
  have whole := inOrder.whole
  simp only [IpcEndpoint.pending, waiting, if_true] at whole
  refine ⟨inOrder.numbered, ?_, inOrder.known⟩
  simp [IpcLedger.receive, IpcEndpoint.pending, emptied, whole]

theorem InOrder.congr {endpoint after : IpcEndpoint} {ledger : IpcLedger}
    (inOrder : InOrder endpoint ledger) (sameFlag : after.hasPending = endpoint.hasPending)
    (sameMsg : after.pendingMsg = endpoint.pendingMsg) : InOrder after ledger := by
  refine ⟨inOrder.numbered, ?_, inOrder.known⟩
  rw [IpcEndpoint.pending, sameFlag, sameMsg]
  exact inOrder.whole

theorem InOrder.overwritten {endpoint after : IpcEndpoint} {ledger next : IpcLedger}
    (inOrder : InOrder endpoint ledger) (waiting : endpoint.hasPending = true) {msg : IpcMessage}
    (deposits : next.deposits = (ledger.deposit msg).deposits)
    (receipts : next.receipts = ledger.receipts) : ¬Delivers after next := by
  intro delivers
  have whole := inOrder.whole
  simp only [IpcEndpoint.pending, waiting, if_true] at whole
  have last : (ledger.deposits.length - 1, endpoint.pendingMsg) ∈
      ledger.receipts ++ [(ledger.deposits.length - 1, endpoint.pendingMsg)] := by simp
  rw [whole] at last
  have positive : 0 < ledger.deposits.length := List.length_pos_of_mem last
  have distinct := inOrder.numbers_nodup
  rw [← whole, List.map_append, List.nodup_append] at distinct
  rcases delivers.kept (ledger.deposits.length - 1, endpoint.pendingMsg)
    (deposits ▸ List.mem_append_left _ last) with taken | kept
  · rw [receipts] at taken
    exact distinct.2.2 _ (List.mem_map_of_mem taken) _ (by simp) rfl
  · simp only [IpcEndpoint.pending, deposits, IpcLedger.deposit, List.length_append,
      List.length_singleton] at kept
    split at kept
    · simp only [List.mem_singleton, Prod.mk.injEq] at kept
      omega
    · simp at kept

structure IpcSystem.Serving (ep : Nat) (system : IpcSystem) : Prop where
  bound : ep < maxEndpoints
  active : (system.ipc.endpoints ep).active = true
  inOrder : InOrder (system.ipc.endpoints ep) (system.ledgers ep)
  sending : ∀ task call, system.controls task = .sending ep call →
    call < (system.ledgers ep).deposits.length

/-- The condition of exactly-once delivery: no send finds a message pending. -/
def SendsIntoEmpty (ep : Nat) (system : IpcSystem) (action : Nat × IpcCall)
    (_ : IpcSystem) : Prop :=
  ∀ msg, action.2 = .send ep msg → (system.ipc.endpoints ep).hasPending = false

theorem IpcSystem.Serving.congr {ep : Nat} {system after : IpcSystem} (serving : system.Serving ep)
    (endpoint : after.ipc.endpoints ep = system.ipc.endpoints ep)
    (ledger : after.ledgers ep = system.ledgers ep)
    (controls : ∀ task call, after.controls task = .sending ep call →
      system.controls task = .sending ep call) : after.Serving ep := by
  refine ⟨serving.bound, endpoint ▸ serving.active, endpoint ▸ ledger ▸ serving.inOrder, ?_⟩
  intro task call control
  rw [ledger]
  exact serving.sending task call (controls task call control)

theorem sending_update {controls : Nat → IpcControl} {task other ep call : Nat}
    {control : IpcControl}
    (inside : Function.update controls task control other = .sending ep call) :
    control = .sending ep call ∨ controls other = .sending ep call := by
  by_cases here : other = task
  · subst here
    rw [Function.update_self] at inside
    exact Or.inl inside
  · rw [Function.update_of_ne here] at inside
    exact Or.inr inside

/-- A step that changes one endpoint has to keep the order of that endpoint only. -/
theorem IpcSystem.Serving.close {ep target : Nat} {system after : IpcSystem}
    (serving : system.Serving ep)
    (endpoints : ∀ other, other ≠ target → after.ipc.endpoints other = system.ipc.endpoints other)
    (ledgers : ∀ other, other ≠ target → after.ledgers other = system.ledgers other)
    (active : (after.ipc.endpoints target).active = (system.ipc.endpoints target).active)
    (longer : (system.ledgers target).deposits.length ≤ (after.ledgers target).deposits.length)
    (controls : ∀ task call, after.controls task = .sending ep call →
      system.controls task = .sending ep call ∨
        ep = target ∧ call < (after.ledgers target).deposits.length)
    (inOrder : ep = target → InOrder (after.ipc.endpoints target) (after.ledgers target)) :
    after.Serving ep := by
  by_cases here : ep = target
  · subst here
    refine ⟨serving.bound, active.trans serving.active, inOrder rfl, ?_⟩
    intro task call control
    rcases controls task call control with old | fresh
    · exact Nat.lt_of_lt_of_le (serving.sending task call old) longer
    · exact fresh.2
  · refine serving.congr (endpoints ep here) (ledgers ep here) ?_
    intro task call control
    exact (controls task call control).resolve_right fun fresh => here fresh.1

theorem IpcSystem.Serving.effect {ep task : Nat} {current after : IpcSystem} {call : IpcCall}
    (serving : current.Serving ep)
    (empty : ∀ msg, call = .send ep msg → (current.ipc.endpoints ep).hasPending = false)
    (effect : IpcEffect current task call after) : after.Serving ep := by
  cases effect with
  | refusedSend => exact serving
  | refusedRecv => exact serving
  | @delivered target receiver msg outside found waiting =>
      refine serving.close (fun _ different => Function.update_of_ne different _ _)
        (fun _ different => Function.update_of_ne different _ _) (by simp) ?_
        (fun _ _ => Or.inl) ?_
      · simp [IpcLedger.complete, IpcLedger.deposit]
      · rintro rfl
        simp only [Function.update_self]
        exact (serving.inOrder.deposit (empty msg rfl) ⟨rfl, rfl⟩).complete
          (by simp [IpcLedger.deposit])
  | @blockedSend target msg outside found waiting =>
      refine serving.close (fun _ different => Function.update_of_ne different _ _)
        (fun _ different => Function.update_of_ne different _ _) (by simp) ?_ ?_ ?_
      · simp [IpcLedger.deposit]
      · intro sender number control
        rcases sending_update control with fresh | old
        · cases fresh
          exact Or.inr ⟨rfl, by simp [IpcLedger.deposit]⟩
        · exact Or.inl old
      · rintro rfl
        simp only [Function.update_self]
        exact serving.inOrder.deposit (empty msg rfl) ⟨rfl, rfl⟩
  | @received target outside found pending =>
      refine serving.close (fun _ different => Function.update_of_ne different _ _)
        (fun _ different => Function.update_of_ne different _ _) (by simp) ?_
        (fun _ _ => Or.inl) ?_
      · simp [IpcLedger.receive]
      · rintro rfl
        simp only [Function.update_self]
        exact serving.inOrder.receive pending rfl
  | @blockedRecv target outside found pending =>
      refine serving.close (fun _ different => Function.update_of_ne different _ _)
        (fun _ _ => rfl) (by simp) (Nat.le_refl _)
        (fun _ _ inside => Or.inl ((sending_update inside).resolve_left nofun)) ?_
      rintro rfl
      simp only [Function.update_self]
      exact serving.inOrder.congr rfl rfl
  | @sendTail target number control =>
      refine serving.close (fun _ _ => rfl)
        (fun _ different => Function.update_of_ne different _ _) rfl ?_
        (fun _ _ inside => Or.inl ((sending_update inside).resolve_left nofun)) ?_
      · simp [IpcLedger.complete]
      · rintro rfl
        simp only [Function.update_self]
        exact serving.inOrder.complete (serving.sending task number control)
  | @recvTail target control pending =>
      refine serving.close (fun _ different => Function.update_of_ne different _ _)
        (fun _ different => Function.update_of_ne different _ _) (by simp) ?_
        (fun _ _ inside => Or.inl ((sending_update inside).resolve_left nofun)) ?_
      · simp [IpcLedger.receive]
      · rintro rfl
        simp only [Function.update_self]
        exact serving.inOrder.receive pending rfl
  | emptyTail control pending =>
      exact serving.congr rfl rfl
        fun _ _ inside => (sending_update inside).resolve_left nofun

theorem IpcSystem.Serving.dispatched {ep task : Nat} {system current : IpcSystem}
    (serving : system.Serving ep) (dispatched : Dispatched system current task) :
    current.Serving ep :=
  serving.congr (by rw [dispatched.endpoints]) (by rw [dispatched.ledgers])
    fun other call control => by rwa [dispatched.controls] at control

/-- A send into a pending message is accepted and loses it. -/
theorem IpcSystem.Serving.spoiled {ep : Nat} {system after : IpcSystem} {action : Nat × IpcCall}
    (serving : system.Serving ep) (stepped : system.callStep action = some after)
    (unmet : ¬SendsIntoEmpty ep system action after) :
    ¬Delivers (after.ipc.endpoints ep) (after.ledgers ep) := by
  obtain ⟨task, call⟩ := action
  obtain ⟨current, dispatched, effect⟩ := callStep_some stepped
  simp only [SendsIntoEmpty, not_forall] at unmet
  obtain ⟨msg, rfl, waiting⟩ := unmet
  have serving := serving.dispatched dispatched
  rw [← dispatched.endpoints, Bool.not_eq_false] at waiting
  have found : current.ipc.activeEndpoint ep = some ep :=
    activeEndpoint_some.mpr ⟨rfl, serving.bound, serving.active⟩
  generalize same : (ep : Int) = epId at effect
  cases effect with
  | refusedSend _ refused =>
      rw [← same, found] at refused
      simp at refused
  | @delivered target receiver _ _ _ _ =>
      obtain rfl : ep = target := by omega
      simp only [Function.update_self]
      exact serving.inOrder.overwritten waiting rfl rfl
  | @blockedSend target _ _ _ _ =>
      obtain rfl : ep = target := by omega
      simp only [Function.update_self]
      exact serving.inOrder.overwritten waiting rfl rfl

structure FreshEndpoint (ep : Nat) (system : IpcSystem) : Prop where
  bound : ep < maxEndpoints
  created : ∃ endpoint : IpcEndpoint, system.ipc.endpoints ep = endpoint.reset true
  unused : system.ledgers ep = ⟨[], [], []⟩
  outside : ∀ task call, system.controls task ≠ .sending ep call

theorem FreshEndpoint.serving {ep : Nat} {system : IpcSystem} (fresh : FreshEndpoint ep system) :
    system.Serving ep := by
  obtain ⟨endpoint, created⟩ := fresh.created
  refine ⟨fresh.bound, by rw [created]; rfl, ?_, ?_⟩
  · rw [created, fresh.unused]
    refine ⟨rfl, ?_, by simp⟩
    simp [IpcEndpoint.pending, IpcEndpoint.reset]
  · exact fun task call control => absurd control (fresh.outside task call)

/-- Over every interleaving of sends, receives and resumptions, delivery is exactly
once and in order in all states if and only if every send finds the endpoint empty. -/
theorem ipc_delivers_iff (ep : Nat) (system : IpcSystem) (fresh : FreshEndpoint ep system)
    (actions : List (Nat × IpcCall)) :
    Transition.EveryState IpcSystem.callStep
        (fun state => Delivers (state.ipc.endpoints ep) (state.ledgers ep)) system actions ↔
      Transition.EveryStep IpcSystem.callStep (SendsIntoEmpty ep) system actions := by
  refine Transition.everyState_iff_everyStep ?_ ?_ ?_ fresh.serving actions
  · exact fun state serving => serving.inOrder.delivers
  · rintro state ⟨task, call⟩ after serving stepped empty
    obtain ⟨current, dispatched, effect⟩ := callStep_some stepped
    refine (serving.dispatched dispatched).effect ?_ effect
    intro msg isSend
    rw [dispatched.endpoints]
    exact empty msg isSend
  · exact fun state action after serving stepped unmet => serving.spoiled stepped unmet

def wordMessage (word : Word) : IpcMessage :=
  ⟨Vector.ofFn fun field => if field.val = 0 then word else 0, -1⟩

def threeTasks : IpcSystem where
  ipc := {
    endpoints := fun index => ⟨decide (index = 0), -1, -1, wordMessage 0, false⟩
    states := fun task => if task < 3 then .ready else .dead }
  controls := fun _ => .outside
  ledgers := fun _ => ⟨[], [], []⟩

theorem threeTasks_fresh : FreshEndpoint 0 threeTasks :=
  ⟨by decide, ⟨threeTasks.ipc.endpoints 0, rfl⟩, rfl, by simp [threeTasks]⟩

/-- A receiver waits, is served directly, and a second send comes before it resumes. -/
def overtaken : List (Nat × IpcCall) :=
  [(0, .recv 0), (1, .send 0 (wordMessage 1)), (2, .send 0 (wordMessage 2)), (0, .resume)]

theorem ipc_delivers_iff_overtaken :
    Transition.EveryState IpcSystem.callStep
        (fun state => Delivers (state.ipc.endpoints 0) (state.ledgers 0)) threeTasks overtaken ↔
      Transition.EveryStep IpcSystem.callStep (SendsIntoEmpty 0) threeTasks overtaken :=
  ipc_delivers_iff 0 threeTasks threeTasks_fresh overtaken

theorem overtaken_message_lost :
    ¬∀ actions, Transition.EveryState IpcSystem.callStep
      (fun state => Delivers (state.ipc.endpoints 0) (state.ledgers 0)) threeTasks actions := by
  intro all
  have lost : (Transition.exec IpcSystem.callStep threeTasks overtaken).any (fun state =>
      decide (0 ∈ (state.ledgers 0).returned) && !(state.ipc.endpoints 0).hasPending &&
      decide ((state.ledgers 0).receipts = [(1, wordMessage 2)])) = true := by
    decide +kernel
  obtain ⟨state, run, facts⟩ := (Option.any_eq_true _ _).mp lost
  simp only [Bool.and_eq_true, decide_eq_true_eq, Bool.not_eq_true'] at facts
  obtain ⟨⟨sent, idle⟩, receipts⟩ := facts
  obtain ⟨msg, _, ⟨taken, _⟩ | ⟨_, waiting⟩⟩ := ((all overtaken).last run).once 0 sent
  · simp [receipts] at taken
  · simp [IpcEndpoint.pending, idle] at waiting

end DragoonKernel
