import DragoonKernel.IpcCore

/-! What one atomic part of an IPC call can do. -/

namespace DragoonKernel

theorem setState_live {states : Nat → TaskState} {task : Nat} (bound : task < maxTasks)
    (live : states task ≠ .dead) (state : TaskState) :
    setState states task state = Function.update states task state := by
  unfold setState
  rw [taskGet_some.mpr ⟨rfl, bound, live⟩]

theorem setState_negative {states : Nat → TaskState} {taskId : Int} (negative : taskId < 0)
    (state : TaskState) : setState states taskId state = states := by
  unfold setState taskGet
  rw [if_pos (Or.inl negative)]

theorem activeEndpoint_some {ipc : Ipc} {epId : Int} {ep : Nat} :
    ipc.activeEndpoint epId = some ep ↔
      epId = ep ∧ ep < maxEndpoints ∧ (ipc.endpoints ep).active = true := by
  unfold Ipc.activeEndpoint
  split_ifs with outside active
  · simp only [false_iff]
    rintro ⟨rfl, bound, _⟩
    omega
  · simp only [Option.some.injEq]
    constructor
    · rintro rfl
      exact ⟨by omega, by omega, active⟩
    · rintro ⟨rfl, _, _⟩
      simp
  · simp only [false_iff]
    rintro ⟨rfl, _, live⟩
    exact active (by simpa using live)

inductive IpcEffect (system : IpcSystem) (task : Nat) : IpcCall → IpcSystem → Prop
  | refusedSend {epId : Int} {msg : IpcMessage} : system.controls task = .outside →
      system.ipc.activeEndpoint epId = none → IpcEffect system task (.send epId msg) system
  | delivered {ep receiver : Nat} {msg : IpcMessage} : system.controls task = .outside →
      system.ipc.activeEndpoint ep = some ep →
      taskGet system.ipc.states (system.ipc.endpoints ep).receiverTask = some receiver →
      IpcEffect system task (.send ep msg)
        { system with
          ipc := {
            endpoints := Function.update system.ipc.endpoints ep
              { system.ipc.endpoints ep with
                pendingMsg := msg, hasPending := true, receiverTask := -1 }
            states := Function.update system.ipc.states receiver .ready }
          ledgers := Function.update system.ledgers ep
            (((system.ledgers ep).deposit msg).complete (system.ledgers ep).deposits.length) }
  | blockedSend {ep : Nat} {msg : IpcMessage} : system.controls task = .outside →
      system.ipc.activeEndpoint ep = some ep →
      taskGet system.ipc.states (system.ipc.endpoints ep).receiverTask = none →
      IpcEffect system task (.send ep msg)
        { ipc := {
            endpoints := Function.update system.ipc.endpoints ep
              { system.ipc.endpoints ep with
                pendingMsg := msg, hasPending := true, senderTask := task }
            states := setState system.ipc.states task .blocked }
          controls := Function.update system.controls task
            (.sending ep (system.ledgers ep).deposits.length)
          ledgers := Function.update system.ledgers ep ((system.ledgers ep).deposit msg) }
  | refusedRecv {epId : Int} : system.controls task = .outside →
      system.ipc.activeEndpoint epId = none → IpcEffect system task (.recv epId) system
  | received {ep : Nat} : system.controls task = .outside →
      system.ipc.activeEndpoint ep = some ep → (system.ipc.endpoints ep).hasPending = true →
      IpcEffect system task (.recv ep)
        { system with
          ipc := {
            endpoints := Function.update system.ipc.endpoints ep
              { system.ipc.endpoints ep with
                hasPending := false
                senderTask :=
                  if 0 ≤ (system.ipc.endpoints ep).senderTask then -1
                  else (system.ipc.endpoints ep).senderTask }
            states := setState system.ipc.states (system.ipc.endpoints ep).senderTask .ready }
          ledgers := Function.update system.ledgers ep
            ((system.ledgers ep).receive (system.ipc.endpoints ep).pendingMsg) }
  | blockedRecv {ep : Nat} : system.controls task = .outside →
      system.ipc.activeEndpoint ep = some ep → (system.ipc.endpoints ep).hasPending = false →
      IpcEffect system task (.recv ep)
        { system with
          ipc := {
            endpoints := Function.update system.ipc.endpoints ep
              { system.ipc.endpoints ep with receiverTask := task }
            states := setState system.ipc.states task .blocked }
          controls := Function.update system.controls task (.receiving ep) }
  | sendTail {ep call : Nat} : system.controls task = .sending ep call →
      IpcEffect system task .resume
        { system with
          controls := Function.update system.controls task .outside
          ledgers := Function.update system.ledgers ep ((system.ledgers ep).complete call) }
  | recvTail {ep : Nat} : system.controls task = .receiving ep →
      (system.ipc.endpoints ep).hasPending = true →
      IpcEffect system task .resume
        { ipc := { system.ipc with
            endpoints := Function.update system.ipc.endpoints ep
              { system.ipc.endpoints ep with hasPending := false } }
          controls := Function.update system.controls task .outside
          ledgers := Function.update system.ledgers ep
            ((system.ledgers ep).receive (system.ipc.endpoints ep).pendingMsg) }
  | emptyTail {ep : Nat} : system.controls task = .receiving ep →
      (system.ipc.endpoints ep).hasPending = false →
      IpcEffect system task .resume
        { system with controls := Function.update system.controls task .outside }

theorem perform_send_effect {system after : IpcSystem} {task : Nat} {epId : Int}
    {msg : IpcMessage} (performed : system.perform task (.send epId msg) = some after) :
    IpcEffect system task (.send epId msg) after := by
  simp only [IpcSystem.perform, Option.ite_none_right_eq_some] at performed
  obtain ⟨outside, performed⟩ := performed
  cases found : system.ipc.activeEndpoint epId with
  | none =>
      simp only [ipcSend, found] at performed
      obtain rfl : system = after := by simpa using performed
      exact .refusedSend outside found
  | some ep =>
      obtain ⟨rfl, _, _⟩ := activeEndpoint_some.mp found
      cases waiting : taskGet system.ipc.states (system.ipc.endpoints ep).receiverTask with
      | none =>
          simp only [ipcSend, found, waiting, Int.toNat_natCast, Option.some.injEq] at performed
          exact performed ▸ .blockedSend outside found waiting
      | some receiver =>
          simp only [ipcSend, found, waiting, Int.toNat_natCast, Option.some.injEq,
            if_true] at performed
          exact performed ▸ .delivered outside found waiting

theorem perform_recv_effect {system after : IpcSystem} {task : Nat} {epId : Int}
    (performed : system.perform task (.recv epId) = some after) :
    IpcEffect system task (.recv epId) after := by
  simp only [IpcSystem.perform, Option.ite_none_right_eq_some] at performed
  obtain ⟨outside, performed⟩ := performed
  cases found : system.ipc.activeEndpoint epId with
  | none =>
      simp only [ipcRecv, found] at performed
      obtain rfl : system = after := by simpa using performed
      exact .refusedRecv outside found
  | some ep =>
      obtain ⟨rfl, _, _⟩ := activeEndpoint_some.mp found
      simp only [ipcRecv, found, Int.toNat_natCast] at performed
      by_cases pending : (system.ipc.endpoints ep).hasPending = true
      · rw [if_pos pending] at performed
        obtain rfl := Option.some.inj performed
        exact .received outside found pending
      · rw [if_neg pending] at performed
        obtain rfl := Option.some.inj performed
        exact .blockedRecv outside found (by simpa using pending)

theorem perform_resume_effect {system after : IpcSystem} {task : Nat}
    (performed : system.perform task .resume = some after) :
    IpcEffect system task .resume after := by
  simp only [IpcSystem.perform] at performed
  cases control : system.controls task with
  | outside => simp [control] at performed
  | sending ep call =>
      simp only [control, Option.some.injEq] at performed
      exact performed ▸ .sendTail control
  | receiving ep =>
      cases pending : (system.ipc.endpoints ep).hasPending with
      | true =>
          simp only [control, ipcRecvTail, pending, if_true, Option.some.injEq] at performed
          exact performed ▸ .recvTail control pending
      | false =>
          simp only [control, ipcRecvTail, pending, Bool.false_eq_true, if_false,
            Option.some.injEq] at performed
          exact performed ▸ .emptyTail control pending

theorem perform_effect {system after : IpcSystem} {task : Nat} {call : IpcCall}
    (performed : system.perform task call = some after) : IpcEffect system task call after := by
  cases call with
  | send epId msg => exact perform_send_effect performed
  | recv epId => exact perform_recv_effect performed
  | resume => exact perform_resume_effect performed

/-- A dispatch changes no task state but between ready and running. -/
structure Dispatched (system current : IpcSystem) (task : Nat) : Prop where
  endpoints : current.ipc.endpoints = system.ipc.endpoints
  controls : current.controls = system.controls
  ledgers : current.ledgers = system.ledgers
  bound : task < maxTasks
  running : current.ipc.states task = .running
  wasLive : system.ipc.states task = .ready ∨ system.ipc.states task = .running
  blocked : ∀ other, current.ipc.states other = .blocked ↔ system.ipc.states other = .blocked
  ready : ∀ other, other ≠ task → system.ipc.states other = .ready →
    current.ipc.states other = .ready

theorem dispatch_some {system current : IpcSystem} {task : Nat}
    (dispatched : system.dispatch task = some current) : Dispatched system current task := by
  simp only [IpcSystem.dispatch, Option.ite_none_right_eq_some, Option.some.injEq] at dispatched
  obtain ⟨⟨bound, live⟩, rfl⟩ := dispatched
  refine ⟨rfl, rfl, rfl, bound, if_pos rfl, live, ?_, ?_⟩
  · intro other
    by_cases here : other = task
    · subst here
      rcases live with live | live <;> simp [live]
    · by_cases was : system.ipc.states other = .running <;> simp [here, was]
  · intro other different was
    simp [different, was]

theorem callStep_some {system after : IpcSystem} {task : Nat} {call : IpcCall}
    (stepped : system.callStep (task, call) = some after) :
    ∃ current, Dispatched system current task ∧ IpcEffect current task call after := by
  obtain ⟨current, dispatched, performed⟩ := Option.bind_eq_some_iff.mp stepped
  exact ⟨current, dispatch_some dispatched, perform_effect performed⟩

end DragoonKernel
