import DragoonKernel.IpcBlocking
import DragoonKernel.IpcDelivery

/-!
Endpoint ids are used again after a destroy. A receiver that is resumed takes what it
finds at the place of the endpoint it blocked on.
-/

namespace DragoonKernel

/-- How often an endpoint id has been destroyed and handed out. -/
structure EndpointClock where
  destroys : Nat
  creates : Nat

/-- The IPC system with a record of when the pending message of each endpoint was sent and when
each task last called `ipc_recv`. -/
structure IncarnationSystem where
  ipc : IpcSystem
  clocks : Nat → EndpointClock
  sentAt : Nat → EndpointClock
  calledAt : Nat → EndpointClock

def IncarnationSystem.boot (ipc : IpcSystem) : IncarnationSystem where
  ipc := { ipc with ipc := ipcInit ipc.ipc, controls := fun _ => .outside }
  clocks := fun _ => ⟨0, 0⟩
  sentAt := fun _ => ⟨0, 0⟩
  calledAt := fun _ => ⟨0, 0⟩

def IncarnationSystem.record (system : IncarnationSystem) (after : IpcSystem) :
    IpcAction → IncarnationSystem
  | .create _ =>
      { system with
        ipc := after
        clocks := fun ep =>
          if (ipcEndpointCreate system.ipc.ipc).2 = ep then
            { system.clocks ep with creates := (system.clocks ep).creates + 1 }
          else system.clocks ep }
  | .destroy _ epId =>
      { system with
        ipc := after
        clocks := fun ep =>
          if ep < maxEndpoints ∧ epId = ep then
            { system.clocks ep with destroys := (system.clocks ep).destroys + 1 }
          else system.clocks ep }
  | .call _ (.send epId _) =>
      { system with
        ipc := after
        sentAt := match system.ipc.ipc.activeEndpoint epId with
          | some ep => Function.update system.sentAt ep (system.clocks ep)
          | none => system.sentAt }
  | .call task (.recv epId) =>
      { system with
        ipc := after
        calledAt := match system.ipc.ipc.activeEndpoint epId with
          | some ep => Function.update system.calledAt task (system.clocks ep)
          | none => system.calledAt }
  | .call _ .resume => { system with ipc := after }

def IncarnationSystem.step (system : IncarnationSystem) (action : IpcAction) :
    Option IncarnationSystem :=
  (system.ipc.step action).map fun after => system.record after action

/-- The endpoint and the message that the call of `ipc_recv`, or its tail, returns. -/
def IpcSystem.received (system : IpcSystem) (task : Nat) : IpcCall → Option (Nat × IpcMessage)
  | .send _ _ => none
  | .recv epId => (ipcRecv system.ipc task epId).2.1.map fun msg => (epId.toNat, msg)
  | .resume =>
      match system.controls task with
      | .receiving ep => (ipcRecvTail system.ipc ep).2.1.map fun msg => (ep, msg)
      | _ => none

/-- A message is returned to a call with no destroy of the id between the starts of the call
and of its `ipc_send`. -/
def SameIncarnation (before : IncarnationSystem) (action : IpcAction) (after : IncarnationSystem) :
    Prop :=
  ∀ task call ep msg, action = .call task call → before.ipc.received task call = some (ep, msg) →
    (after.sentAt ep).destroys = (after.calledAt task).destroys

/-- A receiver that is resumed and finds a message is on the endpoint it blocked on: the id has
not been handed out since its call. -/
def ResumesUnreplaced (before : IncarnationSystem) (action : IpcAction) : Prop :=
  ∀ task ep, action = .call task .resume → before.ipc.controls task = .receiving ep →
    (before.ipc.ipc.endpoints ep).hasPending = true →
      (before.clocks ep).creates = (before.calledAt task).creates

/-- What a receiver that started at `start` can find on its endpoint: the same incarnation,
destroyed or not, or a later one. -/
def IpcEndpoint.Since (endpoint : IpcEndpoint) (clock sent start : EndpointClock) : Prop :=
  (clock.creates = start.creates ∧
    (endpoint.active = true → clock.destroys = start.destroys) ∧
    (endpoint.active = false → start.destroys < clock.destroys) ∧
    (endpoint.hasPending = true → sent.destroys = start.destroys)) ∨
  (start.creates < clock.creates ∧ start.destroys < clock.destroys ∧
    (endpoint.hasPending = true → start.destroys < sent.destroys))

structure IncarnationSystem.Dated (system : IncarnationSystem) : Prop where
  current : ∀ ep < maxEndpoints, (system.ipc.ipc.endpoints ep).active = true →
    (system.ipc.ipc.endpoints ep).hasPending = true →
      (system.sentAt ep).destroys = (system.clocks ep).destroys
  started : ∀ task ep, system.ipc.controls task = .receiving ep →
    (system.ipc.ipc.endpoints ep).Since (system.clocks ep) (system.sentAt ep) (system.calledAt task)

theorem boot_dated (ipc : IpcSystem) : (IncarnationSystem.boot ipc).Dated := by
  refine ⟨fun ep bound _ pending => ?_, fun task ep receiving => ?_⟩
  · simp [IncarnationSystem.boot, ipcInit, bound, IpcEndpoint.reset] at pending
  · cases receiving

variable {system after : IncarnationSystem}

theorem IpcEndpoint.Since.emptied {endpoint next : IpcEndpoint} {clock sent start : EndpointClock}
    (since : endpoint.Since clock sent start) (active : next.active = endpoint.active)
    (pending : next.hasPending = true → endpoint.hasPending = true) :
    next.Since clock sent start := by
  rw [IpcEndpoint.Since, active]
  rcases since with ⟨creates, lives, gone, same⟩ | ⟨creates, destroys, later⟩
  · exact Or.inl ⟨creates, lives, gone, fun full => same (pending full)⟩
  · exact Or.inr ⟨creates, destroys, fun full => later (pending full)⟩

theorem IpcEndpoint.Since.sent {endpoint next : IpcEndpoint} {clock sent start : EndpointClock}
    (since : endpoint.Since clock sent start) (active : endpoint.active = true)
    (stays : next.active = true) : next.Since clock clock start := by
  rcases since with ⟨creates, lives, _, _⟩ | ⟨creates, destroys, _⟩
  · refine Or.inl ⟨creates, fun _ => lives active, fun dead => ?_, fun _ => lives active⟩
    rw [stays] at dead
    cases dead
  · exact Or.inr ⟨creates, destroys, fun _ => destroys⟩

theorem IpcEndpoint.Since.destroyed {endpoint next : IpcEndpoint} {clock sent start : EndpointClock}
    (since : endpoint.Since clock sent start) (gone : next.active = false)
    (pending : next.hasPending = endpoint.hasPending) :
    next.Since { clock with destroys := clock.destroys + 1 } sent start := by
  rw [IpcEndpoint.Since, gone, pending]
  rcases since with ⟨creates, lives, dead, same⟩ | ⟨creates, destroys, later⟩
  · refine Or.inl ⟨creates, nofun, fun _ => ?_, same⟩
    cases active : endpoint.active with
    | true =>
        have here := lives active
        simp only
        omega
    | false => exact Nat.lt_succ_of_lt (dead active)
  · exact Or.inr ⟨creates, Nat.lt_succ_of_lt destroys, later⟩

theorem IpcEndpoint.Since.created {endpoint next : IpcEndpoint} {clock sent start : EndpointClock}
    (since : endpoint.Since clock sent start) (inactive : endpoint.active = false)
    (empty : next.hasPending = false) :
    next.Since { clock with creates := clock.creates + 1 } sent start := by
  have none : ¬next.hasPending = true := by simp [empty]
  rcases since with ⟨creates, _, dead, _⟩ | ⟨creates, destroys, _⟩
  · refine Or.inr ⟨?_, dead inactive, fun full => absurd full none⟩
    simp only
    omega
  · exact Or.inr ⟨Nat.lt_succ_of_lt creates, destroys, fun full => absurd full none⟩

theorem IpcEndpoint.Since.start (endpoint : IpcEndpoint) (clock sent : EndpointClock)
    (active : endpoint.active = true) (empty : endpoint.hasPending = false) :
    endpoint.Since clock sent clock :=
  Or.inl ⟨rfl, fun _ => rfl, fun dead => by simp [active] at dead,
    fun full => by simp [empty] at full⟩

theorem activeEndpoint_congr {first second : Ipc} (same : first.endpoints = second.endpoints)
    (epId : Int) : first.activeEndpoint epId = second.activeEndpoint epId := by
  rw [Ipc.activeEndpoint, same, Ipc.activeEndpoint]

theorem IncarnationSystem.Dated.dispatched {current : IpcSystem} {task : Nat} (dated : system.Dated)
    (dispatched : Dispatched system.ipc current task) : { system with ipc := current }.Dated := by
  refine ⟨fun ep bound => ?_, fun other ep receiving => ?_⟩
  · simp only [dispatched.endpoints]
    exact dated.current ep bound
  · simp only [dispatched.endpoints]
    exact dated.started other ep (by rwa [← dispatched.controls])

theorem IncarnationSystem.Dated.changed (dated : system.Dated) {target : Nat}
    {endpoint : IpcEndpoint} {sentAt : Nat → EndpointClock} {next : IpcSystem}
    (endpoints : next.ipc.endpoints = Function.update system.ipc.ipc.endpoints target endpoint)
    (elsewhere : ∀ ep, ep ≠ target → sentAt ep = system.sentAt ep)
    (controls : ∀ other ep, next.controls other = .receiving ep →
      system.ipc.controls other = .receiving ep)
    (current : target < maxEndpoints → endpoint.active = true → endpoint.hasPending = true →
      (sentAt target).destroys = (system.clocks target).destroys)
    (since : ∀ start, (system.ipc.ipc.endpoints target).Since (system.clocks target)
      (system.sentAt target) start → endpoint.Since (system.clocks target) (sentAt target) start) :
    { system with ipc := next, sentAt := sentAt }.Dated := by
  refine ⟨fun ep bound => ?_, fun other ep receiving => ?_⟩
  · simp only [endpoints]
    by_cases here : ep = target
    · subst here
      rw [Function.update_self]
      exact current bound
    · rw [Function.update_of_ne here, elsewhere ep here]
      exact dated.current ep bound
  · simp only [endpoints]
    have before := dated.started other ep (controls other ep receiving)
    by_cases here : ep = target
    · subst here
      rw [Function.update_self]
      exact since _ before
    · rwa [Function.update_of_ne here, elsewhere ep here]

theorem IncarnationSystem.Dated.send (dated : system.Dated) {target : Nat} {endpoint : IpcEndpoint}
    {next : IpcSystem} (active : (system.ipc.ipc.endpoints target).active = true)
    (stays : endpoint.active = true)
    (endpoints : next.ipc.endpoints = Function.update system.ipc.ipc.endpoints target endpoint)
    (controls : ∀ other ep, next.controls other = .receiving ep →
      system.ipc.controls other = .receiving ep) :
    { system with
      ipc := next
      sentAt := Function.update system.sentAt target (system.clocks target) }.Dated := by
  refine dated.changed endpoints (fun ep here => Function.update_of_ne here _ _) controls ?_ ?_
  · intros
    rw [Function.update_self]
  · intro start since
    rw [Function.update_self]
    exact since.sent active stays

theorem IncarnationSystem.Dated.take (dated : system.Dated) {target : Nat} {endpoint : IpcEndpoint}
    {next : IpcSystem} (empty : endpoint.hasPending = false)
    (same : endpoint.active = (system.ipc.ipc.endpoints target).active)
    (endpoints : next.ipc.endpoints = Function.update system.ipc.ipc.endpoints target endpoint)
    (controls : ∀ other ep, next.controls other = .receiving ep →
      system.ipc.controls other = .receiving ep) : { system with ipc := next }.Dated := by
  have full : ¬endpoint.hasPending = true := by simp [empty]
  exact dated.changed endpoints (fun _ _ => rfl) controls (fun _ _ waits => absurd waits full)
    fun _ since => since.emptied same fun waits => absurd waits full

theorem IncarnationSystem.Dated.called (dated : system.Dated) {task : Nat}
    (outside : system.ipc.controls task = .outside) (clock : EndpointClock) :
    { system with calledAt := Function.update system.calledAt task clock }.Dated := by
  refine ⟨dated.current, fun other ep receiving => ?_⟩
  have different : other ≠ task := by
    rintro rfl
    exact nomatch outside.symm.trans receiving
  simp only [Function.update_of_ne different]
  exact dated.started other ep receiving

theorem IncarnationSystem.Dated.block (dated : system.Dated) {task target : Nat}
    {endpoint : IpcEndpoint} {next : IpcSystem}
    (active : (system.ipc.ipc.endpoints target).active = true)
    (empty : (system.ipc.ipc.endpoints target).hasPending = false)
    (same : endpoint.active = (system.ipc.ipc.endpoints target).active ∧
      endpoint.hasPending = (system.ipc.ipc.endpoints target).hasPending)
    (endpoints : next.ipc.endpoints = Function.update system.ipc.ipc.endpoints target endpoint)
    (controls : next.controls = Function.update system.ipc.controls task (.receiving target)) :
    { system with
      ipc := next
      calledAt := Function.update system.calledAt task (system.clocks target) }.Dated := by
  have full : ¬endpoint.hasPending = true := by simp [same.2, empty]
  refine ⟨fun ep bound => ?_, fun other ep receiving => ?_⟩
  · simp only [endpoints]
    by_cases here : ep = target
    · subst here
      rw [Function.update_self]
      exact fun _ waits => absurd waits full
    · rw [Function.update_of_ne here]
      exact dated.current ep bound
  · simp only [controls] at receiving
    simp only [endpoints]
    by_cases starts : other = task
    · subst starts
      rw [Function.update_self] at receiving ⊢
      obtain rfl := IpcControl.receiving.inj receiving
      rw [Function.update_self]
      exact .start _ _ _ (same.1.trans active) (same.2.trans empty)
    · rw [Function.update_of_ne starts] at receiving ⊢
      have before := dated.started other ep receiving
      by_cases here : ep = target
      · subst here
        rw [Function.update_self]
        exact before.emptied same.1 fun waits => absurd waits full
      · rwa [Function.update_of_ne here]

theorem IncarnationSystem.Dated.effect {after : IpcSystem} {task : Nat} {call : IpcCall}
    (dated : system.Dated) (effect : IpcEffect system.ipc task call after) :
    (system.record after (.call task call)).Dated := by
  have left : ∀ (other ep : Nat) (control : IpcControl), control ≠ .receiving ep →
      Function.update system.ipc.controls task control other = .receiving ep →
        system.ipc.controls other = .receiving ep := by
    intro other ep control idle receiving
    by_cases here : other = task
    · subst here
      rw [Function.update_self] at receiving
      exact absurd receiving idle
    · rwa [Function.update_of_ne here] at receiving
  cases effect with
  | refusedSend outside refused => simpa only [IncarnationSystem.record, refused] using dated
  | @delivered ep receiver msg outside found waiting =>
      simp only [IncarnationSystem.record, found]
      have active := (activeEndpoint_some.mp found).2.2
      refine dated.send active ?_ rfl fun _ _ receiving => receiving
      exact active
  | @blockedSend ep msg outside found waiting =>
      simp only [IncarnationSystem.record, found]
      have active := (activeEndpoint_some.mp found).2.2
      refine dated.send active ?_ rfl fun other target => left other target _ nofun
      exact active
  | refusedRecv outside refused => simpa only [IncarnationSystem.record, refused] using dated
  | @received ep outside found pending =>
      simp only [IncarnationSystem.record, found]
      refine (dated.called outside (system.clocks ep)).take ?_ ?_ rfl fun _ _ receiving => receiving
      · rfl
      · rfl
  | @blockedRecv ep outside found empty =>
      simp only [IncarnationSystem.record, found]
      refine dated.block (activeEndpoint_some.mp found).2.2 empty ⟨?_, ?_⟩ rfl rfl
      · rfl
      · rfl
  | sendTail sending =>
      exact ⟨dated.current, fun other ep receives =>
        dated.started other ep (left other ep .outside nofun receives)⟩
  | @recvTail ep receiving pending =>
      refine dated.take ?_ ?_ rfl fun other target => left other target .outside nofun
      · rfl
      · rfl
  | emptyTail receiving empty =>
      exact ⟨dated.current, fun other ep receives =>
        dated.started other ep (left other ep .outside nofun receives)⟩

theorem ipcEndpointCreate_congr {first second : Ipc} (same : first.endpoints = second.endpoints) :
    (ipcEndpointCreate first).2 = (ipcEndpointCreate second).2 := by
  unfold ipcEndpointCreate
  rw [same]
  split <;> rfl

theorem IncarnationSystem.Dated.create (dated : system.Dated) (task : Nat) :
    (system.record { system.ipc with ipc := (ipcEndpointCreate system.ipc.ipc).1 }
      (.create task)).Dated := by
  rcases ipcEndpointCreate_cases system.ipc.ipc with same | ⟨target, bound, inactive, same⟩
  · have never : ∀ ep : Nat, ¬(-1 : Int) = ep := by omega
    simpa only [IncarnationSystem.record, same, never, if_false] using dated
  · simp only [IncarnationSystem.record, same, Nat.cast_inj]
    refine ⟨fun ep bound => ?_, fun other ep receiving => ?_⟩
    · by_cases here : target = ep
      · subst here
        simp [IpcEndpoint.reset]
      · simp only [Function.update_of_ne (Ne.symm here), if_neg here]
        exact dated.current ep bound
    · have before := dated.started other ep receiving
      by_cases here : target = ep
      · subst here
        simp only [Function.update_self, if_true]
        exact before.created inactive rfl
      · simp only [Function.update_of_ne (Ne.symm here), if_neg here]
        exact before

theorem IncarnationSystem.Dated.destroy (dated : system.Dated) (task : Nat) (epId : Int) :
    (system.record { system.ipc with ipc := ipcEndpointDestroy system.ipc.ipc epId }
      (.destroy task epId)).Dated := by
  by_cases inside : ∃ ep < maxEndpoints, epId = (ep : Int)
  · obtain ⟨target, inside, rfl⟩ := inside
    simp only [IncarnationSystem.record, ipcEndpointDestroy_inside _ inside, Nat.cast_inj]
    refine ⟨fun ep bound => ?_, fun other ep receiving => ?_⟩
    · by_cases here : target = ep
      · subst here
        simp
      · simp only [Function.update_of_ne (Ne.symm here), here, and_false, if_false]
        exact dated.current ep bound
    · have before := dated.started other ep receiving
      by_cases here : target = ep
      · subst here
        simp only [Function.update_self, inside, and_self, if_true]
        exact before.destroyed rfl rfl
      · simp only [Function.update_of_ne (Ne.symm here), here, and_false, if_false]
        exact before
  · have outside : ∀ ep < maxEndpoints, epId ≠ (ep : Int) :=
      fun ep bound same => inside ⟨ep, bound, same⟩
    have never : ∀ ep : Nat, ¬(ep < maxEndpoints ∧ epId = ep) :=
      fun ep both => outside ep both.1 both.2
    simpa only [IncarnationSystem.record, ipcEndpointDestroy_outside _ outside, never,
      if_false] using dated

theorem record_dispatched {current next : IpcSystem} {task : Nat}
    (dispatched : Dispatched system.ipc current task) (action : IpcAction) :
    system.record next action = { system with ipc := current }.record next action := by
  have same := dispatched.endpoints
  cases action with
  | create task => simp only [IncarnationSystem.record, ipcEndpointCreate_congr same]
  | destroy task epId => rfl
  | call task call =>
      cases call with
      | send epId msg => simp only [IncarnationSystem.record, activeEndpoint_congr same]
      | recv epId => simp only [IncarnationSystem.record, activeEndpoint_congr same]
      | resume => rfl

theorem IncarnationSystem.Dated.step {action : IpcAction} (dated : system.Dated)
    (stepped : system.step action = some after) : after.Dated := by
  obtain ⟨next, moved, rfl⟩ := Option.map_eq_some_iff.mp stepped
  cases action with
  | call task call =>
      obtain ⟨current, dispatched, effect⟩ := callStep_some moved
      rw [record_dispatched dispatched]
      exact (dated.dispatched dispatched).effect effect
  | create task =>
      obtain ⟨current, dispatched, outside, rfl⟩ := step_endpoint moved
      rw [record_dispatched dispatched]
      exact (dated.dispatched dispatched).create task
  | destroy task epId =>
      obtain ⟨current, dispatched, outside, rfl⟩ := step_endpoint moved
      rw [record_dispatched dispatched]
      exact (dated.dispatched dispatched).destroy task epId

theorem ipcRecv_message {ipc : Ipc} {task : Nat} {epId : Int} {msg : IpcMessage} :
    (ipcRecv ipc task epId).2.1 = some msg ↔ ∃ ep, ipc.activeEndpoint epId = some ep ∧
      (ipc.endpoints ep).hasPending = true ∧ (ipc.endpoints ep).pendingMsg = msg := by
  unfold ipcRecv
  cases found : ipc.activeEndpoint epId with
  | none => simp
  | some ep => by_cases pending : (ipc.endpoints ep).hasPending = true <;> simp [pending]

theorem ipcRecvTail_message {ipc : Ipc} {ep : Nat} {msg : IpcMessage} :
    (ipcRecvTail ipc ep).2.1 = some msg ↔
      (ipc.endpoints ep).hasPending = true ∧ (ipc.endpoints ep).pendingMsg = msg := by
  unfold ipcRecvTail
  by_cases pending : (ipc.endpoints ep).hasPending = true <;> simp [pending]

theorem received_resume {ipc : IpcSystem} {task ep : Nat} {msg : IpcMessage} :
    ipc.received task .resume = some (ep, msg) ↔ ipc.controls task = .receiving ep ∧
      (ipc.ipc.endpoints ep).hasPending = true ∧ (ipc.ipc.endpoints ep).pendingMsg = msg := by
  unfold IpcSystem.received
  cases located : ipc.controls task with
  | receiving target =>
      simp only [Option.map_eq_some_iff, ipcRecvTail_message, Prod.mk.injEq,
        IpcControl.receiving.injEq]
      constructor
      · rintro ⟨_, found, rfl, rfl⟩
        exact ⟨rfl, found⟩
      · rintro ⟨rfl, found⟩
        exact ⟨msg, found, rfl, rfl⟩
  | outside => simp
  | sending target call => simp

theorem IncarnationSystem.Dated.same {action : IpcAction} (dated : system.Dated)
    (stepped : system.step action = some after) (unreplaced : ResumesUnreplaced system action) :
    SameIncarnation system action after := by
  rintro task call ep msg rfl received
  obtain ⟨next, _, rfl⟩ := Option.map_eq_some_iff.mp stepped
  cases call with
  | send epId msg => cases received
  | recv epId =>
      obtain ⟨other, took, named⟩ := Option.map_eq_some_iff.mp received
      obtain ⟨target, found, pending, _⟩ := ipcRecv_message.mp took
      obtain ⟨rfl, bound, active⟩ := activeEndpoint_some.mp found
      obtain rfl : target = ep := congrArg Prod.fst named
      simp only [IncarnationSystem.record, found, Function.update_self]
      exact dated.current target bound active pending
  | resume =>
      obtain ⟨receiving, pending, _⟩ := received_resume.mp received
      have unreplaced := unreplaced task ep rfl receiving pending
      rcases dated.started task ep receiving with ⟨_, _, _, same⟩ | ⟨replaced, _⟩
      · exact same pending
      · exact absurd unreplaced (Nat.ne_of_gt replaced)

theorem IncarnationSystem.Dated.mixed {action : IpcAction} (dated : system.Dated)
    (stepped : system.step action = some after) (replaced : ¬ResumesUnreplaced system action) :
    ¬SameIncarnation system action after := by
  intro same
  apply replaced
  rintro task ep rfl receiving pending
  obtain ⟨next, _, rfl⟩ := Option.map_eq_some_iff.mp stepped
  have equal := same task .resume ep _ rfl (received_resume.mpr ⟨receiving, pending, rfl⟩)
  rcases dated.started task ep receiving with ⟨creates, _⟩ | ⟨_, _, later⟩
  · exact creates
  · exact absurd equal (Nat.ne_of_gt (later pending))

/-- In every interleaving of creates, destroys, sends, receives and resumptions each message is
returned on the incarnation it was sent on, if and only if no receiver that is resumed finds a
message on an id that has been handed out again since its call. -/
theorem ipc_incarnations_iff (ipc : IpcSystem) (actions : List IpcAction) :
    Transition.EveryStep IncarnationSystem.step SameIncarnation (.boot ipc) actions ↔
      Transition.EveryStep IncarnationSystem.step
        (fun before action _ => ResumesUnreplaced before action) (.boot ipc) actions := by
  refine Transition.everyStep_iff_everyStep ?_ ?_ (boot_dated ipc) actions
  · exact fun _ _ _ dated stepped guard => ⟨dated.step stepped, dated.same stepped guard⟩
  · exact fun _ _ _ dated stepped unmet => dated.mixed stepped unmet

/-- Task 0 is woken by the first message, and before it is resumed the endpoint is replaced and
a second message sent to the new one. -/
def replacedUnderReceiver : List IpcAction :=
  [.create 1, .call 0 (.recv 0), .call 1 (.send 0 (wordMessage 1)), .destroy 1 0, .create 1,
    .call 1 (.send 0 (wordMessage 2))]

theorem replacedUnderReceiver_mixes : ¬∀ actions,
    Transition.EveryStep IncarnationSystem.step SameIncarnation (.boot threeTasks) actions := by
  intro all
  have mixed : (Transition.exec IncarnationSystem.step (.boot threeTasks)
      replacedUnderReceiver).any (fun system =>
        decide (system.ipc.received 0 .resume = some (0, wordMessage 2)) &&
          (system.step (.call 0 .resume)).any fun after =>
            decide ((after.sentAt 0).destroys = 1) && decide ((after.calledAt 0).destroys = 0)) =
      true := by
    decide +kernel
  obtain ⟨system, run, facts⟩ := (Option.any_eq_true _ _).mp mixed
  simp only [Bool.and_eq_true, decide_eq_true_eq, Option.any_eq_true] at facts
  obtain ⟨received, after, stepped, sent, called⟩ := facts
  have same := (all (replacedUnderReceiver ++ [.call 0 .resume])).snoc run stepped
    0 .resume 0 _ rfl received
  rw [sent, called] at same
  cases same

end DragoonKernel
