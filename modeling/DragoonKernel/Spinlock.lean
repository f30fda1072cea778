import DragoonKernel.Library.FifoLock
import Mathlib.Algebra.Group.Nat.Defs
import Mathlib.Data.Fintype.Card
import Mathlib.Logic.Function.Basic

/-!
The ticket spinlock: mutual exclusion, and the lock taken in the order of the tickets. Both
counters wrap at 2^32.
-/

namespace DragoonKernel

structure Spinlock where
  owner : BitVec 32
  next : BitVec 32

def spinInit : Spinlock := ⟨0, 0⟩

/-- Where a CPU is: outside the lock, in the loop of `spin_lock` with its ticket, or past it. -/
inductive SpinPhase where
  | outside
  | spinning (ticket : BitVec 32)
  | holding
deriving DecidableEq

/-- `taken` and `acquired` record who took a ticket and who left the loop, in order. -/
structure SpinSystem (Cpu : Type) where
  lock : Spinlock
  phases : Cpu → SpinPhase
  taken : List Cpu
  acquired : List Cpu

inductive SpinAction (Cpu : Type) where
  | fetchAndIncrement (cpu : Cpu)
  | loadOwner (cpu : Cpu)
  | unlock (cpu : Cpu)

def SpinSystem.boot {Cpu : Type} : SpinSystem Cpu := ⟨spinInit, fun _ => .outside, [], []⟩

section Steps

variable {Cpu : Type} [DecidableEq Cpu]

def SpinSystem.fetchAndIncrement (system : SpinSystem Cpu) (cpu : Cpu) : SpinSystem Cpu where
  lock := { system.lock with next := system.lock.next + 1 }
  phases := Function.update system.phases cpu (.spinning system.lock.next)
  taken := system.taken ++ [cpu]
  acquired := system.acquired

/-- One turn of the loop of `spin_lock`. -/
def SpinSystem.loadOwner (system : SpinSystem Cpu) (cpu : Cpu) (ticket : BitVec 32) :
    SpinSystem Cpu :=
  if system.lock.owner ≠ ticket then system
  else
    { system with
      phases := Function.update system.phases cpu .holding
      acquired := system.acquired ++ [cpu] }

def SpinSystem.spinUnlock (system : SpinSystem Cpu) (cpu : Cpu) : SpinSystem Cpu :=
  { system with
    lock := { system.lock with owner := system.lock.owner + 1 }
    phases := Function.update system.phases cpu .outside }

/-- Only a CPU outside the lock takes a ticket, and only the holder unlocks. -/
def SpinSystem.step (system : SpinSystem Cpu) : SpinAction Cpu → Option (SpinSystem Cpu)
  | .fetchAndIncrement cpu =>
      match system.phases cpu with
      | .outside => some (system.fetchAndIncrement cpu)
      | _ => none
  | .loadOwner cpu =>
      match system.phases cpu with
      | .spinning ticket => some (system.loadOwner cpu ticket)
      | _ => none
  | .unlock cpu =>
      match system.phases cpu with
      | .holding => some (system.spinUnlock cpu)
      | _ => none

end Steps

variable {Cpu : Type}

def SpinSystem.Exclusive (system : SpinSystem Cpu) : Prop :=
  ∀ cpu other, system.phases cpu = .holding → system.phases other = .holding → cpu = other

/-- The n-th CPU that got the lock is the one that took the n-th ticket. -/
def SpinSystem.InTicketOrder (system : SpinSystem Cpu) : Prop := system.acquired <+: system.taken

def ticketAt (lock : Spinlock) (place : Nat) : BitVec 32 := lock.owner + BitVec.ofNat 32 place

/-- The tickets outstanding are those from `owner` up to `next`, in the order of the line, and
the ticket of the holder is `owner`. -/
structure SpinSystem.Represents (system : SpinSystem Cpu) (fifo : FifoLock Cpu) : Prop where
  next : system.lock.next = ticketAt system.lock fifo.line.length
  outside : ∀ cpu, system.phases cpu = .outside ↔ cpu ∉ fifo.line
  holding : ∀ cpu, system.phases cpu = .holding ↔ fifo.holder = some cpu
  spinning : ∀ cpu ticket, system.phases cpu = .spinning ticket →
    ∃ place, fifo.line[place]? = some cpu ∧ ticket = ticketAt system.lock place
  taken : system.taken = fifo.joined
  acquired : system.acquired = fifo.served

theorem spinBoot_represents : (SpinSystem.boot : SpinSystem Cpu).Represents .idle := by
  refine ⟨rfl, ?_, ?_, ?_, rfl, rfl⟩
  · exact fun cpu => iff_of_true rfl List.not_mem_nil
  · intro cpu
    exact iff_of_false SpinPhase.noConfusion (Option.some_ne_none cpu).symm
  · intro cpu ticket spins
    cases spins

theorem ticketAt_succ (lock : Spinlock) (place : Nat) :
    ticketAt lock place + 1 = ticketAt lock (place + 1) := by
  rw [ticketAt, ticketAt, BitVec.ofNat_add, BitVec.add_assoc]
  rfl

theorem ticketAt_unlocked (lock : Spinlock) (place : Nat) :
    ticketAt { lock with owner := lock.owner + 1 } place = ticketAt lock (place + 1) := by
  rw [ticketAt, ticketAt, BitVec.ofNat_add, BitVec.add_assoc, BitVec.add_comm 1]
  rfl

theorem owner_eq_ticketAt {lock : Spinlock} {place : Nat} (below : place < 2 ^ 32) :
    lock.owner = ticketAt lock place ↔ place = 0 := by
  rw [ticketAt, ← BitVec.toNat_inj, BitVec.toNat_add, BitVec.toNat_ofNat]
  have wraps := lock.owner.isLt
  omega

variable {system : SpinSystem Cpu} {fifo : FifoLock Cpu}

theorem SpinSystem.Represents.exclusive (represents : system.Represents fifo) :
    system.Exclusive := by
  intro cpu other holds alsoHolds
  have held := (represents.holding cpu).mp holds
  exact Option.some.inj (held.symm.trans ((represents.holding other).mp alsoHolds))

theorem SpinSystem.Represents.inTicketOrder (represents : system.Represents fifo)
    (ordered : fifo.Ordered) : system.InTicketOrder := by
  rw [SpinSystem.InTicketOrder, represents.acquired, represents.taken]
  exact ordered.served_prefix

/-- The CPU whose ticket is served is the first of the line, and the lock is free. -/
theorem SpinSystem.Represents.served (represents : system.Represents fifo)
    (short : fifo.line.length < 2 ^ 32) {cpu : Cpu}
    (spins : system.phases cpu = .spinning system.lock.owner) :
    fifo.holder = none ∧ ∃ rest, fifo.waiting = cpu :: rest := by
  obtain ⟨place, found, same⟩ := represents.spinning cpu _ spins
  have bound : place < fifo.line.length := (List.getElem?_eq_some_iff.mp found).1
  obtain rfl := (owner_eq_ticketAt (by omega)).mp same
  cases held : fifo.holder with
  | some holder =>
      rw [FifoLock.line_of_holder_some held, List.getElem?_cons_zero, Option.some.injEq] at found
      subst found
      have holds := (represents.holding holder).mpr held
      rw [spins] at holds
      cases holds
  | none =>
      rw [FifoLock.line_of_holder_none held] at found
      rw [← List.head?_eq_getElem?] at found
      exact ⟨rfl, List.head?_eq_some_iff.mp found⟩

variable [DecidableEq Cpu]

theorem SpinSystem.Represents.fetchAndIncrement (represents : system.Represents fifo) {cpu : Cpu}
    (outside : system.phases cpu = .outside) :
    FifoLock.Step fifo (fifo.join cpu) ∧
      (system.fetchAndIncrement cpu).Represents (fifo.join cpu) := by
  have absent := (represents.outside cpu).mp outside
  refine ⟨.join absent, ?_, ?_, ?_, ?_, ?_, represents.acquired⟩
  · rw [FifoLock.line_join, List.length_append, List.length_singleton, SpinSystem.fetchAndIncrement,
      represents.next]
    exact ticketAt_succ system.lock fifo.line.length
  · intro other
    rw [FifoLock.line_join, List.mem_append, List.mem_singleton, SpinSystem.fetchAndIncrement]
    by_cases here : other = cpu
    · simp [here]
    · simp [here, represents.outside other]
  · intro other
    simp only [SpinSystem.fetchAndIncrement]
    by_cases here : other = cpu
    · subst here
      have idle : fifo.holder ≠ some other := by
        intro held
        have holds := (represents.holding other).mpr held
        rw [outside] at holds
        cases holds
      rw [Function.update_self]
      exact iff_of_false SpinPhase.noConfusion idle
    · rw [Function.update_of_ne here]
      exact represents.holding other
  · intro other ticket spins
    simp only [SpinSystem.fetchAndIncrement] at spins ⊢
    rw [FifoLock.line_join]
    by_cases here : other = cpu
    · subst here
      rw [Function.update_self, SpinPhase.spinning.injEq] at spins
      exact ⟨fifo.line.length, by simp, spins.symm.trans represents.next⟩
    · rw [Function.update_of_ne here] at spins
      obtain ⟨place, found, same⟩ := represents.spinning other ticket spins
      have bound : place < fifo.line.length := (List.getElem?_eq_some_iff.mp found).1
      exact ⟨place, (List.getElem?_append_left bound).trans found, same⟩
  · exact congrArg (· ++ [cpu]) represents.taken

theorem SpinSystem.Represents.loadOwner (represents : system.Represents fifo)
    (short : fifo.line.length < 2 ^ 32) {cpu : Cpu} {ticket : BitVec 32}
    (spins : system.phases cpu = .spinning ticket) :
    ∃ after, (after = fifo ∨ FifoLock.Step fifo after) ∧
      (system.loadOwner cpu ticket).Represents after := by
  unfold SpinSystem.loadOwner
  split
  next => exact ⟨fifo, .inl rfl, represents⟩
  next served =>
    obtain rfl := not_not.mp served
    obtain ⟨free, rest, waiting⟩ := represents.served short spins
    have sameLine : (fifo.grant cpu rest).line = fifo.line := by
      rw [FifoLock.line_of_holder_none free, waiting]
      rfl
    have listed : cpu ∈ fifo.line := by
      rw [FifoLock.line_of_holder_none free, waiting]
      exact List.mem_cons_self
    refine ⟨fifo.grant cpu rest, .inr (.grant free waiting), ?_, ?_, ?_, ?_, represents.taken, ?_⟩
    · rw [sameLine]
      exact represents.next
    · intro other
      rw [sameLine]
      by_cases here : other = cpu
      · simp [here, listed]
      · simp [here, represents.outside other]
    · intro other
      rw [FifoLock.grant, Option.some.injEq]
      by_cases here : other = cpu
      · simp [here]
      · have nobody : system.phases other ≠ .holding := by
          rw [ne_eq, represents.holding other, free]
          exact (Option.some_ne_none other).symm
        simp [here, nobody, Ne.symm here]
    · intro other ticket stillSpins
      rw [sameLine]
      by_cases here : other = cpu
      · simp [here] at stillSpins
      · simp only [Function.update_of_ne here] at stillSpins
        exact represents.spinning other ticket stillSpins
    · exact congrArg (· ++ [cpu]) represents.acquired

theorem SpinSystem.Represents.unlock (represents : system.Represents fifo)
    (apart : fifo.line.Nodup) {cpu : Cpu} (holds : system.phases cpu = .holding) :
    FifoLock.Step fifo fifo.leave ∧ (system.spinUnlock cpu).Represents fifo.leave := by
  have held := (represents.holding cpu).mp holds
  have before := FifoLock.line_of_holder_some held
  have left : fifo.leave.line = fifo.waiting := FifoLock.line_of_holder_none rfl
  rw [before, List.nodup_cons] at apart
  refine ⟨.leave held, ?_, ?_, ?_, ?_, represents.taken, represents.acquired⟩
  · rw [left, SpinSystem.spinUnlock, ticketAt_unlocked, represents.next, before, List.length_cons]
  · intro other
    rw [left, SpinSystem.spinUnlock]
    by_cases here : other = cpu
    · simp [here, apart.1]
    · simp [here, represents.outside other, before]
  · intro other
    rw [SpinSystem.spinUnlock, FifoLock.leave]
    refine iff_of_false ?_ (Option.some_ne_none other).symm
    by_cases here : other = cpu
    · simp [here]
    · simp [here, represents.holding other, held, Ne.symm here]
  · intro other ticket spins
    rw [left, SpinSystem.spinUnlock]
    simp only [SpinSystem.spinUnlock] at spins
    by_cases here : other = cpu
    · simp [here] at spins
    · rw [Function.update_of_ne here] at spins
      obtain ⟨place, found, same⟩ := represents.spinning other ticket spins
      rw [before] at found
      cases place with
      | zero => exact absurd (Option.some.inj found).symm here
      | succ place => exact ⟨place, found, same.trans (ticketAt_unlocked system.lock place).symm⟩

/-- Every step of the spinlock is a step of the lock that serves in order, or changes nothing. -/
theorem SpinSystem.Represents.step (represents : system.Represents fifo) (apart : fifo.line.Nodup)
    (short : fifo.line.length < 2 ^ 32) {action : SpinAction Cpu} {after : SpinSystem Cpu}
    (stepped : system.step action = some after) :
    ∃ next, (next = fifo ∨ FifoLock.Step fifo next) ∧ after.Represents next := by
  cases action with
  | fetchAndIncrement cpu =>
      simp only [SpinSystem.step] at stepped
      split at stepped
      next outside =>
        obtain rfl := Option.some.inj stepped
        obtain ⟨joins, next⟩ := represents.fetchAndIncrement outside
        exact ⟨_, .inr joins, next⟩
      next => cases stepped
  | loadOwner cpu =>
      simp only [SpinSystem.step] at stepped
      split at stepped
      next ticket spins =>
        obtain rfl := Option.some.inj stepped
        exact represents.loadOwner short spins
      next => cases stepped
  | unlock cpu =>
      simp only [SpinSystem.step] at stepped
      split at stepped
      next holds =>
        obtain rfl := Option.some.inj stepped
        obtain ⟨leaves, next⟩ := represents.unlock apart holds
        exact ⟨_, .inr leaves, next⟩
      next => cases stepped

theorem spinlock_exclusive_fifo [Fintype Cpu] (few : Fintype.card Cpu < 2 ^ 32)
    (actions : List (SpinAction Cpu)) :
    Transition.EveryState SpinSystem.step (fun system => system.Exclusive ∧ system.InTicketOrder)
      SpinSystem.boot actions := by
  have keeps : ∀ (system : SpinSystem Cpu) action after,
      (∃ fifo, FifoLock.Ordered fifo ∧ system.Represents fifo) → system.step action = some after →
      ∃ fifo, FifoLock.Ordered fifo ∧ after.Represents fifo := by
    rintro system action after ⟨fifo, ordered, represents⟩ stepped
    have short := ordered.apart.length_le_card.trans_lt few
    obtain ⟨next, same | moves, represents⟩ := represents.step ordered.apart short stepped
    · exact ⟨next, same ▸ ordered, represents⟩
    · exact ⟨next, ordered.step moves, represents⟩
  refine (Transition.everyState_of_invariant keeps
    ⟨.idle, FifoLock.idle_ordered, spinBoot_represents⟩ actions).mono ?_
  rintro system ⟨fifo, ordered, represents⟩
  exact ⟨represents.exclusive, represents.inTicketOrder ordered⟩

/-- Two CPUs, of which the second takes its ticket while the first holds the lock. -/
theorem spinlock_exclusive_fifo_contended :
    Transition.EveryState SpinSystem.step (fun system => system.Exclusive ∧ system.InTicketOrder)
      (SpinSystem.boot : SpinSystem (Fin 2)) [.fetchAndIncrement 1, .loadOwner 1,
        .fetchAndIncrement 0, .loadOwner 0, .unlock 1, .loadOwner 0, .unlock 0] :=
  spinlock_exclusive_fifo (by simp) _

end DragoonKernel
