import DragoonKernel.Library.Transition
import Mathlib.Data.List.Nodup

/-!
A lock that its parties acquire in the order in which they joined the line for it. An
implementation is fair when its states represent states of this lock.
-/

universe u

/-- `joined` and `served` list, for the whole run, who joined the line and who got the lock. -/
structure FifoLock (Party : Type u) where
  holder : Option Party
  waiting : List Party
  joined : List Party
  served : List Party

namespace FifoLock

variable {Party : Type u}

def idle : FifoLock Party := ⟨none, [], [], []⟩

def line (lock : FifoLock Party) : List Party := lock.holder.toList ++ lock.waiting

def join (lock : FifoLock Party) (party : Party) : FifoLock Party :=
  { lock with waiting := lock.waiting ++ [party], joined := lock.joined ++ [party] }

def grant (lock : FifoLock Party) (party : Party) (rest : List Party) : FifoLock Party :=
  { lock with holder := some party, waiting := rest, served := lock.served ++ [party] }

def leave (lock : FifoLock Party) : FifoLock Party := { lock with holder := none }

inductive Step : FifoLock Party → FifoLock Party → Prop where
  | join {lock party} : party ∉ lock.line → Step lock (lock.join party)
  | grant {lock party rest} : lock.holder = none → lock.waiting = party :: rest →
      Step lock (lock.grant party rest)
  | leave {lock party} : lock.holder = some party → Step lock lock.leave

/-- Nobody is in the line twice, and the line continues the list of those served. -/
structure Ordered (lock : FifoLock Party) : Prop where
  apart : lock.line.Nodup
  history : lock.joined = lock.served ++ lock.waiting

theorem idle_ordered : (idle : FifoLock Party).Ordered := ⟨List.nodup_nil, rfl⟩

theorem line_join (lock : FifoLock Party) (party : Party) :
    (lock.join party).line = lock.line ++ [party] := (List.append_assoc _ _ _).symm

theorem line_of_holder_none {lock : FifoLock Party} (free : lock.holder = none) :
    lock.line = lock.waiting := by
  rw [line, free]
  rfl

theorem line_of_holder_some {lock : FifoLock Party} {party : Party}
    (held : lock.holder = some party) : lock.line = party :: lock.waiting := by
  rw [line, held]
  rfl

theorem Ordered.step {lock after : FifoLock Party} (ordered : lock.Ordered)
    (stepped : Step lock after) : after.Ordered := by
  obtain ⟨apart, history⟩ := ordered
  cases stepped with
  | join absent =>
      refine ⟨?_, ?_⟩
      · rw [line_join, ← List.concat_eq_append]
        exact List.Nodup.concat absent apart
      · rw [join, history, List.append_assoc]
  | grant free waiting =>
      rw [line_of_holder_none free, waiting] at apart
      refine ⟨apart, ?_⟩
      rw [grant, history, waiting, List.append_assoc, List.singleton_append]
  | leave held =>
      rw [line_of_holder_some held] at apart
      exact ⟨apart.of_cons, history⟩

theorem Ordered.served_prefix {lock : FifoLock Party} (ordered : lock.Ordered) :
    lock.served <+: lock.joined := ⟨lock.waiting, ordered.history.symm⟩

end FifoLock
