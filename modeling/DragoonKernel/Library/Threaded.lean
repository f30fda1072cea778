import Mathlib.Data.List.Nodup

/-!
Singly linked lists whose cells lie in an array. A link names a cell or is the stop
mark, and a list is threaded from a link when following `next` visits its cells in order.
-/

namespace Threaded

universe u v

/-- How links name cells. -/
structure Encoding (Cell : Type u) (Link : Type v) where
  link : Cell → Link
  stop : Link
  injective : Function.Injective link
  proper : ∀ cell, link cell ≠ stop

variable {Cell : Type u} {Link : Type v} {encoding : Encoding Cell Link}

def Thread (encoding : Encoding Cell Link) (next : Cell → Link) : Link → List Cell → Prop
  | start, [] => start = encoding.stop
  | start, cell :: rest => start = encoding.link cell ∧ Thread encoding next (next cell) rest

variable {next after : Cell → Link} {start : Link}

theorem Thread.congr {cells : List Cell} (thread : Thread encoding next start cells)
    (same : ∀ cell ∈ cells, after cell = next cell) : Thread encoding after start cells := by
  induction cells generalizing start with
  | nil => exact thread
  | cons cell rest ih =>
      refine ⟨thread.1, ?_⟩
      rw [same cell List.mem_cons_self]
      exact ih thread.2 fun other listed => same other (List.mem_cons_of_mem _ listed)

theorem Thread.unique {first second : List Cell} (thread : Thread encoding next start first)
    (other : Thread encoding next start second) : first = second := by
  induction first generalizing start second with
  | nil =>
      cases second with
      | nil => rfl
      | cons cell rest => exact absurd (other.1.symm.trans thread) (encoding.proper cell)
  | cons cell rest ih =>
      cases second with
      | nil => exact absurd (thread.1.symm.trans other) (encoding.proper cell)
      | cons head tail =>
          obtain rfl := encoding.injective (thread.1.symm.trans other.1)
          rw [ih thread.2 other.2]

theorem Thread.suffix {first rest : List Cell} {cell : Cell}
    (thread : Thread encoding next start (first ++ cell :: rest)) :
    Thread encoding next (next cell) rest := by
  induction first generalizing start with
  | nil => exact thread.2
  | cons head tail ih => exact ih thread.2

/-- A thread that ends visits no cell twice. -/
theorem Thread.nodup {cells : List Cell} (thread : Thread encoding next start cells) :
    cells.Nodup := by
  induction cells generalizing start with
  | nil => exact List.nodup_nil
  | cons cell rest ih =>
      refine List.nodup_cons.mpr ⟨fun again => ?_, ih thread.2⟩
      obtain ⟨before, later, split⟩ := List.append_of_mem again
      have tail := thread.2
      rw [split] at tail
      have same : rest = later := thread.2.unique tail.suffix
      have length := congrArg List.length split
      simp only [same, List.length_append, List.length_cons] at length
      omega

/-- Redirecting the link of one cell replaces what follows it. -/
theorem Thread.splice {first old new : List Cell} {cell : Cell}
    (thread : Thread encoding next start (first ++ cell :: old))
    (same : ∀ other ∈ first, after other = next other)
    (rest : Thread encoding after (after cell) new) :
    Thread encoding after start (first ++ cell :: new) := by
  induction first generalizing start with
  | nil => exact ⟨thread.1, rest⟩
  | cons head tail ih =>
      refine ⟨thread.1, ?_⟩
      rw [same head List.mem_cons_self]
      exact ih thread.2 fun other listed => same other (List.mem_cons_of_mem _ listed)

theorem Thread.snoc {first : List Cell} {last fresh : Cell}
    (thread : Thread encoding next start (first ++ [last])) (unlisted : fresh ∉ first)
    (linked : after last = encoding.link fresh) (ends : after fresh = encoding.stop)
    (same : ∀ cell, cell ≠ last → cell ≠ fresh → after cell = next cell) :
    Thread encoding after start (first ++ [last] ++ [fresh]) := by
  have distinct := thread.nodup
  rw [List.append_assoc]
  refine thread.splice (fun other listed => same other ?_ ?_) ⟨linked, ends⟩
  · rintro rfl
    exact List.disjoint_of_nodup_append distinct listed (List.mem_singleton_self _)
  · rintro rfl
    exact unlisted listed

theorem Thread.unlink {first rest : List Cell} {previous cell : Cell}
    (thread : Thread encoding next start (first ++ previous :: cell :: rest))
    (linked : after previous = next cell)
    (same : ∀ other, other ≠ previous → after other = next other) :
    Thread encoding after start (first ++ previous :: rest) := by
  have distinct := thread.nodup
  have apart := List.disjoint_of_nodup_append distinct
  have later := (List.nodup_cons.mp (List.nodup_append.mp distinct).2.1).1
  refine thread.splice (fun other listed => same other ?_) ?_
  · rintro rfl
    exact apart listed List.mem_cons_self
  · rw [linked]
    have tail : Thread encoding next (next cell) rest := by
      rw [← List.singleton_append, ← List.append_assoc] at thread
      exact thread.suffix
    refine tail.congr fun other listed => same other ?_
    rintro rfl
    exact later (List.mem_cons_of_mem _ listed)

end Threaded
