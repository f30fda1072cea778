import Mathlib.Data.Finset.Basic
import DragoonKernel.Library.Threaded
import DragoonKernel.WaitQueueCore

/-!
What the operations on the pooled lists do to the entries of each queue: an append adds
at the tail, a removal takes one entry out, and every walk along a list ends.
-/

namespace DragoonKernel

def poolLinks : Threaded.Encoding Nat Int where
  link index := index
  stop := -1
  injective _ _ same := Int.ofNat.inj same
  proper index same := by omega

def WaitQueues.next (queues : WaitQueues) (index : Nat) : Int := (queues.pool index).next

/-- The list of a queue that starts at `head` and follows the entries of the pool. -/
abbrev WaitQueues.Lists (queues : WaitQueues) (head : Int) (entries : List Nat) : Prop :=
  Threaded.Thread poolLinks queues.next head entries

/-- The entries in use are divided among the lists of the initialised queues, each entry
on the list of its owner. -/
structure WaitQueues.Threads (queues : WaitQueues) (ready : Finset Nat)
    (entries : Nat → List Nat) : Prop where
  linked : ∀ queue ∈ ready, queues.Lists (queues.heads queue) (entries queue)
  acyclic : ∀ queue, (entries queue).Nodup
  inside : ∀ queue, ∀ index ∈ entries queue, index < wqPoolSize
  inUse : ∀ index < wqPoolSize, (queues.pool index).inUse = true ↔
    ∃ queue ∈ ready, index ∈ entries queue
  owner : ∀ queue, ∀ index ∈ entries queue, (queues.pool index).owner = some queue
  unready : ∀ queue ∉ ready, entries queue = []

variable {queues : WaitQueues} {ready : Finset Nat} {entries : Nat → List Nat}

theorem WaitQueues.Threads.apart (threads : queues.Threads ready entries) {first second index : Nat}
    (listed : index ∈ entries first) (also : index ∈ entries second) : first = second :=
  Option.some.inj ((threads.owner first index listed).symm.trans (threads.owner second index also))

theorem WaitQueues.Threads.ready_of_mem (threads : queues.Threads ready entries)
    {queue index : Nat} (listed : index ∈ entries queue) : queue ∈ ready := by
  by_contra unready
  rw [threads.unready queue unready] at listed
  exact List.not_mem_nil listed

theorem WaitQueues.Threads.empty_iff (threads : queues.Threads ready entries) {queue : Nat}
    (isReady : queue ∈ ready) : queues.heads queue < 0 ↔ entries queue = [] := by
  have linked := threads.linked queue isReady
  cases listed : entries queue with
  | nil =>
      rw [listed] at linked
      have stop : queues.heads queue = -1 := linked
      simp [stop]
  | cons index rest =>
      rw [listed] at linked
      have first : queues.heads queue = index := linked.1
      simp [first]

theorem WaitQueues.Threads.head (threads : queues.Threads ready entries) {queue index : Nat}
    {rest : List Nat} (listed : entries queue = index :: rest) :
    queues.heads queue = index ∧ index < wqPoolSize := by
  have first : index ∈ entries queue := listed ▸ List.mem_cons_self
  have linked := threads.linked queue (threads.ready_of_mem first)
  rw [listed] at linked
  exact ⟨linked.1, threads.inside queue index first⟩

theorem WaitQueues.Threads.length_le (threads : queues.Threads ready entries) (queue : Nat) :
    (entries queue).length ≤ wqPoolSize := by
  have subset : entries queue ⊆ List.range wqPoolSize := fun index listed =>
    List.mem_range.mpr (threads.inside queue index listed)
  have short := (List.subperm_of_subset (threads.acyclic queue) subset).length_le
  rwa [List.length_range] at short

@[simp] theorem poolIndex_natCast {index : Nat} (inside : index < wqPoolSize) :
    poolIndex index = some index := by
  simp [poolIndex, inside]

theorem lastEntry_spec {index last fuel : Nat} {first : List Nat}
    (linked : queues.Lists index (first ++ [last]))
    (inside : ∀ entry ∈ first ++ [last], entry < wqPoolSize) (enough : first.length < fuel) :
    lastEntry queues.pool fuel index = some last := by
  induction first generalizing index fuel with
  | nil =>
      obtain ⟨fuel, rfl⟩ := Nat.exists_eq_succ_of_ne_zero (Nat.ne_of_gt enough)
      obtain ⟨same, ends⟩ := linked
      obtain rfl : index = last := Int.ofNat.inj same
      have stop : (queues.pool index).next = -1 := ends
      simp [lastEntry, stop]
  | cons entry rest ih =>
      obtain ⟨fuel, rfl⟩ := Nat.exists_eq_succ_of_ne_zero (Nat.ne_of_gt (Nat.zero_lt_of_lt enough))
      obtain ⟨same, tail⟩ := linked
      obtain rfl : index = entry := Int.ofNat.inj same
      obtain ⟨next, following⟩ : ∃ next : Nat, queues.next index = next ∧ next < wqPoolSize := by
        cases rest with
        | nil => exact ⟨last, tail.1, inside last (by simp)⟩
        | cons head more => exact ⟨head, tail.1, inside head (by simp)⟩
      rw [following.1] at tail
      have link : (queues.pool index).next = next := following.1
      have proper : ¬((next : Int) < 0) := by omega
      rw [lastEntry, link, if_neg proper, poolIndex_natCast following.2, Option.bind_some]
      refine ih tail (fun other listed => inside other (List.mem_cons_of_mem _ listed)) ?_
      simpa using enough

theorem entryBefore_spec {link : Int} {previous index fuel : Nat} {first rest : List Nat}
    (linked : queues.Lists link (first ++ previous :: index :: rest))
    (inside : ∀ entry ∈ first ++ previous :: index :: rest, entry < wqPoolSize)
    (enough : first.length < fuel) :
    entryBefore queues.pool index fuel link = some (some previous) := by
  induction first generalizing link fuel with
  | nil =>
      obtain ⟨fuel, rfl⟩ := Nat.exists_eq_succ_of_ne_zero (Nat.ne_of_gt enough)
      obtain ⟨rfl, following, _⟩ := linked
      have link : (queues.pool previous).next = index := following
      have proper : ¬((previous : Int) < 0) := by omega
      simp [entryBefore, poolLinks, proper, inside previous (by simp), link]
  | cons entry more ih =>
      obtain ⟨fuel, rfl⟩ := Nat.exists_eq_succ_of_ne_zero (Nat.ne_of_gt (Nat.zero_lt_of_lt enough))
      have distinct := linked.nodup
      obtain ⟨rfl, tail⟩ := linked
      have other : (queues.pool entry).next ≠ index := by
        intro same
        have start : queues.next entry = poolLinks.link index := same
        rw [start] at tail
        cases more with
        | nil =>
            obtain rfl := poolLinks.injective tail.1
            simp at distinct
        | cons head later =>
            obtain rfl := poolLinks.injective tail.1
            simp at distinct
      have proper : ¬((entry : Int) < 0) := by omega
      have found : poolIndex entry = some entry := poolIndex_natCast (inside entry (by simp))
      simp only [entryBefore, poolLinks, proper, if_false, found, Option.bind_eq_bind,
        Option.bind_some, other]
      exact ih tail (fun listed member => inside listed (List.mem_cons_of_mem _ member))
        (by simpa using enough)

def WaitQueues.Relinks (before after : WaitQueues) : Prop :=
  ∀ index, after.pool index = { before.pool index with next := after.next index }

def WaitQueues.setNext (queues : WaitQueues) (index : Nat) (link : Int) : WaitQueues :=
  queues.modify index fun entry => { entry with next := link }

theorem setNext_modify (queues : WaitQueues) (index : Nat) (link : Int) :
    (queues.modify index fun entry => { entry with next := link }) = queues.setNext index link := rfl

@[simp] theorem setNext_heads (queues : WaitQueues) (index : Nat) (link : Int) :
    (queues.setNext index link).heads = queues.heads := rfl

@[simp] theorem setNext_next (queues : WaitQueues) (index other : Nat) (link : Int) :
    (queues.setNext index link).next other = if other = index then link else queues.next other := by
  by_cases here : other = index
  · subst here
    simp [WaitQueues.setNext, WaitQueues.modify, WaitQueues.next]
  · simp [WaitQueues.setNext, WaitQueues.modify, WaitQueues.next, here]

theorem setNext_relinks (queues : WaitQueues) (index : Nat) (link : Int) :
    queues.Relinks (queues.setNext index link) := by
  intro other
  by_cases here : other = index
  · subst here
    simp [WaitQueues.setNext, WaitQueues.modify, WaitQueues.next]
  · simp [WaitQueues.setNext, WaitQueues.modify, WaitQueues.next, here]

theorem WaitQueues.Relinks.trans {first second third : WaitQueues} (before : first.Relinks second)
    (later : second.Relinks third) : first.Relinks third := by
  intro index
  rw [later index, before index]

@[simp] theorem setHead_next (queues : WaitQueues) (queue : Nat) (head : Int) :
    (queues.setHead queue head).next = queues.next := rfl

@[simp] theorem setHead_heads (queues : WaitQueues) (queue : Nat) (head : Int) :
    (queues.setHead queue head).heads = Function.update queues.heads queue head := rfl

/-- `claimed` is `queues` with the unused entry `index` filled for `queue`. -/
structure WaitQueues.Claims (queues claimed : WaitQueues) (queue index : Nat) : Prop where
  unused : (queues.pool index).inUse = false
  inside : index < wqPoolSize
  inUse : (claimed.pool index).inUse = true
  owner : (claimed.pool index).owner = some queue
  others : ∀ other, other ≠ index → claimed.pool other = queues.pool other
  heads : claimed.heads = queues.heads

theorem WaitQueues.Threads.unlisted (threads : queues.Threads ready entries) {index : Nat}
    (unused : (queues.pool index).inUse = false) (queue : Nat) : index ∉ entries queue := by
  intro listed
  have used := (threads.inUse index (threads.inside queue index listed)).mpr
    ⟨queue, threads.ready_of_mem listed, listed⟩
  rw [unused] at used
  cases used

theorem WaitQueues.Threads.extend {claimed after : WaitQueues} {queue index : Nat}
    (threads : queues.Threads ready entries) (claims : queues.Claims claimed queue index)
    (isReady : queue ∈ ready) (relinks : claimed.Relinks after)
    (linked : ∀ other ∈ ready, after.Lists (after.heads other)
      (Function.update entries queue (entries queue ++ [index]) other)) :
    after.Threads ready (Function.update entries queue (entries queue ++ [index])) := by
  have unlisted := threads.unlisted claims.unused
  have listed_iff : ∀ other query, query ∈ Function.update entries queue
      (entries queue ++ [index]) other ↔
        query ∈ entries other ∨ (other = queue ∧ query = index) := by
    intro other query
    by_cases here : other = queue
    · subst here
      simp
    · simp [here]
  refine ⟨linked, ?_, ?_, ?_, ?_, ?_⟩
  · intro other
    by_cases here : other = queue
    · subst here
      rw [Function.update_self]
      refine (threads.acyclic other).append (List.nodup_singleton index) ?_
      simpa using unlisted other
    · rw [Function.update_of_ne here]
      exact threads.acyclic other
  · intro other query member
    rcases (listed_iff other query).mp member with listed | ⟨_, rfl⟩
    · exact threads.inside other query listed
    · exact claims.inside
  · intro query bound
    rw [relinks query]
    simp only [listed_iff]
    by_cases here : query = index
    · subst here
      simp only [claims.inUse, and_true, true_iff]
      exact ⟨queue, isReady, Or.inr rfl⟩
    · rw [claims.others query here, threads.inUse query bound]
      simp [here]
  · intro other query member
    rw [relinks query]
    rcases (listed_iff other query).mp member with listed | ⟨rfl, rfl⟩
    · have different : query ≠ index := by
        rintro rfl
        exact unlisted other listed
      rw [claims.others query different]
      exact threads.owner other query listed
    · exact claims.owner
  · intro other unready
    have different : other ≠ queue := by
      rintro rfl
      exact unready isReady
    rw [Function.update_of_ne different]
    exact threads.unready other unready

theorem queueAppend_spec {claimed : WaitQueues} {queue index : Nat}
    (threads : queues.Threads ready entries) (claims : queues.Claims claimed queue index)
    (isReady : queue ∈ ready) :
    ∃ after, queueAppend claimed queue index = some after ∧ claimed.Relinks after ∧
      after.Threads ready (Function.update entries queue (entries queue ++ [index])) := by
  have unlisted := threads.unlisted claims.unused
  have apart : ∀ other, ∀ query ∈ entries other, query ≠ index := by
    rintro other query listed rfl
    exact unlisted other listed
  have cut : claimed.Relinks (claimed.setNext index (-1)) := setNext_relinks claimed index (-1)
  have kept : ∀ other, ∀ query ∈ entries other,
      (claimed.setNext index (-1)).next query = queues.next query := by
    intro other query listed
    rw [setNext_next, if_neg (apart other query listed), WaitQueues.next,
      claims.others query (apart other query listed), WaitQueues.next]
  have linked := threads.linked queue isReady
  rcases List.eq_nil_or_concat' (entries queue) with empty | ⟨first, last, filled⟩
  · have negative : claimed.heads queue < 0 := by
      rw [claims.heads]
      exact (threads.empty_iff isReady).mpr empty
    refine ⟨(claimed.setNext index (-1)).setHead queue index, if_pos negative, cut, ?_⟩
    refine threads.extend claims isReady cut ?_
    intro other otherReady
    simp only [setHead_heads, setNext_heads, claims.heads]
    by_cases here : other = queue
    · subst here
      rw [Function.update_self, Function.update_self, empty]
      exact ⟨rfl, by simp [poolLinks, Threaded.Thread]⟩
    · rw [Function.update_of_ne here, Function.update_of_ne here]
      exact (threads.linked other otherReady).congr (kept other)
  · rw [filled] at linked
    have lastListed : last ∈ entries queue := by simp [filled]
    have inside : ∀ entry ∈ first ++ [last], entry < wqPoolSize :=
      fun entry listed => threads.inside queue entry (filled ▸ listed)
    have short : first.length < wqPoolSize := by
      have bound := threads.length_le queue
      simp only [filled, List.length_append, List.length_singleton] at bound
      omega
    obtain ⟨head, headEq, headInside⟩ : ∃ head : Nat, queues.heads queue = head ∧
        head < wqPoolSize := by
      cases first with
      | nil => exact ⟨last, linked.1, inside last (by simp)⟩
      | cons head rest => exact ⟨head, linked.1, inside head (by simp)⟩
    have walked : lastEntry (claimed.setNext index (-1)).pool wqPoolSize head = some last := by
      refine lastEntry_spec ?_ inside short
      rw [← headEq]
      exact linked.congr fun query listed => kept queue query (filled ▸ listed)
    refine ⟨(claimed.setNext index (-1)).setNext last index, ?_, ?_, ?_⟩
    · have proper : ¬((head : Int) < 0) := by omega
      simp only [queueAppend, setNext_modify, setNext_heads, claims.heads, headEq, if_neg proper,
        poolIndex_natCast headInside, Option.bind_eq_bind, Option.bind_some, walked]
    · exact cut.trans (setNext_relinks _ last index)
    · refine threads.extend claims isReady (cut.trans (setNext_relinks _ last index)) ?_
      intro other otherReady
      simp only [setNext_heads, claims.heads]
      by_cases here : other = queue
      · subst here
        rw [Function.update_self, filled]
        have fresh : index ∉ first := fun listed => unlisted other (by simp [filled, listed])
        refine linked.snoc fresh ?_ ?_ ?_
        · simp [poolLinks]
        · simp [poolLinks, (apart other last lastListed).symm]
        · intro query notLast notIndex
          simp only [setNext_next, notLast, notIndex, if_false]
          rw [WaitQueues.next, claims.others query notIndex, WaitQueues.next]
      · rw [Function.update_of_ne here]
        refine (threads.linked other otherReady).congr fun query listed => ?_
        have notLast : query ≠ last := by
          rintro rfl
          exact here (threads.apart listed lastListed)
        rw [setNext_next, if_neg notLast]
        exact kept other query listed

theorem wqPoolInit_threads (queues : WaitQueues) :
    (wqPoolInit queues).Threads ∅ fun _ => [] := by
  refine ⟨?_, fun _ => List.nodup_nil, ?_, ?_, ?_, fun _ _ => rfl⟩
  · exact fun queue isReady => absurd isReady (Finset.notMem_empty queue)
  · exact fun _ index listed => absurd listed List.not_mem_nil
  · intro index bound
    simp [wqPoolInit, bound]
  · exact fun _ index listed => absurd listed List.not_mem_nil

theorem WaitQueues.Threads.init (threads : queues.Threads ready entries) {queue : Nat}
    (empty : entries queue = []) : (wqInit queues queue).Threads (insert queue ready) entries := by
  refine ⟨?_, threads.acyclic, threads.inside, ?_, threads.owner, ?_⟩
  · intro other otherReady
    by_cases here : other = queue
    · subst here
      rw [empty]
      simp [wqInit, Threaded.Thread, poolLinks]
    · simp only [wqInit, setHead_heads, Function.update_of_ne here]
      exact threads.linked other (by simpa [here] using otherReady)
  · intro index bound
    simp only [Finset.mem_insert]
    refine (threads.inUse index bound).trans ⟨?_, ?_⟩
    · rintro ⟨other, otherReady, listed⟩
      exact ⟨other, Or.inr otherReady, listed⟩
    · rintro ⟨other, _, listed⟩
      exact ⟨other, threads.ready_of_mem listed, listed⟩
  · exact fun other unready =>
      threads.unready other fun isReady => unready (Finset.mem_insert_of_mem isReady)

/-- The entries of each queue once `index` has been taken out. -/
def withoutEntry (entries : Nat → List Nat) (index queue : Nat) : List Nat :=
  (entries queue).filter (· ≠ index)

theorem mem_withoutEntry {queue index query : Nat} :
    query ∈ withoutEntry entries index queue ↔ query ∈ entries queue ∧ query ≠ index := by
  simp [withoutEntry]

theorem withoutEntry_apart {queue index : Nat} (unlisted : index ∉ entries queue) :
    withoutEntry entries index queue = entries queue := by
  refine List.filter_eq_self.mpr fun query listed => ?_
  have different : query ≠ index := by
    rintro rfl
    exact unlisted listed
  simpa using different

theorem withoutEntry_split {queue index : Nat} {first rest : List Nat}
    (listed : entries queue = first ++ index :: rest) (distinct : (entries queue).Nodup) :
    withoutEntry entries index queue = first ++ rest := by
  rw [listed] at distinct
  have later := (List.nodup_cons.mp (List.nodup_append.mp distinct).2.1).1
  have earlier : index ∉ first := fun again =>
    List.disjoint_of_nodup_append distinct again List.mem_cons_self
  have keeps : ∀ cells : List Nat, index ∉ cells → cells.filter (· ≠ index) = cells := by
    intro cells absent
    refine List.filter_eq_self.mpr fun query member => ?_
    have different : query ≠ index := by
      rintro rfl
      exact absent member
    simpa using different
  rw [withoutEntry, listed, List.filter_append, keeps first earlier, List.filter_cons_of_neg (by simp),
    keeps rest later]

theorem queueRemove_spec {queue index : Nat} (threads : queues.Threads ready entries)
    (listed : index ∈ entries queue) :
    ∃ after, queueRemove queues queue index = some after ∧ queues.Relinks after ∧
      ∀ other ∈ ready, after.Lists (after.heads other) (withoutEntry entries index other) := by
  have isReady := threads.ready_of_mem listed
  have linked := threads.linked queue isReady
  have nonempty : ¬(queues.heads queue < 0) := by
    rw [threads.empty_iff isReady]
    exact List.ne_nil_of_mem listed
  have elsewhere : ∀ other, other ≠ queue → withoutEntry entries index other = entries other :=
    fun other different => withoutEntry_apart fun also => different (threads.apart also listed)
  obtain ⟨first, rest, split⟩ := List.append_of_mem listed
  have without := withoutEntry_split split (threads.acyclic queue)
  rcases List.eq_nil_or_concat' first with rfl | ⟨earlier, previous, rfl⟩
  · have head : queues.heads queue = index := (threads.head split).1
    refine ⟨queues.setHead queue (queues.next index), ?_, fun _ => rfl, ?_⟩
    · rw [queueRemove, if_neg nonempty, if_pos head]
      rfl
    · intro other otherReady
      rw [setHead_heads]
      by_cases here : other = queue
      · subst here
        rw [Function.update_self, without]
        rw [split] at linked
        exact linked.2
      · rw [Function.update_of_ne here, elsewhere other here]
        exact threads.linked other otherReady
  · have shape : entries queue = earlier ++ previous :: index :: rest := by simp [split]
    have notHead : queues.heads queue ≠ index := by
      intro head
      have distinct := threads.acyclic queue
      rw [shape] at linked distinct
      rw [head] at linked
      cases earlier with
      | nil =>
          obtain rfl := poolLinks.injective linked.1
          simp at distinct
      | cons entry more =>
          obtain rfl := poolLinks.injective linked.1
          simp at distinct
    have short : earlier.length < wqPoolSize + 1 := by
      have bound := threads.length_le queue
      simp only [shape, List.length_append, List.length_cons] at bound
      omega
    have found : entryBefore queues.pool index (wqPoolSize + 1) (queues.heads queue) =
        some (some previous) := by
      rw [shape] at linked
      exact entryBefore_spec linked (fun entry member => threads.inside queue entry (shape ▸ member))
        short
    refine ⟨queues.setNext previous (queues.next index), ?_, setNext_relinks _ _ _, ?_⟩
    · rw [queueRemove, if_neg nonempty, if_neg notHead, found]
      rfl
    · intro other otherReady
      rw [setNext_heads]
      by_cases here : other = queue
      · subst here
        rw [without, List.append_assoc, List.singleton_append]
        rw [shape] at linked
        exact linked.unlink (by simp) fun query different => by simp [different]
      · rw [elsewhere other here]
        refine (threads.linked other otherReady).congr fun query member => ?_
        have different : query ≠ previous := by
          rintro rfl
          exact here (threads.apart member (shape ▸ by simp))
        simp [different]

@[simp] theorem poolFree_heads (queues : WaitQueues) (index : Nat) :
    (poolFree queues index).heads = queues.heads := rfl

theorem poolFree_pool (queues : WaitQueues) (index other : Nat) :
    (poolFree queues index).pool other =
      if other = index then { queues.pool other with inUse := false, owner := none }
      else queues.pool other := by
  by_cases here : other = index
  · subst here
    simp [poolFree, WaitQueues.modify]
  · simp [poolFree, WaitQueues.modify, here]

theorem poolFree_next (queues : WaitQueues) (index : Nat) :
    (poolFree queues index).next = queues.next := by
  funext other
  rw [WaitQueues.next, poolFree_pool]
  split <;> rfl

theorem WaitQueues.Threads.free {after : WaitQueues} {index : Nat}
    (threads : queues.Threads ready entries) (relinks : queues.Relinks after)
    (linked : ∀ other ∈ ready, after.Lists (after.heads other) (withoutEntry entries index other)) :
    (poolFree after index).Threads ready (withoutEntry entries index) := by
  refine ⟨?_, ?_, ?_, ?_, ?_, ?_⟩
  · intro other otherReady
    rw [WaitQueues.Lists, poolFree_next, poolFree_heads]
    exact linked other otherReady
  · exact fun other => (threads.acyclic other).filter _
  · exact fun other query member => threads.inside other query (mem_withoutEntry.mp member).1
  · intro query bound
    rw [poolFree_pool]
    simp only [mem_withoutEntry]
    split
    next here => simp [here]
    next different =>
      rw [relinks query, threads.inUse query bound]
      simp [different]
  · intro other query member
    obtain ⟨before, different⟩ := mem_withoutEntry.mp member
    rw [poolFree_pool, if_neg different, relinks query]
    exact threads.owner other query before
  · intro other unready
    rw [withoutEntry, threads.unready other unready]
    rfl

end DragoonKernel
