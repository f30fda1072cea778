import DragoonKernel.VirtqCore
import DragoonKernel.Library.Threaded
import DragoonKernel.Library.Transition
import Mathlib.Data.Multiset.Range
import Mathlib.Data.Multiset.Count
import Mathlib.Algebra.Order.Group.Multiset
import Mathlib.Tactic.Abel

/-!
Descriptors of a virtqueue are conserved: each is on the free chain or in flight, whatever
the driver and the device do in turn.
-/

namespace DragoonKernel

def descIndex (link : BitVec 16) : Option Nat := if link = 0xFFFF then none else some link.toNat

def descLinks : Threaded.Encoding Nat (Option Nat) where
  link := some
  stop := none
  injective := Option.some_injective _
  proper := Option.some_ne_none

/-- `free_head` and the `next` fields lead through `chain` to the stop mark 0xFFFF. -/
def Virtq.FreeChain (vq : Virtq) (chain : List Nat) : Prop :=
  Threaded.Thread descLinks (fun head => descIndex (vq.desc head).next) (descIndex vq.freeHead) chain

def VirtqUsedElem.head (elem : VirtqUsedElem) : Nat := elem.id.toNat

/-- Submitted once more than popped. -/
def VirtqSystem.InFlight (system : VirtqSystem) (head : Nat) : Prop :=
  (system.popped.map VirtqUsedElem.head).count head < system.submitted.count head

structure VirtqSystem.Conserved (num : Nat) (system : VirtqSystem) : Prop where
  free : ∃ chain, system.vq.FreeChain chain ∧ chain.Nodup ∧
    ∀ head, head ∈ chain ↔ head < num ∧ ¬system.InFlight head
  inFlight : ∀ head, system.InFlight head → head < num
  inOrder : system.popped <+: system.published

/-- What one call must do. A push submits a descriptor that is not in flight, or changes
nothing when all are, and it leaves the slots that the device has not consumed. A pop returns
the next element that the device has published, if there is one. -/
def VirtqSystem.StepConserves (num : Nat) (system : VirtqSystem) (action : VirtqAction)
    (after : VirtqSystem) : Prop :=
  match action with
  | .pushBuf _ _ _ =>
      ((∀ head < num, system.InFlight head) ∧ after = system ∨
        ∃ head < num, ¬system.InFlight head ∧ after.submitted = system.submitted ++ [head]) ∧
      ∀ place < (system.vq.avail.idx - system.device.seen).toNat,
        let slot := Ring.slot num (system.device.seen + BitVec.ofNat 16 place)
        after.vq.avail.ring slot = system.vq.avail.ring slot
  | .popUsed =>
      system.published = system.popped ∧ after = system ∨
        ∃ elem rest, system.published = system.popped ++ elem :: rest ∧
          after.popped = system.popped ++ [elem]
  | .fetch | .publish _ _ => True

/-- The heads in flight: in the available ring, with the device, or in the used ring. -/
def pendingHeads (waiting owned : List (BitVec 16)) (used : List VirtqUsedElem) : Multiset Nat :=
  ↑(waiting.map BitVec.toNat) + ↑(owned.map BitVec.toNat) + ↑(used.map VirtqUsedElem.head)

/-- `waiting` and `used` are what the rings hold, and `chain` is the free chain. -/
structure VirtqSystem.Tracked (num : Nat) (system : VirtqSystem) (chain : List Nat)
    (waiting : List (BitVec 16)) (used : List VirtqUsedElem) : Prop where
  size : system.vq.num.toNat = num
  free : system.vq.FreeChain chain
  availRing : Ring.Holds system.vq.avail.ring num system.device.seen system.vq.avail.idx waiting
  usedRing : Ring.Holds system.vq.used.ring num system.vq.lastUsedIdx system.vq.used.idx used
  all : ↑chain + pendingHeads waiting system.device.owned used = Multiset.range num
  submitted : (system.submitted : Multiset Nat) =
    ↑(system.popped.map VirtqUsedElem.head) + pendingHeads waiting system.device.owned used
  published : system.published = system.popped ++ used

def VirtqSystem.Sound (num : Nat) (system : VirtqSystem) : Prop :=
  ∃ chain waiting used, system.Tracked num chain waiting used

variable {num : Nat} {system : VirtqSystem} {chain : List Nat} {waiting : List (BitVec 16)}
  {used : List VirtqUsedElem}

theorem VirtqSystem.Tracked.nodup (tracked : system.Tracked num chain waiting used) :
    (↑chain + pendingHeads waiting system.device.owned used : Multiset Nat).Nodup :=
  tracked.all ▸ Multiset.nodup_range num

theorem VirtqSystem.Tracked.mem (tracked : system.Tracked num chain waiting used) (head : Nat) :
    head ∈ chain ∨ head ∈ pendingHeads waiting system.device.owned used ↔ head < num := by
  rw [← Multiset.mem_range, ← tracked.all, Multiset.mem_add, Multiset.mem_coe]

theorem VirtqSystem.Tracked.lengths (tracked : system.Tracked num chain waiting used) :
    chain.length + (waiting.length + system.device.owned.length + used.length) = num := by
  have cards := congrArg Multiset.card tracked.all
  simpa [pendingHeads, Nat.add_assoc] using cards

theorem VirtqSystem.Tracked.inFlight (tracked : system.Tracked num chain waiting used)
    (head : Nat) : system.InFlight head ↔ head ∈ pendingHeads waiting system.device.owned used := by
  have counts := congrArg (Multiset.count head) tracked.submitted
  rw [Multiset.count_add, Multiset.coe_count, Multiset.coe_count] at counts
  rw [VirtqSystem.InFlight, ← Multiset.count_pos]
  omega

theorem VirtqSystem.Tracked.conserved (tracked : system.Tracked num chain waiting used) :
    system.Conserved num := by
  have apart := Multiset.nodup_add.mp tracked.nodup
  refine ⟨⟨chain, tracked.free, tracked.free.nodup, fun head => ?_⟩, fun head flies => ?_, ?_⟩
  · rw [tracked.inFlight, ← tracked.mem]
    constructor
    · intro listed
      exact ⟨.inl listed, Multiset.disjoint_left.mp apart.2.2 listed⟩
    · rintro ⟨listed | pending, rests⟩
      · exact listed
      · exact absurd pending rests
  · exact (tracked.mem head).mp (.inr ((tracked.inFlight head).mp flies))
  · exact ⟨used, tracked.published.symm⟩

/-- A head that the device holds is neither free nor in the used ring. -/
theorem VirtqSystem.Tracked.owned (tracked : system.Tracked num chain waiting used)
    {head : BitVec 16} (owned : head ∈ system.device.owned) :
    head.toNat ∈ system.submitted ∧ head.toNat < num ∧ head.toNat ∉ chain ∧
      ∀ elem ∈ used, elem.head ≠ head.toNat := by
  have held : head.toNat ∈ system.device.owned.map BitVec.toNat := List.mem_map_of_mem owned
  have pending : head.toNat ∈ pendingHeads waiting system.device.owned used := by
    simp only [pendingHeads, Multiset.mem_add, Multiset.mem_coe]
    exact .inl (.inr held)
  have apart := Multiset.nodup_add.mp tracked.nodup
  refine ⟨?_, (tracked.mem head.toNat).mp (.inr pending), fun listed => ?_, fun elem listed same => ?_⟩
  · rw [← Multiset.mem_coe, tracked.submitted, Multiset.mem_add]
    exact .inr pending
  · exact Multiset.disjoint_left.mp apart.2.2 listed pending
  · have split := (Multiset.nodup_add.mp apart.2.1).2.2
    have returned : head.toNat ∈ used.map VirtqUsedElem.head := same ▸ List.mem_map_of_mem listed
    exact Multiset.disjoint_left.mp split (Multiset.mem_add.mpr (.inr held)) returned

theorem Virtq.FreeChain.head {vq : Virtq} {head : Nat} (free : vq.FreeChain (head :: chain)) :
    vq.freeHead ≠ 0xFFFF ∧ vq.freeHead.toNat = head := by
  have starts : descIndex vq.freeHead = some head := free.1
  simp only [descIndex] at starts
  split at starts
  next => cases starts
  next proper => exact ⟨proper, Option.some.inj starts⟩

theorem virtqPushBuf_free {vq : Virtq} {head : Nat} (free : vq.FreeChain (head :: chain))
    (buf : Word) (len : BitVec 32) (flags : BitVec 16) :
    virtqPushBuf vq buf len flags = { vq with
      freeHead := (vq.desc head).next
      desc := Function.update vq.desc head ⟨buf, len, flags, 0⟩
      avail := { vq.avail with
        ring := Function.update vq.avail.ring (Ring.slot vq.num.toNat vq.avail.idx) vq.freeHead
        idx := vq.avail.idx + 1 } } := by
  rw [virtqPushBuf, if_neg free.head.1, free.head.2]

theorem Virtq.FreeChain.push {vq : Virtq} {head : Nat} (free : vq.FreeChain (head :: chain))
    (buf : Word) (len : BitVec 32) (flags : BitVec 16) :
    (virtqPushBuf vq buf len flags).FreeChain chain := by
  have absent : head ∉ chain := (List.nodup_cons.mp free.nodup).1
  rw [virtqPushBuf_free free]
  refine free.2.congr fun other listed => ?_
  have different : other ≠ head := fun same => absent (same ▸ listed)
  simp [different]

theorem Virtq.FreeChain.push_nil {vq : Virtq} (free : vq.FreeChain []) (buf : Word)
    (len : BitVec 32) (flags : BitVec 16) :
    vq.freeHead = 0xFFFF ∧ virtqPushBuf vq buf len flags = vq := by
  have exhausted : vq.freeHead = 0xFFFF := by
    have stops : descIndex vq.freeHead = none := free
    simp only [descIndex] at stops
    split at stops
    next same => exact same
    next => cases stops
  exact ⟨exhausted, by rw [virtqPushBuf, if_pos exhausted]⟩

theorem virtqPopUsed_some {vq : Virtq} {elem : VirtqUsedElem}
    (ready : virtqHasUsed vq = true)
    (first : vq.used.ring (Ring.slot vq.num.toNat vq.lastUsedIdx) = elem) :
    virtqPopUsed vq = ({ vq with
      lastUsedIdx := vq.lastUsedIdx + 1
      desc := Function.update vq.desc elem.head { vq.desc elem.head with next := vq.freeHead }
      freeHead := elem.id.setWidth 16 }, some elem) := by
  rw [virtqPopUsed, if_pos ready, first]
  rfl

theorem Virtq.FreeChain.pop {vq : Virtq} {elem : VirtqUsedElem} (free : vq.FreeChain chain)
    (ready : virtqHasUsed vq = true)
    (first : vq.used.ring (Ring.slot vq.num.toNat vq.lastUsedIdx) = elem)
    (inside : elem.head < virtqSize) (absent : elem.head ∉ chain) :
    (virtqPopUsed vq).1.FreeChain (elem.head :: chain) := by
  have link : descIndex (elem.id.setWidth 16) = some elem.head := by
    have fits : (elem.id.setWidth 16).toNat = elem.head := by
      rw [BitVec.toNat_setWidth]
      exact Nat.mod_eq_of_lt (inside.trans (by decide))
    rw [descIndex, if_neg, fits]
    intro stop
    rw [stop] at fits
    simp [virtqSize, ← fits] at inside
  rw [virtqPopUsed_some ready first]
  refine ⟨link, ?_⟩
  simp only [Function.update_self]
  refine free.congr fun other listed => ?_
  have different : other ≠ elem.head := fun same => absent (same ▸ listed)
  simp [different]

theorem VirtqSystem.Tracked.room {head : Nat}
    (tracked : system.Tracked num (head :: chain) waiting used) : waiting.length < num := by
  have lengths := tracked.lengths
  simp only [List.length_cons] at lengths
  omega

theorem VirtqSystem.Tracked.pushBuf {head : Nat} (divides : num ∣ 2 ^ 16)
    (tracked : system.Tracked num (head :: chain) waiting used) (buf : Word) (len : BitVec 32)
    (flags : BitVec 16) :
    (system.pushBuf buf len flags).Tracked num chain (waiting ++ [system.vq.freeHead]) used ∧
      (system.pushBuf buf len flags).submitted = system.submitted ++ [head] := by
  have taken := tracked.free.head
  have pushed := virtqPushBuf_free tracked.free buf len flags
  have pending : pendingHeads (waiting ++ [system.vq.freeHead]) system.device.owned used =
      {head} + pendingHeads waiting system.device.owned used := by
    simp only [pendingHeads, List.map_append, List.map_cons, List.map_nil, taken.2,
      ← Multiset.coe_add, Multiset.coe_singleton]
    abel
  have submitted : (system.pushBuf buf len flags).submitted = system.submitted ++ [head] := by
    rw [VirtqSystem.pushBuf, if_neg taken.1, taken.2]
  refine ⟨⟨?_, ?_, ?_, ?_, ?_, ?_, tracked.published⟩, submitted⟩
  · simp only [VirtqSystem.pushBuf, pushed, tracked.size]
  · exact tracked.free.push buf len flags
  · simp only [VirtqSystem.pushBuf, pushed, tracked.size]
    exact tracked.availRing.push divides tracked.room system.vq.freeHead
  · simp only [VirtqSystem.pushBuf, pushed]
    exact tracked.usedRing
  · rw [← tracked.all, ← Multiset.cons_coe, ← Multiset.singleton_add]
    refine (congrArg _ pending).trans ?_
    abel
  · rw [submitted, ← Multiset.coe_add, tracked.submitted, Multiset.coe_singleton]
    refine Eq.trans ?_ (congrArg _ pending).symm
    simp only [VirtqSystem.pushBuf]
    abel

theorem VirtqSystem.Tracked.free_nil (tracked : system.Tracked num [] waiting used) (buf : Word)
    (len : BitVec 32) (flags : BitVec 16) : system.pushBuf buf len flags = system := by
  obtain ⟨exhausted, same⟩ := Virtq.FreeChain.push_nil tracked.free buf len flags
  rw [VirtqSystem.pushBuf, same, if_pos exhausted]

theorem VirtqSystem.Tracked.hasUsed (tracked : system.Tracked num chain waiting used)
    (small : num ≤ virtqSize) : virtqHasUsed system.vq = false ↔ used = [] := by
  have lengths := tracked.lengths
  rw [tracked.usedRing.eq_nil_iff (by simp only [virtqSize] at small; omega), virtqHasUsed,
    decide_eq_false_iff_not, not_not]
  exact eq_comm

theorem VirtqSystem.Tracked.popUsed_nil (tracked : system.Tracked num chain waiting [])
    (small : num ≤ virtqSize) : system.popUsed = system := by
  have nothing := (tracked.hasUsed small).mpr rfl
  simp [VirtqSystem.popUsed, virtqPopUsed, nothing]

theorem VirtqSystem.Tracked.popUsed {elem : VirtqUsedElem}
    (tracked : system.Tracked num chain waiting (elem :: used)) (small : num ≤ virtqSize) :
    (virtqPopUsed system.vq).2 = some elem ∧
      system.popUsed.Tracked num (elem.head :: chain) waiting used := by
  have ready := Bool.ne_false_iff.mp fun nothing =>
    List.cons_ne_nil _ _ ((tracked.hasUsed small).mp nothing)
  obtain ⟨first, rest⟩ := tracked.usedRing
  rw [← tracked.size] at first
  have pops := virtqPopUsed_some ready first
  have pending : pendingHeads waiting system.device.owned (elem :: used) =
      {elem.head} + pendingHeads waiting system.device.owned used := by
    simp only [pendingHeads, List.map_cons, ← Multiset.cons_coe, ← Multiset.singleton_add]
    abel
  have returned : elem.head < virtqSize := by
    refine Nat.lt_of_lt_of_le ((tracked.mem elem.head).mp (.inr ?_)) small
    simp [pending]
  have absent : elem.head ∉ chain := by
    have apart := Multiset.nodup_add.mp tracked.nodup
    intro listed
    exact Multiset.disjoint_left.mp apart.2.2 listed (by simp [pending])
  refine ⟨by rw [pops], ?_, ?_, ?_, ?_, ?_, ?_, ?_⟩
  · rw [VirtqSystem.popUsed, pops]
    exact tracked.size
  · exact Virtq.FreeChain.pop tracked.free ready first returned absent
  · rw [VirtqSystem.popUsed, pops]
    exact tracked.availRing
  · rw [VirtqSystem.popUsed, pops]
    exact rest
  · rw [VirtqSystem.popUsed, ← tracked.all, pending, ← Multiset.cons_coe, ← Multiset.singleton_add]
    abel
  · rw [VirtqSystem.popUsed, pops, tracked.submitted, pending, Option.toList_some, List.map_append,
      ← Multiset.coe_add]
    simp only [List.map_cons, List.map_nil, Multiset.coe_singleton]
    abel
  · rw [VirtqSystem.popUsed, pops, tracked.published]
    simp

theorem VirtqSystem.Tracked.fetch {after : VirtqSystem}
    (tracked : system.Tracked num chain waiting used)
    (fetched : system.fetch = some after) : ∃ rest, after.Tracked num chain rest used := by
  simp only [VirtqSystem.fetch, Option.ite_none_left_eq_some] at fetched
  obtain ⟨more, fetched⟩ := fetched
  obtain rfl := Option.some.inj fetched
  cases waiting with
  | nil => exact absurd tracked.availRing more
  | cons head rest =>
      obtain ⟨first, tail⟩ := tracked.availRing
      have pending : pendingHeads rest (system.vq.avail.ring
          (Ring.slot system.vq.num.toNat system.device.seen) :: system.device.owned) used =
          pendingHeads (head :: rest) system.device.owned used := by
        rw [tracked.size, first]
        simp only [pendingHeads, List.map_cons, ← Multiset.cons_coe, ← Multiset.singleton_add]
        abel
      refine ⟨rest, tracked.size, tracked.free, tail, tracked.usedRing, ?_, ?_, tracked.published⟩
      · exact (congrArg _ pending).trans tracked.all
      · exact tracked.submitted.trans (congrArg _ pending.symm)

theorem VirtqSystem.Tracked.publish {after : VirtqSystem} {head : BitVec 16} {len : BitVec 32}
    (divides : num ∣ 2 ^ 16) (tracked : system.Tracked num chain waiting used)
    (published : system.publish head len = some after) :
    after.Tracked num chain waiting (used ++ [⟨head.setWidth 32, len⟩]) := by
  simp only [VirtqSystem.publish, Option.ite_none_right_eq_some] at published
  obtain ⟨owned, published⟩ := published
  obtain rfl := Option.some.inj published
  have room : used.length < num := by
    have lengths := tracked.lengths
    have held := List.length_pos_of_mem owned
    omega
  have same : (head.setWidth 32).toNat = head.toNat := by
    have bound := head.isLt
    rw [BitVec.toNat_setWidth]
    omega
  have pending : pendingHeads waiting (system.device.owned.erase head)
      (used ++ [⟨head.setWidth 32, len⟩]) = pendingHeads waiting system.device.owned used := by
    have split : (system.device.owned.map BitVec.toNat : Multiset Nat) =
        {head.toNat} + (system.device.owned.erase head).map BitVec.toNat := by
      rw [Multiset.singleton_add, Multiset.cons_coe, ← List.map_cons]
      exact Multiset.coe_eq_coe.mpr ((List.perm_cons_erase owned).map _)
    simp only [pendingHeads, split, List.map_append, List.map_cons, List.map_nil,
      VirtqUsedElem.head, same, ← Multiset.coe_add, Multiset.coe_singleton]
    abel
  refine ⟨tracked.size, tracked.free, tracked.availRing, ?_, ?_, ?_, ?_⟩
  · simp only [tracked.size]
    exact tracked.usedRing.push divides room _
  · exact (congrArg _ pending).trans tracked.all
  · exact tracked.submitted.trans (congrArg _ pending.symm)
  · simp [tracked.published]

/-- The links from `first` on lead through the `left` descriptors that remain. -/
theorem descFreeList_thread {desc : Nat → VirtqDesc} (small : num ≤ virtqSize) (left first : Nat)
    (ends : first + left = num) :
    Threaded.Thread descLinks (fun head => descIndex (descFreeList num desc head).next)
      (if left = 0 then none else some first) (List.range' first left) := by
  induction left generalizing first with
  | zero => rfl
  | succ left ih =>
      have next : descIndex (descFreeList num desc first).next =
          if left = 0 then none else some (first + 1) := by
        by_cases last : left = 0
        · obtain rfl : first = num - 1 := by omega
          simp [descFreeList, descIndex, last]
        · have inner : first ≠ num - 1 := by omega
          have below : first < num := by omega
          have fits : (BitVec.ofNat 16 (first + 1)).toNat = first + 1 := by
            rw [BitVec.toNat_ofNat, Nat.mod_eq_of_lt (by simp only [virtqSize] at small; omega)]
          have proper : BitVec.ofNat 16 (first + 1) ≠ 0xFFFF := by
            intro stop
            rw [stop] at fits
            simp [virtqSize] at small fits
            omega
          rw [descFreeList, Function.update_of_ne inner, if_pos below, if_neg last, descIndex,
            if_neg proper, fits]
      rw [List.range'_succ]
      refine ⟨rfl, ?_⟩
      simp only [next]
      exact ih (first + 1) (by omega)

theorem virtqInit_tracked (layout : VirtqLayout) (desc : Nat → VirtqDesc) (avail : VirtqAvail)
    (used : VirtqUsed) (positive : 0 < num) (small : num ≤ virtqSize) :
    (VirtqSystem.boot (virtqInit layout num desc avail used)).Tracked num (List.range num) [] [] := by
  refine ⟨?_, ?_, rfl, rfl, add_zero _, rfl, rfl⟩
  · rw [VirtqSystem.boot, virtqInit, BitVec.toNat_ofNat]
    exact Nat.mod_eq_of_lt (small.trans_lt (by decide))
  · have thread := @descFreeList_thread num desc small num 0 (Nat.zero_add num)
    rw [if_neg positive.ne', ← List.range_eq_range'] at thread
    exact thread

theorem virtqSetup_init {pagesAlloc : Nat → Option Nat} {desc : Nat → VirtqDesc}
    {avail : VirtqAvail} {used : VirtqUsed} {version : BitVec 32} {size maxSize : Nat} {vq : Virtq}
    (setup : virtqSetup pagesAlloc desc avail used version size maxSize = some vq) :
    ∃ layout, vq = virtqInit layout (queueSize size maxSize) desc avail used := by
  simp only [virtqSetup, virtqSetupLegacy, virtqSetupModern] at setup
  split at setup
  all_goals
    simp only [Option.ite_none_left_eq_some, Option.map_eq_some_iff] at setup
    obtain ⟨_, addr, _, rfl⟩ := setup
    exact ⟨_, rfl⟩

/-- The table and the rings lie one after the other in the pages from `addr` on. -/
structure VirtqLayout.Fits (layout : VirtqLayout) (size addr : Nat) : Prop where
  desc : layout.desc = addr
  avail : layout.desc + size * 16 ≤ layout.avail
  used : layout.avail + (4 + size * 2) ≤ layout.used
  pages : layout.used + (4 + size * 8) ≤ addr + layout.pages * pageSize

theorem legacyLayout_fits (size addr : Nat) : (legacyLayout size addr).Fits size addr := by
  constructor <;> simp only [legacyLayout, legacyPages, alignUp, pageSize] <;> omega

theorem modernLayout_fits {size : Nat} (small : size ≤ virtqSize) (addr : Nat) :
    (modernLayout size addr).Fits size addr := by
  constructor <;> simp only [modernLayout, alignUp, pageSize, virtqSize] at small ⊢ <;> omega

/-- The three parts of a queue do not overlap, so the model keeps them apart. -/
theorem virtqSetup_fits {pagesAlloc : Nat → Option Nat} {desc : Nat → VirtqDesc}
    {avail : VirtqAvail} {used : VirtqUsed} {version : BitVec 32} {size maxSize : Nat} {vq : Virtq}
    (setup : virtqSetup pagesAlloc desc avail used version size maxSize = some vq)
    (small : queueSize size maxSize ≤ virtqSize) :
    ∃ addr, pagesAlloc vq.layout.pages = some addr ∧
      vq.layout.Fits (queueSize size maxSize) addr := by
  simp only [virtqSetup, virtqSetupLegacy, virtqSetupModern] at setup
  split at setup
  · simp only [Option.ite_none_left_eq_some, Option.map_eq_some_iff] at setup
    obtain ⟨_, addr, allocated, rfl⟩ := setup
    exact ⟨addr, allocated, legacyLayout_fits _ _⟩
  · simp only [Option.ite_none_left_eq_some, Option.map_eq_some_iff] at setup
    obtain ⟨_, addr, allocated, rfl⟩ := setup
    exact ⟨addr, allocated, modernLayout_fits small _⟩

theorem VirtqSystem.Tracked.step {action : VirtqAction} {after : VirtqSystem}
    (divides : num ∣ 2 ^ 16) (small : num ≤ virtqSize)
    (tracked : system.Tracked num chain waiting used) (stepped : system.step action = some after) :
    after.Sound num ∧ system.StepConserves num action after := by
  cases action with
  | pushBuf buf len flags =>
      obtain rfl := Option.some.inj stepped
      cases chain with
      | nil =>
          rw [tracked.free_nil buf len flags]
          refine ⟨⟨[], waiting, used, tracked⟩, .inl ⟨fun head below => ?_, rfl⟩, fun _ _ => rfl⟩
          exact (tracked.inFlight head).mpr
            (((tracked.mem head).mpr below).resolve_left List.not_mem_nil)
      | cons head chain =>
          obtain ⟨next, submitted⟩ := tracked.pushBuf divides buf len flags
          have rests : ¬system.InFlight head := by
            rw [tracked.inFlight]
            exact Multiset.disjoint_left.mp (Multiset.nodup_add.mp tracked.nodup).2.2
              List.mem_cons_self
          refine ⟨⟨_, _, _, next⟩, .inr ⟨head, ?_, rests, submitted⟩, fun place below => ?_⟩
          · exact (tracked.mem head).mp (.inl List.mem_cons_self)
          · have room := tracked.room
            have length := tracked.availRing.length_eq (by simp only [virtqSize] at small; omega)
            have apart := tracked.availRing.slot_ne divides room (length ▸ below)
            simp only [VirtqSystem.pushBuf, virtqPushBuf_free tracked.free, tracked.size]
            exact Function.update_of_ne apart _ _
  | popUsed =>
      obtain rfl := Option.some.inj stepped
      cases used with
      | nil =>
          have all : system.published = system.popped :=
            tracked.published.trans (List.append_nil _)
          rw [tracked.popUsed_nil small]
          exact ⟨⟨chain, waiting, [], tracked⟩, .inl ⟨all, rfl⟩⟩
      | cons elem used =>
          obtain ⟨returned, next⟩ := tracked.popUsed small
          refine ⟨⟨_, _, _, next⟩, .inr ⟨elem, used, tracked.published, ?_⟩⟩
          rw [VirtqSystem.popUsed, returned]
          rfl
  | fetch =>
      obtain ⟨rest, next⟩ := tracked.fetch stepped
      exact ⟨⟨_, _, _, next⟩, trivial⟩
  | publish head len => exact ⟨⟨_, _, _, tracked.publish divides stepped⟩, trivial⟩

theorem queueSize_divides {order : Nat} (power : num = 2 ^ order) (small : num ≤ virtqSize) :
    num ∣ 2 ^ 16 := by
  refine power ▸ Nat.pow_dvd_pow 2 ((Nat.pow_le_pow_iff_right (Nat.lt_succ_self 1)).mp ?_)
  exact (power ▸ small).trans (by decide)

end DragoonKernel
