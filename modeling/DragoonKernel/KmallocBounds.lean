import Mathlib.Data.Set.Basic
import DragoonKernel.KmallocSafety

/-!
The blocks that `kmalloc` hands out over every history of its calls: each lies in one page
that `page_alloc` has returned to the heap, unless rounding up the size wraps.
-/

namespace DragoonKernel

/-- The heap with the pages that `page_alloc` has returned to it. -/
structure HeapHistory where
  heap : Heap
  pages : Set Nat

/-- `allocator` is whatever others do with the page allocator and with memory. -/
inductive HeapEvent where
  | kmalloc (size : Word) (flags : BitVec 32)
  | allocator (mm : Mm)

def HeapHistory.boot (mm : Mm) : HeapHistory := ⟨.boot mm, ∅⟩

def HeapHistory.kmalloc (history : HeapHistory) (size : Word) (flags : BitVec 32) : HeapHistory where
  heap := (history.heap.kmalloc size.toNat flags).1
  pages := history.pages ∪
    {page | history.heap.mm.pageAlloc = ((history.heap.kmalloc size.toNat flags).1.mm, some page)}

def HeapHistory.event (history : HeapHistory) : HeapEvent → HeapHistory
  | .kmalloc size flags => history.kmalloc size flags
  | .allocator mm => { history with heap := { history.heap with mm := mm } }

def byteAt (memory : Memory) (address : Nat) : BitVec 8 :=
  (memory (address / pageSize) ⟨address % pageSize / 8, by unfold pageSize; omega⟩ >>>
    (8 * (address % 8))).setWidth 8

structure BlockInPage (pages : Set Nat) (size address : Nat) : Prop where
  positive : 0 < size
  aligned : address % 16 = 0
  inside : ∃ index < maxPages, pageAddress index ∈ pages ∧ pageAddress index ≤ address ∧
    address + size ≤ pageAddress index + pageSize

/-- The bytes of the block are zero, and all others as they were. -/
structure ZeroedBlock (before after : Memory) (size address : Nat) : Prop where
  zero : ∀ byte, address ≤ byte → byte < address + size → byteAt after byte = 0
  others : ∀ byte < 2 ^ 64, ¬(address ≤ byte ∧ byte < address + size) →
    byteAt after byte = byteAt before byte

/-- What a caller of `kmalloc` and `kzalloc` relies on. `kzalloc` is compared with the memory
that its `kmalloc` leaves. -/
structure HeapHistory.Serves (history : HeapHistory) (size : Word) (flags : BitVec 32) : Prop where
  kmalloc : ∀ address, (history.heap.kmalloc size.toNat flags).2 = some address →
    BlockInPage (history.kmalloc size flags).pages size.toNat address
  kzalloc : ∀ address, (history.heap.kzalloc size.toNat flags).2 = some address →
    (history.heap.kmalloc size.toNat flags).2 = some address ∧
    ZeroedBlock (history.heap.kmalloc size.toNat flags).1.mm.memory
      (history.heap.kzalloc size.toNat flags).1.mm.memory size.toNat address

/-- The slab page is one of the heap's, and the cursor keeps the alignment. -/
structure HeapHistory.Kept (history : HeapHistory) : Prop where
  pages : ∀ page ∈ history.pages, ∃ index < maxPages, page = pageAddress index
  slab : history.heap.slabPage ≠ 0 → history.heap.slabPage ∈ history.pages
  cursor : history.heap.slabOffset % 16 = 0

theorem mask_getLsbD (byte : Nat) {bit : Nat} (bound : bit < 64) :
    ((0xFF : Word) <<< (8 * byte)).getLsbD bit = decide (bit / 8 = byte) := by
  have ones : ∀ index, (0xFF : Word).getLsbD index = (decide (index < 64) && decide (index < 8)) := by
    intro index
    rw [show (0xFF : Word) = BitVec.ofNat 64 (2 ^ 8 - 1) from rfl, BitVec.getLsbD_ofNat,
      Nat.testBit_two_pow_sub_one]
  rw [BitVec.getLsbD_shiftLeft, ones, Bool.eq_iff_iff]
  simp only [Bool.and_eq_true, Bool.not_eq_true', decide_eq_true_eq, decide_eq_false_iff_not]
  omega

theorem clearByte_getLsbD (word : Word) (clears : Bool) (byte : Nat) {bit : Nat} (bound : bit < 64) :
    (if clears then word &&& ~~~((0xFF : Word) <<< (8 * byte)) else word).getLsbD bit =
      (word.getLsbD bit && !(clears && decide (bit / 8 = byte))) := by
  cases clears with
  | false => simp
  | true =>
      rw [if_pos rfl, BitVec.getLsbD_and, BitVec.getLsbD_not, mask_getLsbD byte bound,
        decide_eq_true bound, Bool.true_and, Bool.true_and]

theorem clearBytes_getLsbD (word : Word) (cleared : Nat → Bool) {bit : Nat} (bound : bit < 64) :
    (clearBytes word cleared).getLsbD bit = (word.getLsbD bit && !cleared (bit / 8)) := by
  have processed : ∀ (bytes : List Nat) (word : Word),
      (bytes.foldl (fun word byte =>
        if cleared byte then word &&& ~~~((0xFF : Word) <<< (8 * byte)) else word) word).getLsbD bit =
      (word.getLsbD bit && !(cleared (bit / 8) && decide (bit / 8 ∈ bytes))) := by
    intro bytes
    induction bytes with
    | nil => simp
    | cons byte rest ih =>
        intro word
        rw [List.foldl_cons, ih, clearByte_getLsbD word (cleared byte) byte bound]
        by_cases here : bit / 8 = byte
        · subst here
          cases cleared (bit / 8) <;> simp
        · simp [here]
  have member : bit / 8 ∈ List.range 8 := List.mem_range.mpr (by omega)
  rw [clearBytes, processed, decide_eq_true member, Bool.and_true]

theorem byteAt_zeroBytes (memory : Memory) (address size byte : Nat) :
    byteAt (zeroBytes memory address size) byte =
      if (byte + 2 ^ 64 - address) % 2 ^ 64 < size then 0 else byteAt memory byte := by
  refine BitVec.eq_of_getLsbD_eq fun bit bound => ?_
  have place : byte / pageSize * pageSize + byte % pageSize / 8 * 8 + byte % 8 = byte := by
    unfold pageSize
    omega
  have whole : (8 * (byte % 8) + bit) / 8 = byte % 8 := by omega
  by_cases clears : (byte + 2 ^ 64 - address) % 2 ^ 64 < size
  · rw [if_pos clears, byteAt, BitVec.getLsbD_setWidth, BitVec.getLsbD_ushiftRight, zeroBytes,
      clearBytes_getLsbD _ _ (by omega), whole, place, decide_eq_true clears]
    simp
  · rw [if_neg clears, byteAt, byteAt, BitVec.getLsbD_setWidth, BitVec.getLsbD_ushiftRight,
      zeroBytes, clearBytes_getLsbD _ _ (by omega), whole, place, decide_eq_false clears,
      BitVec.getLsbD_setWidth, BitVec.getLsbD_ushiftRight]
    simp

theorem zeroBytes_zeroedBlock (memory : Memory) {address size : Nat}
    (fits : address + size ≤ 2 ^ 64) :
    ZeroedBlock memory (zeroBytes memory address size) size address := by
  refine ⟨fun byte lower upper => ?_, fun byte bound outside => ?_⟩
  · rw [byteAt_zeroBytes, if_pos (by omega)]
  · rw [byteAt_zeroBytes, if_neg (by omega)]

variable {history : HeapHistory}

/-- A call that changes the allocator returns what `page_alloc` does. -/
theorem kmalloc_mm (heap : Heap) (size : Nat) (flags : BitVec 32) :
    (heap.kmalloc size flags).1.mm = heap.mm ∨
      heap.mm.pageAlloc = ((heap.kmalloc size flags).1.mm, (heap.kmalloc size flags).2) := by
  unfold Heap.kmalloc
  split
  next => exact Or.inl rfl
  next =>
    split
    next =>
      simp only
      split
      next =>
        split
        next failed => exact Or.inr failed
        next allocated => exact Or.inr allocated
      next => exact Or.inl rfl
    next =>
      simp only
      split
      next => exact Or.inl rfl
      next =>
        rcases heap.mm.pageAlloc with ⟨mm, page⟩
        exact Or.inr rfl

theorem HeapHistory.page_mem {size : Word} {flags : BitVec 32} {index : Nat}
    (free : history.heap.mm.isUsed index = false)
    (marked : (history.heap.kmalloc size.toNat flags).1.mm.isUsed index = true)
    (returned : (history.heap.kmalloc size.toNat flags).2 = some (pageAddress index)) :
    pageAddress index ∈ (history.kmalloc size flags).pages := by
  rcases kmalloc_mm history.heap size.toNat flags with same | allocated
  · rw [same, free] at marked
    cases marked
  · rw [returned] at allocated
    exact Or.inr allocated

theorem HeapHistory.Kept.pages_kmalloc (kept : history.Kept) (size : Word) (flags : BitVec 32) :
    ∀ page ∈ (history.kmalloc size flags).pages, ∃ index < maxPages, page = pageAddress index := by
  rintro page (before | allocated)
  · exact kept.pages page before
  · obtain ⟨index, bound, _, _, _, same⟩ := pageAlloc_some allocated
    exact ⟨index, bound, same⟩

theorem granted_mod (size : Nat) : granted size % 16 = 0 := by
  unfold granted alignUp pageSize
  split <;> omega

theorem HeapHistory.Kept.kmalloc (kept : history.Kept) (size : Word) (flags : BitVec 32) :
    (history.kmalloc size flags).Kept := by
  have aligned := granted_mod size.toNat
  have outcome := kmalloc_outcome history.heap size.isLt flags
  refine ⟨kept.pages_kmalloc size flags, ?_, ?_⟩
  · have member := @HeapHistory.page_mem history size flags
    simp only [HeapHistory.kmalloc] at member ⊢
    generalize history.heap.kmalloc size.toNat flags = result at outcome member ⊢
    cases outcome with
    | null => exact fun present => Or.inl (kept.slab present)
    | slab => exact fun present => Or.inl (kept.slab present)
    | page index unfit positive bound free fits =>
        have obtained := member free (by simp) rfl
        intro present
        simp only at present ⊢
        split
        next small => exact obtained
        next large =>
          rw [if_neg large] at present
          exact Or.inl (kept.slab present)
  · simp only [HeapHistory.kmalloc]
    generalize history.heap.kmalloc size.toNat flags = result at outcome ⊢
    have cursor := kept.cursor
    cases outcome with
    | null => exact cursor
    | slab => simp only; omega
    | page index =>
        simp only
        split
        next => exact aligned
        next => exact cursor

theorem HeapHistory.Kept.run (kept : history.Kept) (events : List HeapEvent) :
    (events.foldl HeapHistory.event history).Kept := by
  induction events generalizing history with
  | nil => exact kept
  | cons event rest ih =>
      cases event with
      | kmalloc size flags => exact ih (kept.kmalloc size flags)
      | allocator mm => exact ih ⟨kept.pages, kept.slab, kept.cursor⟩

theorem heapBoot_kept (mm : Mm) : (HeapHistory.boot mm).Kept :=
  ⟨fun _ none => absurd none (Set.notMem_empty _), fun present => absurd rfl present, rfl⟩

theorem kzalloc_cases (heap : Heap) (size : Nat) (flags : BitVec 32) :
    (heap.kzalloc size flags).2 = (heap.kmalloc size flags).2 ∧
      ∀ address, (heap.kmalloc size flags).2 = some address →
        (heap.kzalloc size flags).1.mm.memory =
          zeroBytes (heap.kmalloc size flags).1.mm.memory address size := by
  unfold Heap.kzalloc
  rcases heap.kmalloc size flags with ⟨after, _ | address⟩
  · exact ⟨rfl, (fun address failed => by cases failed)⟩
  · refine ⟨rfl, fun other same => ?_⟩
    obtain rfl := Option.some.inj same
    rfl

/-- A request that is not rounded up past 2 ^ 64, or that finds no page. -/
def HeapHistory.Rounds (history : HeapHistory) (size : Word) : Prop :=
  size.toNat + (pageSize - 1) < 2 ^ 64 ∨
    ∀ index < maxPages, history.heap.mm.isUsed index = true

theorem HeapHistory.Kept.blockInPage (kept : history.Kept) {size : Word} {flags : BitVec 32}
    (rounds : history.Rounds size) {address : Nat}
    (served : (history.heap.kmalloc size.toNat flags).2 = some address) :
    BlockInPage (history.kmalloc size flags).pages size.toNat address := by
  have outcome := kmalloc_outcome history.heap size.isLt flags
  have member := @HeapHistory.page_mem history size flags
  have cursor := kept.cursor
  have earlier : history.pages ⊆ (history.kmalloc size flags).pages := Set.subset_union_left
  generalize history.heap.kmalloc size.toNat flags = result at outcome served member
  cases outcome with
  | null => cases served
  | slab fits =>
      obtain rfl := Option.some.inj served
      obtain ⟨positive, small, present, room⟩ := fits
      have obtained := kept.slab present
      obtain ⟨index, bound, page⟩ := kept.pages _ obtained
      rw [page] at obtained
      have enough : size.toNat ≤ alignUp size.toNat 16 := by
        unfold alignUp
        omega
      refine ⟨positive, ?_, index, bound, earlier obtained, by omega, by omega⟩
      rw [page, pageAddress_eq]
      omega
  | page index unfit positive bound free fits =>
      obtain rfl := Option.some.inj served
      have whole : size.toNat ≤ pageSize := by
        refine fits (rounds.resolve_right fun full => ?_)
        rw [full index bound] at free
        cases free
      refine ⟨positive, ?_, index, bound, member free (by simp) rfl, Nat.le_refl _, by omega⟩
      rw [pageAddress_eq]
      omega

theorem BlockInPage.upper {pages : Set Nat} {size address : Nat}
    (block : BlockInPage pages size address) : address + size ≤ 2 ^ 64 := by
  obtain ⟨index, bound, _, _, upper⟩ := block.inside
  simp only [pageAddress_eq, maxPages_eq, pageSize] at *
  omega

theorem HeapHistory.Kept.serves (kept : history.Kept) {size : Word} (flags : BitVec 32)
    (rounds : history.Rounds size) : history.Serves size flags := by
  refine ⟨fun address served => kept.blockInPage rounds served, fun address served => ?_⟩
  obtain ⟨same, memory⟩ := kzalloc_cases history.heap size.toNat flags
  rw [same] at served
  refine ⟨served, ?_⟩
  rw [memory address served]
  exact zeroBytes_zeroedBlock _ (kept.blockInPage rounds served).upper

/-- The rounded size wraps to no pages at all, and one page is handed out. -/
theorem HeapHistory.Serves.rounds {size : Word} {flags : BitVec 32}
    (serves : history.Serves size flags) : history.Rounds size := by
  by_contra wraps
  obtain ⟨large, free⟩ := not_or.mp wraps
  have block := serves.kmalloc
  have outcome := kmalloc_outcome history.heap size.isLt flags
  generalize history.heap.kmalloc size.toNat flags = result at outcome block
  cases outcome with
  | null unfit full => exact free (full (Nat.le_of_not_lt large))
  | slab fits =>
      have small := fits.2.1
      unfold pageSize at large
      omega
  | page index =>
      obtain ⟨other, bound, _, lower, upper⟩ := (block _ rfl).inside
      unfold pageSize at large upper
      omega

/-- After every sequence of calls, over any states of the allocator, the next call serves a
block inside one page of the heap, and `kzalloc` clears exactly that block, if and only if the
rounded size does not wrap or no page is free. -/
theorem kmalloc_bounded_iff (mm : Mm) (events : List HeapEvent) (size : Word)
    (flags : BitVec 32) :
    (events.foldl HeapHistory.event (.boot mm)).Serves size flags ↔
      (events.foldl HeapHistory.event (.boot mm)).Rounds size :=
  ⟨fun serves => serves.rounds, ((heapBoot_kept mm).run events).serves flags⟩

theorem kmalloc_underallocates :
    ¬∀ mm events size flags, (List.foldl HeapHistory.event (.boot mm) events).Serves size flags := by
  intro all
  rcases (all unusedHeap.heap.mm [] (-1) 0).rounds with small | full
  · exact absurd small (by decide)
  · exact absurd (full 0 (by decide)) (by decide)

end DragoonKernel
