import DragoonKernel.KmallocCore
import DragoonKernel.PageAllocatorSpec

/-! The outcomes of `kmalloc` and `kfree`. -/

namespace DragoonKernel

/-- Small blocks take multiples of 16 bytes, large ones full pages. -/
def granted (size : Nat) : Nat :=
  if size ≤ 2048 then alignUp size 16 else alignUp size pageSize

def Heap.FitsSlab (heap : Heap) (size : Nat) : Prop :=
  0 < size ∧ size ≤ 2048 ∧ heap.slabPage ≠ 0 ∧ heap.slabOffset + alignUp size 16 ≤ pageSize

theorem granted_small {size : Nat} (small : size ≤ 2048) : granted size = alignUp size 16 := by
  rw [granted, if_pos small]

theorem granted_bounds {size : Nat} (positive : 0 < size) :
    0 < granted size ∧ (2048 < size → pageSize ≤ granted size) ∧
      (size ≤ pageSize → granted size ≤ pageSize) := by
  unfold granted alignUp pageSize
  split <;> omega

inductive KmallocOutcome (heap : Heap) (size : Nat) : Heap × Option Nat → Prop where
  | null (unfit : ¬heap.FitsSlab size)
      (full : 2 ^ 64 ≤ size + (pageSize - 1) → ∀ index < maxPages, heap.mm.isUsed index = true) :
      KmallocOutcome heap size (heap, none)
  | slab (fits : heap.FitsSlab size) :
      KmallocOutcome heap size
        ({ heap with slabOffset := heap.slabOffset + granted size },
          some (heap.slabPage + heap.slabOffset))
  | page (index : Nat) (unfit : ¬heap.FitsSlab size) (positive : 0 < size) (bound : index < maxPages)
      (free : heap.mm.isUsed index = false)
      (fits : size + (pageSize - 1) < 2 ^ 64 → size ≤ pageSize) :
      KmallocOutcome heap size
        ({ mm := heap.mm.take index 1
           slabPage := if size ≤ 2048 then pageAddress index else heap.slabPage
           slabOffset := if size ≤ 2048 then granted size else heap.slabOffset },
          some (pageAddress index))

theorem kmalloc_outcome (heap : Heap) {size : Nat} (word : size < 2 ^ 64) (flags : BitVec 32) :
    KmallocOutcome heap size (heap.kmalloc size flags) := by
  unfold Heap.kmalloc
  by_cases empty : size = 0
  · rw [if_pos empty]
    refine .null (fun fits => ?_) (fun large => ?_)
    · exact absurd fits.1 (by omega)
    · simp only [pageSize] at large
      omega
  rw [if_neg empty]
  by_cases small : size ≤ 2048
  · rw [if_pos small]
    simp only
    split
    next missing =>
      have unfit : ¬heap.FitsSlab size := by
        rintro ⟨_, _, present, room⟩
        omega
      split
      next mm allocated =>
        obtain ⟨rfl, full⟩ := pageAlloc_none allocated
        exact .null unfit fun _ => full
      next mm page allocated =>
        obtain ⟨index, bound, free, _, rfl, rfl⟩ := pageAlloc_some allocated
        have outcome : KmallocOutcome heap size _ := .page index unfit (by omega) bound free
          fun _ => by simp only [pageSize]; omega
        simpa only [if_pos small, granted_small small] using outcome
    next room =>
      rw [← granted_small small]
      refine .slab ⟨by omega, small, ?_, ?_⟩ <;> omega
  · rw [if_neg small]
    have unfit : ¬heap.FitsSlab size := fun fits => small fits.2.1
    simp only
    split
    next many =>
      refine .null unfit fun wraps => ?_
      simp only [pageSize] at many wraps
      omega
    next single =>
      rcases allocated : heap.mm.pageAlloc with ⟨mm, _ | page⟩
      · obtain ⟨rfl, full⟩ := pageAlloc_none allocated
        exact .null unfit fun _ => full
      · obtain ⟨index, bound, free, _, rfl, rfl⟩ := pageAlloc_some allocated
        have outcome : KmallocOutcome heap size _ := .page index unfit (by omega) bound free
          fun fits => by simp only [pageSize] at single fits ⊢; omega
        simpa only [if_neg small] using outcome

theorem kfree_aligned {heap : Heap} {index : Nat} :
    heap.kfree (pageAddress index) =
      { heap with mm := heap.mm.pageFree (pageAddress index) } := by
  unfold Heap.kfree
  rw [if_neg (by rw [pageAddress_eq]; omega), if_pos]
  simp only [pageAddress_eq, pageSize]
  omega

end DragoonKernel
