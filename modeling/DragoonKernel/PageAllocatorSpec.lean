import DragoonKernel.PageAllocatorCore

/-! What each operation of the page allocator does to the bitmap, the counter and memory. -/

namespace DragoonKernel

def Mm.isUsed (mm : Mm) (index : Nat) : Bool := Bitmap.test mm.pageBitmap index

def Mm.usedCount (mm : Mm) : Nat :=
  ((Finset.range maxPages).filter fun index => mm.isUsed index = true).card

theorem pageAddress_eq (index : Nat) : pageAddress index = 0x40000000 + index * 4096 := by
  rfl

theorem maxPages_eq : maxPages = 32768 := by
  rfl

@[simp] theorem pageAddress_div (index : Nat) :
    pageAddress index / pageSize = ramFrame + index := by
  simp only [pageAddress_eq, pageSize, ramFrame, ramBase]
  omega

theorem pageAddress_inj {first second : Nat} (same : pageAddress first = pageAddress second) :
    first = second := by
  simp only [pageAddress_eq] at same
  omega

@[simp] theorem markPages_pageBitmap (mm : Mm) (start count : Nat) :
    (mm.markPages start count).pageBitmap = Bitmap.setRange mm.pageBitmap start count := by
  induction count with
  | zero => rfl
  | succ count ih => simp [Mm.markPages, Bitmap.setRange, ih]

@[simp] theorem markPages_usedPages (mm : Mm) (start count : Nat) :
    (mm.markPages start count).usedPages = mm.usedPages + BitVec.ofNat 64 count := by
  induction count with
  | zero => simp [Mm.markPages]
  | succ count ih =>
      simp only [Mm.markPages, ih, BitVec.ofNat_add]
      rw [BitVec.add_assoc]
      rfl

@[simp] theorem markPages_memory (mm : Mm) (start count : Nat) :
    (mm.markPages start count).memory = mm.memory := by
  induction count with
  | zero => rfl
  | succ count ih => simp [Mm.markPages, ih]

@[simp] theorem markPages_totalPages (mm : Mm) (start count : Nat) :
    (mm.markPages start count).totalPages = mm.totalPages := by
  induction count with
  | zero => rfl
  | succ count ih => simp [Mm.markPages, ih]

@[simp] theorem take_isUsed (mm : Mm) (start pages query : Nat) :
    (mm.take start pages).isUsed query =
      (decide (start ≤ query ∧ query < start + pages) || mm.isUsed query) := by
  simp [Mm.isUsed, Mm.take]

@[simp] theorem take_usedPages (mm : Mm) (start pages : Nat) :
    (mm.take start pages).usedPages = mm.usedPages + BitVec.ofNat 64 pages := by
  simp [Mm.take]

theorem take_memory (mm : Mm) (start pages frame : Nat) :
    (mm.take start pages).memory frame =
      if ramFrame + start ≤ frame ∧ frame < ramFrame + start + pages then fun _ => 0
      else mm.memory frame := by
  simp [Mm.take, zeroPages]

theorem pageAlloc_some {mm after : Mm} {address : Nat}
    (allocated : mm.pageAlloc = (after, some address)) :
    ∃ index < maxPages, mm.isUsed index = false ∧ (∀ lower < index, mm.isUsed lower = true) ∧
      after = mm.take index 1 ∧ address = pageAddress index := by
  unfold Mm.pageAlloc at allocated
  split at allocated
  · rename_i index found
    simp only [Prod.mk.injEq, Option.some.injEq] at allocated
    simp only [List.find?_range_eq_some, Bool.not_eq_true', List.mem_range, Bool.not_not]
      at found
    exact ⟨index, found.2.1, found.1, found.2.2, allocated.1.symm, allocated.2.symm⟩
  · simp at allocated

theorem pageAlloc_none {mm after : Mm} (failed : mm.pageAlloc = (after, none)) :
    after = mm ∧ ∀ index < maxPages, mm.isUsed index = true := by
  unfold Mm.pageAlloc at failed
  split at failed
  · simp at failed
  · rename_i missing
    simp only [Prod.mk.injEq, and_true] at failed
    refine ⟨failed.symm, ?_⟩
    simpa [Mm.isUsed] using missing

/-- The invariant of the scan: the current run is free, ends at `index` and is short of `wanted`. -/
theorem scanRun_free {pageBitmap : Nat → Word} {wanted : Nat} :
    ∀ {fuel index runStart runLength start : Nat}, runLength < wanted →
      (runLength = 0 ∨ runStart + runLength = index) →
      (∀ bit, runStart ≤ bit → bit < runStart + runLength → Bitmap.test pageBitmap bit = false) →
      scanRun pageBitmap wanted fuel index runStart runLength = some start →
      start + wanted ≤ index + fuel ∧
        ∀ bit, start ≤ bit → bit < start + wanted → Bitmap.test pageBitmap bit = false := by
  intro fuel
  induction fuel with
  | zero =>
      intro index runStart runLength start _ _ _ found
      simp [scanRun] at found
  | succ fuel ih =>
      intro index runStart runLength start short ends free found
      simp only [scanRun] at found
      by_cases used : Bitmap.test pageBitmap index = true
      · simp only [used, if_true] at found
        have rest := ih (by omega) (Or.inl rfl) (by intro bit lower upper; omega) found
        exact ⟨by omega, rest.2⟩
      · simp only [used] at found
        have extended : ∀ bit, (if runLength = 0 then index else runStart) ≤ bit →
            bit < (if runLength = 0 then index else runStart) + (runLength + 1) →
            Bitmap.test pageBitmap bit = false := by
          intro bit lower upper
          by_cases last : bit = index
          · simpa [last] using used
          · split at lower <;> rename_i empty <;> simp only [empty, if_true, if_false] at upper
            · omega
            · exact free bit lower (by omega)
        by_cases complete : runLength + 1 = wanted
        · simp only [complete, if_true, Bool.false_eq_true, if_false, Option.some.injEq] at found
          subst start
          refine ⟨?_, by simpa [complete] using extended⟩
          split <;> omega
        · simp only [complete, Bool.false_eq_true, if_false] at found
          have rest := ih (by omega) (Or.inr (by split <;> omega)) extended found
          exact ⟨by omega, rest.2⟩

/-- A free run that the scan has not passed is found, or one that starts before it. -/
theorem scanRun_first {pageBitmap : Nat → Word} {wanted first : Nat}
    (free : ∀ bit, first ≤ bit → bit < first + wanted → Bitmap.test pageBitmap bit = false) :
    ∀ {fuel index runStart runLength : Nat}, runLength < wanted →
      (runLength = 0 ∨ runStart + runLength = index) → index ≤ first + runLength →
      first + wanted ≤ index + fuel →
      ∃ start ≤ first, scanRun pageBitmap wanted fuel index runStart runLength = some start := by
  intro fuel
  induction fuel with
  | zero =>
      intro index runStart runLength short _ reached room
      omega
  | succ fuel ih =>
      intro index runStart runLength short ends reached room
      simp only [scanRun]
      by_cases used : Bitmap.test pageBitmap index = true
      · have before : index < first := by
          by_contra inside
          rw [free index (by omega) (by omega)] at used
          cases used
        rw [if_pos used]
        exact ih (by omega) (Or.inl rfl) (by omega) (by omega)
      · rw [if_neg used]
        by_cases complete : runLength + 1 = wanted
        · rw [if_pos complete]
          refine ⟨_, ?_, rfl⟩
          split <;> omega
        · rw [if_neg complete]
          exact ih (by omega) (Or.inr (by split <;> omega)) (by omega) (by omega)

theorem pagesAlloc_some {mm after : Mm} {pages address : Nat}
    (allocated : mm.pagesAlloc pages = (after, some address)) :
    ∃ start, 0 < pages ∧ start + pages ≤ maxPages ∧
      (∀ index, start ≤ index → index < start + pages → mm.isUsed index = false) ∧
      after = mm.take start pages ∧ address = pageAddress start := by
  unfold Mm.pagesAlloc at allocated
  split at allocated
  · simp at allocated
  · rename_i sizes
    split at allocated
    · rename_i start found
      simp only [Prod.mk.injEq, Option.some.injEq] at allocated
      have free := scanRun_free (by omega) (Or.inl rfl) (by intro bit lower upper; omega) found
      exact ⟨start, by omega, by omega, free.2, allocated.1.symm, allocated.2.symm⟩
    · simp at allocated

theorem pagesAlloc_none {mm after : Mm} {pages : Nat}
    (failed : mm.pagesAlloc pages = (after, none)) : after = mm := by
  unfold Mm.pagesAlloc at failed
  split at failed
  · simpa using failed.symm
  · split at failed
    · simp at failed
    · simpa using failed.symm

theorem pagesAlloc_first {mm : Mm} {pages first : Nat} (positive : 0 < pages)
    (inside : first + pages ≤ maxPages)
    (free : ∀ index, first ≤ index → index < first + pages → mm.isUsed index = false) :
    ∃ start ≤ first, mm.pagesAlloc pages = (mm.take start pages, some (pageAddress start)) := by
  obtain ⟨start, before, found⟩ : ∃ start ≤ first,
      scanRun mm.pageBitmap pages maxPages 0 0 0 = some start :=
    scanRun_first free positive (Or.inl rfl) (by omega) (by omega)
  refine ⟨start, before, ?_⟩
  rw [Mm.pagesAlloc, if_neg (by omega), found]

def Mm.release (mm : Mm) (index : Nat) : Mm :=
  { mm with
    pageBitmap := Bitmap.clear mm.pageBitmap index
    usedPages := mm.usedPages - 1 }

@[simp] theorem release_isUsed (mm : Mm) (index query : Nat) :
    (mm.release index).isUsed query = (!decide (query = index) && mm.isUsed query) := by
  simp [Mm.isUsed, Mm.release]

theorem pageFree_pageAddress (mm : Mm) {index : Nat} (bound : index < maxPages) :
    mm.pageFree (pageAddress index) = if mm.isUsed index then mm.release index else mm := by
  have inside : ¬(pageAddress index < ramBase ∨ ramBase + ramSize ≤ pageAddress index) := by
    simp only [pageAddress_eq, ramBase, ramSize, maxPages_eq] at bound ⊢
    omega
  have position : (pageAddress index - ramBase) / pageSize = index := by
    simp only [pageAddress_eq, ramBase, pageSize]
    omega
  simp only [Mm.pageFree, inside, if_false, position]
  rfl

theorem pageFree_isUsed (mm : Mm) {index : Nat} (bound : index < maxPages) (query : Nat) :
    (mm.pageFree (pageAddress index)).isUsed query =
      (!decide (query = index) && mm.isUsed query) := by
  rw [pageFree_pageAddress mm bound]
  split
  next => exact release_isUsed mm index query
  next unused =>
    by_cases here : query = index
    · subst here
      simpa using unused
    · simp [here]

@[simp] theorem pageFree_memory (mm : Mm) (address : Nat) :
    (mm.pageFree address).memory = mm.memory := by
  simp only [Mm.pageFree]
  split_ifs <;> rfl

theorem pagesFree_succ (mm : Mm) (address pages : Nat) :
    mm.pagesFree address (pages + 1) =
      (mm.pagesFree address pages).pageFree ((address + pages * pageSize) % 2 ^ 64) := by
  by_cases inside : ramBase ≤ (address + pages * pageSize) % 2 ^ 64 ∧
      (address + pages * pageSize) % 2 ^ 64 < ramBase + ramSize
  · have kept : ¬((address + pages * pageSize) % 2 ^ 64 < ramBase ∨
        ramBase + ramSize ≤ (address + pages * pageSize) % 2 ^ 64) := by omega
    rw [Mm.pagesFree, Mm.pageFree, if_pos inside, if_neg kept]
  · have skipped : (address + pages * pageSize) % 2 ^ 64 < ramBase ∨
        ramBase + ramSize ≤ (address + pages * pageSize) % 2 ^ 64 := by omega
    rw [Mm.pagesFree, Mm.pageFree, if_neg inside, if_pos skipped]

@[simp] theorem pagesFree_memory (mm : Mm) (address pages : Nat) :
    (mm.pagesFree address pages).memory = mm.memory := by
  induction pages with
  | zero => rfl
  | succ pages ih => rw [pagesFree_succ, pageFree_memory, ih]

theorem pagesFree_step (mm : Mm) {start pages : Nat} (bound : start + pages < maxPages) :
    mm.pagesFree (pageAddress start) (pages + 1) =
      (mm.pagesFree (pageAddress start) pages).pageFree (pageAddress (start + pages)) := by
  have address : (pageAddress start + pages * pageSize) % 2 ^ 64 = pageAddress (start + pages) := by
    simp only [pageAddress_eq, pageSize, maxPages_eq] at bound ⊢
    omega
  rw [pagesFree_succ, address]

theorem pagesFree_run (mm : Mm) (start pages : Nat) (bound : start + pages ≤ maxPages)
    (used : ∀ index, start ≤ index → index < start + pages → mm.isUsed index = true) :
    (∀ query, (mm.pagesFree (pageAddress start) pages).isUsed query =
      (!decide (start ≤ query ∧ query < start + pages) && mm.isUsed query)) ∧
    (mm.pagesFree (pageAddress start) pages).usedPages =
      mm.usedPages - BitVec.ofNat 64 pages := by
  induction pages with
  | zero =>
      refine ⟨fun query => ?_, by simp [Mm.pagesFree]⟩
      have outside : ¬(start ≤ query ∧ query < start + 0) := by omega
      simp only [Mm.pagesFree, outside, decide_false, Bool.not_false, Bool.true_and]
  | succ pages ih =>
      obtain ⟨bits, counter⟩ := ih (by omega) (fun index lower upper => used index lower (by omega))
      have last : (mm.pagesFree (pageAddress start) pages).isUsed (start + pages) = true := by
        rw [bits, used (start + pages) (by omega) (by omega)]
        simp
      rw [pagesFree_step mm (by omega), pageFree_pageAddress _ (by omega), last, if_pos rfl]
      constructor
      · intro query
        rw [release_isUsed, bits, ← Bool.and_assoc]
        congr 1
        rw [← Bool.not_or, ← Bool.decide_or]
        congr 1
        apply decide_eq_decide.mpr
        omega
      · simp only [Mm.release, counter, BitVec.ofNat_add]
        rw [BitVec.sub_sub]
        rfl

theorem mmInit_isUsed (stackTop : Nat) (memory : Memory) (index : Nat) :
    (mmInit stackTop memory).isUsed index = decide (index < kernelPages stackTop) := by
  simp [mmInit, Mm.isUsed, Bitmap.test_empty]

theorem mmInit_usedPages (stackTop : Nat) (memory : Memory) :
    (mmInit stackTop memory).usedPages = BitVec.ofNat 64 (kernelPages stackTop) := by
  simp [mmInit]

theorem KernelImage.kernelPages_le (image : KernelImage) : kernelPages image.stackTop ≤ maxPages := by
  have inside := image.inside
  simp only [kernelPages, alignUp, ramBase, ramSize, pageSize, maxPages_eq] at inside ⊢
  omega

theorem Mm.ext_isUsed {first second : Mm}
    (bits : ∀ index, first.isUsed index = second.isUsed index) :
    first.pageBitmap = second.pageBitmap :=
  Bitmap.ext_test bits

end DragoonKernel
