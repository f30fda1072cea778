import DragoonKernel.PageAllocatorSpec

/-!
Page accounting after any calls, with arbitrary machine words as arguments, and the search of
`pages_alloc` as complete first fit.
-/

namespace DragoonKernel

inductive MmCall where
  | pageAlloc
  | pagesAlloc (pages : Word)
  | pageFree (address : Word)
  | pagesFree (address pages : Word)

def Mm.call (mm : Mm) : MmCall → Mm
  | .pageAlloc => mm.pageAlloc.1
  | .pagesAlloc pages => (mm.pagesAlloc pages.toNat).1
  | .pageFree address => mm.pageFree address.toNat
  | .pagesFree address pages => mm.pagesFree address.toNat pages.toNat

-- The matches below are on the result of `page_alloc`, which is not to be computed.
attribute [local irreducible] maxPages

/-- `count` calls of `page_alloc` in a row, all of which return a page. -/
def Mm.allocEach (mm : Mm) : Nat → Option Mm
  | 0 => some mm
  | count + 1 =>
      match mm.pageAlloc with
      | (after, some _) => after.allocEach count
      | (_, none) => none

structure Mm.Counted (mm : Mm) : Prop where
  total : mm.totalPages = BitVec.ofNat 64 maxPages
  used : mm.usedPages = BitVec.ofNat 64 mm.usedCount

theorem Mm.usedCount_eq (mm : Mm) :
    mm.usedCount = Bitmap.population mm.pageBitmap maxPages := rfl

theorem Mm.usedCount_le (mm : Mm) : mm.usedCount ≤ maxPages :=
  Bitmap.population_le mm.pageBitmap maxPages

theorem Mm.usedCount_full (mm : Mm) (all : ∀ index < maxPages, mm.isUsed index = true) :
    mm.usedCount = maxPages := by
  rw [mm.usedCount_eq]
  exact (Bitmap.population_eq_bound_iff mm.pageBitmap maxPages).mpr all

theorem mmInit_counted (image : KernelImage) (memory : Memory) :
    (mmInit image.stackTop memory).Counted := by
  have inside := image.kernelPages_le
  constructor
  · simp [mmInit]
  · have count : (mmInit image.stackTop memory).usedCount = kernelPages image.stackTop := by
      simp only [Mm.usedCount_eq, mmInit, markPages_pageBitmap]
      rw [Bitmap.population_setRange (by omega) (by simp [Bitmap.test_empty])]
      simp [Bitmap.population_empty]
    rw [count, mmInit_usedPages]

theorem take_usedCount {mm : Mm} {start pages : Nat} (inside : start + pages ≤ maxPages)
    (free : ∀ index, start ≤ index → index < start + pages → mm.isUsed index = false) :
    (mm.take start pages).usedCount = mm.usedCount + pages := by
  simp only [Mm.usedCount_eq, Mm.take, markPages_pageBitmap]
  exact Bitmap.population_setRange inside free

theorem release_usedCount {mm : Mm} {index : Nat} (inside : index < maxPages)
    (used : mm.isUsed index = true) : (mm.release index).usedCount + 1 = mm.usedCount :=
  Bitmap.population_clear inside used

theorem Mm.Counted.take {mm : Mm} (counted : mm.Counted) {start pages : Nat}
    (inside : start + pages ≤ maxPages)
    (free : ∀ index, start ≤ index → index < start + pages → mm.isUsed index = false) :
    (mm.take start pages).Counted ∧ (mm.take start pages).usedCount = mm.usedCount + pages := by
  have count := take_usedCount inside free
  refine ⟨⟨?_, ?_⟩, count⟩
  · simpa [Mm.take] using counted.total
  · rw [take_usedPages, count, counted.used, BitVec.ofNat_add]

theorem Mm.Counted.release {mm : Mm} (counted : mm.Counted) {index : Nat}
    (inside : index < maxPages) (used : mm.isUsed index = true) : (mm.release index).Counted := by
  have count := release_usedCount inside used
  constructor
  · exact counted.total
  · have before : mm.usedPages = BitVec.ofNat 64 (mm.release index).usedCount + 1 := by
      rw [counted.used, ← count, BitVec.ofNat_add]
      rfl
    change mm.usedPages - 1 = _
    rw [before, BitVec.add_sub_cancel]

theorem pageFree_cases (mm : Mm) (address : Nat) :
    mm.pageFree address = mm ∨ ∃ index < maxPages,
      mm.isUsed index = true ∧ mm.pageFree address = mm.release index := by
  unfold Mm.pageFree
  split
  · exact Or.inl rfl
  · rename_i inside
    by_cases used : mm.isUsed ((address - ramBase) / pageSize) = true
    · refine Or.inr ⟨_, ?_, used, if_pos used⟩
      simp only [ramBase, ramSize, pageSize, maxPages_eq] at inside ⊢
      omega
    · exact Or.inl (if_neg used)

theorem Mm.Counted.pageFree {mm : Mm} (counted : mm.Counted) (address : Nat) :
    (mm.pageFree address).Counted := by
  rcases pageFree_cases mm address with kept | ⟨index, inside, used, released⟩
  · rwa [kept]
  · rw [released]
    exact counted.release inside used

theorem Mm.Counted.pagesFree {mm : Mm} (counted : mm.Counted) (address pages : Nat) :
    (mm.pagesFree address pages).Counted := by
  induction pages with
  | zero => exact counted
  | succ pages ih =>
      rw [pagesFree_succ]
      exact ih.pageFree _

theorem Mm.Counted.pageAlloc {mm after : Mm} (counted : mm.Counted) {address : Nat}
    (allocated : mm.pageAlloc = (after, some address)) :
    after.Counted ∧ after.usedCount = mm.usedCount + 1 := by
  obtain ⟨index, bound, free, _, rfl, _⟩ := pageAlloc_some allocated
  apply counted.take (by omega)
  intro query lower upper
  have same : query = index := by omega
  rw [same]
  exact free

theorem Mm.Counted.call {mm : Mm} (counted : mm.Counted) (call : MmCall) :
    (mm.call call).Counted := by
  cases call with
  | pageAlloc =>
      rcases allocated : mm.pageAlloc with ⟨after, _ | address⟩
      · simpa [Mm.call, allocated, (pageAlloc_none allocated).1] using counted
      · simpa [Mm.call, allocated] using (counted.pageAlloc allocated).1
  | pagesAlloc pages =>
      rcases allocated : mm.pagesAlloc pages.toNat with ⟨after, _ | address⟩
      · simpa [Mm.call, allocated, pagesAlloc_none allocated] using counted
      · obtain ⟨start, _, inside, free, rfl, _⟩ := pagesAlloc_some allocated
        simpa [Mm.call, allocated] using (counted.take inside free).1
  | pageFree address => exact counted.pageFree _
  | pagesFree address pages => exact counted.pagesFree _ _

theorem Mm.Counted.run {mm : Mm} (counted : mm.Counted) (calls : List MmCall) :
    (calls.foldl Mm.call mm).Counted := by
  induction calls generalizing mm with
  | nil => exact counted
  | cons call rest ih => exact ih (counted.call call)

theorem Mm.Counted.toNat {mm : Mm} (counted : mm.Counted) :
    mm.usedPages.toNat = mm.usedCount ∧ mm.totalPages.toNat = maxPages := by
  have bound := mm.usedCount_le
  rw [maxPages_eq] at bound
  constructor
  · rw [counted.used, BitVec.toNat_ofNat, Nat.mod_eq_of_lt (by omega)]
  · rw [counted.total, BitVec.toNat_ofNat, maxPages_eq]

theorem Mm.Counted.getFreePages {mm : Mm} (counted : mm.Counted) :
    mm.usedPages ≤ mm.totalPages ∧
      mm.getFreePages.toNat = mm.totalPages.toNat - mm.usedPages.toNat := by
  obtain ⟨used, total⟩ := counted.toNat
  have below : mm.usedPages ≤ mm.totalPages := by
    rw [BitVec.le_def]
    exact used ▸ total ▸ mm.usedCount_le
  exact ⟨below, BitVec.toNat_sub_of_le below⟩

/-- One page after the other is handed out until no bit is clear. -/
theorem Mm.Counted.allocEach_isSome {mm : Mm} (counted : mm.Counted) (count : Nat) :
    (mm.allocEach count).isSome ↔ mm.usedCount + count ≤ maxPages := by
  induction count generalizing mm with
  | zero => exact ⟨fun _ => mm.usedCount_le, fun _ => rfl⟩
  | succ count ih =>
      rcases allocated : mm.pageAlloc with ⟨after, _ | address⟩
      · have full := mm.usedCount_full (pageAlloc_none allocated).2
        rw [Mm.allocEach, allocated]
        simp only [Option.isSome_none, Bool.false_eq_true, false_iff]
        omega
      · obtain ⟨next, counts⟩ := counted.pageAlloc allocated
        rw [Mm.allocEach, allocated]
        simp only
        rw [ih next, counts]
        omega

theorem pagesFree_eq_foldl (mm : Mm) (address : Word) (pages : Nat) :
    mm.pagesFree address.toNat pages =
      ((List.range pages).map fun index => address + BitVec.ofNat 64 (index * pageSize)).foldl
        (fun after page => after.pageFree page.toNat) mm := by
  induction pages with
  | zero => rfl
  | succ pages ih =>
      have page : (address + BitVec.ofNat 64 (pages * pageSize)).toNat =
          (address.toNat + pages * pageSize) % 2 ^ 64 := by
        simp
      rw [pagesFree_succ, ih, List.range_succ, List.map_append, List.foldl_append]
      simp only [List.map_cons, List.map_nil, List.foldl_cons, List.foldl_nil, page]

/-- The counter is the number of set bits after every sequence of calls; the free pages are
the pages that can still be allocated; and `pages_free` is `page_free` at each address. -/
theorem pageAccounting_exact (image : KernelImage) (memory : Memory) (calls : List MmCall) :
    let mm := calls.foldl Mm.call (mmInit image.stackTop memory)
    mm.usedPages.toNat = mm.usedCount ∧ mm.usedPages ≤ mm.totalPages ∧
    mm.getFreePages.toNat = mm.totalPages.toNat - mm.usedPages.toNat ∧
    (∀ count, (mm.allocEach count).isSome ↔ count ≤ mm.getFreePages.toNat) ∧
    ∀ address pages : Word, mm.pagesFree address.toNat pages.toNat =
      ((List.range pages.toNat).map fun index =>
        address + BitVec.ofNat 64 (index * pageSize)).foldl
          (fun after page => after.pageFree page.toNat) mm := by
  intro mm
  have counted : mm.Counted := (mmInit_counted image memory).run calls
  obtain ⟨used, total⟩ := counted.toNat
  obtain ⟨below, free⟩ := counted.getFreePages
  refine ⟨used, below, free, fun count => ?_, fun address pages => pagesFree_eq_foldl mm address _⟩
  have bound := mm.usedCount_le
  rw [counted.allocEach_isSome, free, used, total]
  omega

/-- `pages` consecutive free pages from bit `start` on. -/
structure Mm.FreeRun (mm : Mm) (start pages : Nat) : Prop where
  inside : start + pages ≤ maxPages
  free : ∀ index, start ≤ index → index < start + pages → mm.isUsed index = false

/-- `start` is the lowest free run, and its bits are those that become marked. -/
structure Mm.FirstFit (mm : Mm) (start pages : Nat) (after : Mm) : Prop where
  run : mm.FreeRun start pages
  lowest : ∀ other, mm.FreeRun other pages → start ≤ other
  marked : ∀ index, after.isUsed index =
    (decide (start ≤ index ∧ index < start + pages) || mm.isUsed index)
  counted : after.usedPages = mm.usedPages + BitVec.ofNat 64 pages

theorem pagesAlloc_firstFit_of_some {mm after : Mm} {pages address : Nat}
    (allocated : mm.pagesAlloc pages = (after, some address)) :
    ∃ start, mm.FirstFit start pages after ∧ address = pageAddress start := by
  obtain ⟨start, nonempty, inside, free, rfl, rfl⟩ := pagesAlloc_some allocated
  refine ⟨start, ⟨⟨inside, free⟩, ?_, ?_, ?_⟩, rfl⟩
  · intro other run
    obtain ⟨found, before, result⟩ := pagesAlloc_first nonempty run.inside run.free
    rw [allocated] at result
    have same : start = found := pageAddress_inj (Option.some.inj (Prod.mk.inj result).2)
    omega
  · exact take_isUsed mm start pages
  · exact take_usedPages mm start pages

theorem pagesAlloc_none_iff (mm : Mm) (pages : Nat) :
    (mm.pagesAlloc pages).2 = none ↔
      pages = 0 ∨ maxPages < pages ∨ ¬∃ start, mm.FreeRun start pages := by
  constructor
  · intro failed
    by_contra missed
    simp only [not_or, not_not] at missed
    obtain ⟨nonempty, _, first, run⟩ := missed
    obtain ⟨start, _, found⟩ := pagesAlloc_first (by omega) run.inside run.free
    rw [found] at failed
    cases failed
  · intro reason
    rcases allocated : mm.pagesAlloc pages with ⟨after, _ | address⟩
    · rfl
    · obtain ⟨start, nonempty, inside, free, _⟩ := pagesAlloc_some allocated
      rcases reason with empty | large | none
      · omega
      · omega
      · exact absurd ⟨start, inside, free⟩ none

theorem pagesAlloc_one (mm : Mm) : mm.pagesAlloc 1 = mm.pageAlloc := by
  rcases single : mm.pageAlloc with ⟨after, _ | address⟩
  · obtain ⟨rfl, full⟩ := pageAlloc_none single
    rcases allocated : after.pagesAlloc 1 with ⟨other, _ | address⟩
    · rw [pagesAlloc_none allocated]
    · obtain ⟨start, _, inside, free, _⟩ := pagesAlloc_some allocated
      have unused := free start (by omega) (by omega)
      rw [full start (by omega)] at unused
      cases unused
  · obtain ⟨index, bound, free, lower, rfl, rfl⟩ := pageAlloc_some single
    have run : mm.FreeRun index 1 := by
      refine ⟨by omega, fun query above below => ?_⟩
      rwa [show query = index by omega]
    obtain ⟨start, before, found⟩ := pagesAlloc_first (by omega) run.inside run.free
    obtain ⟨_, _, _, unused, _, address⟩ := pagesAlloc_some found
    have first : ¬start < index := by
      intro earlier
      have used := lower start earlier
      rw [unused start (pageAddress_inj address ▸ Nat.le_refl _) (by
        rw [pageAddress_inj address]; omega)] at used
      cases used
    rw [found, show start = index by omega]

/-- `pages_alloc` fails only for an impossible request or when no run of free pages is long
enough, and then changes nothing; else it takes the lowest run. For one page it is
`page_alloc`. -/
theorem pagesAlloc_completeFirstFit (mm : Mm) (pages : Word) :
    ((mm.pagesAlloc pages.toNat).2 = none ↔
      pages = 0 ∨ maxPages < pages.toNat ∨ ¬∃ start, mm.FreeRun start pages.toNat) ∧
    (∀ address, (mm.pagesAlloc pages.toNat).2 = some address →
      ∃ start, mm.FirstFit start pages.toNat (mm.pagesAlloc pages.toNat).1 ∧
        address = pageAddress start) ∧
    ((mm.pagesAlloc pages.toNat).2 = none → (mm.pagesAlloc pages.toNat).1 = mm) ∧
    mm.pagesAlloc 1 = mm.pageAlloc := by
  refine ⟨?_, ?_, ?_, pagesAlloc_one mm⟩
  · rw [pagesAlloc_none_iff]
    simp only [← BitVec.toNat_inj, BitVec.toNat_zero, BitVec.ofNat_eq_ofNat]
  · intro address allocated
    exact pagesAlloc_firstFit_of_some (Prod.ext rfl allocated)
  · intro failed
    exact pagesAlloc_none (Prod.ext rfl failed)

end DragoonKernel
