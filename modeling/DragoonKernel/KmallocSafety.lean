import DragoonKernel.KmallocSpec
import DragoonKernel.Library.Transition

/-!
Blocks of the Linux heap over whole histories. They are disjoint from each other and from
all other pages, in pages that are marked used, in exactly the runs in which no slab page
is freed under other blocks or served from after it has been freed, and no size overflows.
-/

namespace DragoonKernel

structure HeapBlock where
  address : Nat
  size : Nat
  deriving DecidableEq

def HeapBlock.Covers (block : HeapBlock) (byte : Nat) : Prop :=
  block.address ≤ byte ∧ byte < block.address + granted block.size

structure HeapSystem where
  heap : Heap
  live : List HeapBlock
  others : List Nat

inductive HeapAction where
  | kmalloc (size : Nat) (flags : BitVec 32)
  | kzalloc (size : Nat) (flags : BitVec 32)
  | kfree (block : HeapBlock)
  | kfreeNull
  | pageAlloc
  | pageFree (page : Nat)

def HeapSystem.served (system : HeapSystem) (size : Nat) : Heap × Option Nat → HeapSystem
  | (heap, some address) => { system with heap := heap, live := ⟨address, size⟩ :: system.live }
  | (heap, none) => { system with heap := heap }

def HeapSystem.withMm (system : HeapSystem) (mm : Mm) : HeapSystem :=
  { system with heap := { system.heap with mm := mm } }

def HeapSystem.taken (system : HeapSystem) : Mm × Option Nat → HeapSystem
  | (mm, some page) => { system.withMm mm with others := page :: system.others }
  | (mm, none) => system.withMm mm

def HeapSystem.step (system : HeapSystem) : HeapAction → Option HeapSystem
  | .kmalloc size flags =>
      if size < 2 ^ 64 then some (system.served size (system.heap.kmalloc size flags)) else none
  | .kzalloc size flags =>
      if size < 2 ^ 64 then some (system.served size (system.heap.kzalloc size flags)) else none
  | .kfree block =>
      if block ∈ system.live then
        some { system with
          heap := system.heap.kfree block.address
          live := system.live.erase block }
      else none
  | .kfreeNull => some { system with heap := system.heap.kfree 0 }
  | .pageAlloc => some (system.taken system.heap.mm.pageAlloc)
  | .pageFree page =>
      if page ∈ system.others then
        some { system.withMm (system.heap.mm.pageFree page) with
          others := system.others.erase page }
      else none

structure HeapSystem.Safe (system : HeapSystem) : Prop where
  apart : system.live.Pairwise fun first second => ∀ byte, first.Covers byte → ¬second.Covers byte
  foreign : ∀ block ∈ system.live, ∀ page ∈ system.others, ∀ byte, block.Covers byte →
    ¬(page ≤ byte ∧ byte < page + pageSize)
  marked : ∀ block ∈ system.live, ∀ byte, block.Covers byte →
    ∃ index < maxPages, byte / pageSize = ramFrame + index ∧ system.heap.mm.isUsed index = true

/-- The slab page is in use, and nobody else has it. -/
def HeapSystem.SlabKept (system : HeapSystem) : Prop :=
  system.heap.mm.isUsed ((system.heap.slabPage - ramBase) / pageSize) = true ∧
    system.heap.slabPage ∉ system.others ∧
    ∀ block ∈ system.live, 2048 < block.size → block.address ≠ system.heap.slabPage

def HeapSystem.Serves (system : HeapSystem) (size : Nat) : Prop :=
  (system.heap.FitsSlab size → system.SlabKept) ∧
    (2 ^ 64 ≤ size + (pageSize - 1) → ∀ index < maxPages, system.heap.mm.isUsed index = true)

/-- The condition at each `kfree`: the page it frees, if any, holds no other block. -/
def HeapSystem.FreesAlone (system : HeapSystem) (block : HeapBlock) : Prop :=
  block.address % pageSize = 0 → ∀ other ∈ system.live.erase block,
    other.address / pageSize ≠ block.address / pageSize

def HeapSystem.Careful (system : HeapSystem) (action : HeapAction) (_ : HeapSystem) : Prop :=
  match action with
  | .kmalloc size _ => system.Serves size
  | .kzalloc size _ => system.Serves size
  | .kfree block => system.FreesAlone block
  | _ => True

structure HeapBlock.Placed (block : HeapBlock) (index : Nat) : Prop where
  positive : 0 < block.size
  bound : index < maxPages
  lower : pageAddress index ≤ block.address
  upper : block.address + granted block.size ≤ pageAddress index + pageSize

structure HeapSystem.Kept (system : HeapSystem) : Prop where
  placed : ∀ block ∈ system.live, ∃ index, block.Placed index ∧
    system.heap.mm.isUsed index = true ∧ pageAddress index ∉ system.others
  apart : system.live.Pairwise fun first second => ∀ byte, first.Covers byte → ¬second.Covers byte
  distinct : system.others.Nodup
  held : ∀ page ∈ system.others, ∃ index < maxPages,
    page = pageAddress index ∧ system.heap.mm.isUsed index = true
  slab : system.heap.slabPage ≠ 0 → ∃ index < maxPages, system.heap.slabPage = pageAddress index
  below : ∀ block ∈ system.live, block.size ≤ 2048 →
    block.address / pageSize = system.heap.slabPage / pageSize →
      block.address + granted block.size ≤ system.heap.slabPage + system.heap.slabOffset

theorem page_div {index byte : Nat} :
    byte / pageSize = ramFrame + index ↔
      pageAddress index ≤ byte ∧ byte < pageAddress index + pageSize := by
  simp only [pageAddress_eq, pageSize, ramFrame, ramBase]
  omega

theorem HeapBlock.Placed.div {block : HeapBlock} {index byte : Nat} (placed : block.Placed index)
    (covered : block.Covers byte) : byte / pageSize = ramFrame + index := by
  have upper := placed.upper
  have lower := placed.lower
  rw [page_div]
  exact ⟨by unfold HeapBlock.Covers at covered; omega, by unfold HeapBlock.Covers at covered; omega⟩

theorem HeapBlock.Placed.covers_address {block : HeapBlock} {index : Nat}
    (placed : block.Placed index) : block.Covers block.address := by
  have positive := (granted_bounds placed.positive).1
  exact ⟨Nat.le_refl _, by omega⟩

theorem HeapBlock.Placed.starts {block : HeapBlock} {index : Nat} (placed : block.Placed index)
    (whole : block.address % pageSize = 0 ∨ 2048 < block.size) :
    block.address = pageAddress index := by
  obtain ⟨positive, large, _⟩ := granted_bounds placed.positive
  have lower := placed.lower
  have upper := placed.upper
  simp only [pageAddress_eq, pageSize] at *
  omega

variable {system after : HeapSystem}

theorem HeapSystem.Kept.safe (kept : system.Kept) : system.Safe := by
  refine ⟨kept.apart, ?_, ?_⟩
  · intro block live page held byte covered inside
    obtain ⟨index, placed, _, apart⟩ := kept.placed block live
    obtain ⟨other, _, rfl, _⟩ := kept.held page held
    have here := placed.div covered
    have there := page_div.mpr inside
    obtain rfl : index = other := by omega
    exact apart held
  · intro block live byte covered
    obtain ⟨index, placed, used, _⟩ := kept.placed block live
    exact ⟨index, placed.bound, placed.div covered, used⟩

theorem HeapBlock.Placed.apart {first second : HeapBlock} {index other : Nat}
    (placed : first.Placed index) (elsewhere : second.Placed other) (different : index ≠ other) :
    ∀ byte, first.Covers byte → ¬second.Covers byte := by
  intro byte covered also
  have here := placed.div covered
  have there := elsewhere.div also
  omega

theorem HeapSystem.Kept.page (kept : system.Kept) {size index : Nat} (positive : 0 < size)
    (bound : index < maxPages) (free : system.heap.mm.isUsed index = false)
    (fits : size ≤ pageSize) :
    HeapSystem.Kept { system with
      heap := {
        mm := system.heap.mm.take index 1
        slabPage := if size ≤ 2048 then pageAddress index else system.heap.slabPage
        slabOffset := if size ≤ 2048 then granted size else system.heap.slabOffset }
      live := ⟨pageAddress index, size⟩ :: system.live } := by
  have placed : HeapBlock.Placed ⟨pageAddress index, size⟩ index := by
    refine ⟨positive, bound, Nat.le_refl _, ?_⟩
    have granted := (granted_bounds positive).2.2 fits
    simp only
    omega
  have still : ∀ query, system.heap.mm.isUsed query = true →
      (system.heap.mm.take index 1).isUsed query = true := by
    intro query used
    rw [take_isUsed, used, Bool.or_true]
  -- whatever is held lies in pages that are marked used, and the new page was not
  have elsewhere : ∀ query, system.heap.mm.isUsed query = true → index ≠ query := by
    rintro query used rfl
    rw [free] at used
    cases used
  refine ⟨?_, ?_, kept.distinct, ?_, ?_, ?_⟩
  · intro block live
    rcases List.mem_cons.mp live with rfl | live
    · refine ⟨index, placed, by simp, fun held => ?_⟩
      obtain ⟨other, _, same, used⟩ := kept.held _ held
      exact elsewhere other used (pageAddress_inj same)
    · obtain ⟨other, inside, used, apart⟩ := kept.placed block live
      exact ⟨other, inside, still other used, apart⟩
  · refine List.pairwise_cons.mpr ⟨fun block live => ?_, kept.apart⟩
    obtain ⟨other, inside, used, _⟩ := kept.placed block live
    exact placed.apart inside (elsewhere other used)
  · intro page held
    obtain ⟨other, inside, same, used⟩ := kept.held page held
    exact ⟨other, inside, same, still other used⟩
  · by_cases small : size ≤ 2048
    · simp only [if_pos small]
      exact fun _ => ⟨index, bound, rfl⟩
    · simp only [if_neg small]
      exact kept.slab
  · intro block live
    by_cases small : size ≤ 2048
    · simp only [if_pos small]
      rcases List.mem_cons.mp live with rfl | live
      · exact fun _ _ => Nat.le_refl _
      · intro _ samePage
        obtain ⟨other, inside, used, _⟩ := kept.placed block live
        have there := inside.div inside.covers_address
        rw [samePage, pageAddress_div] at there
        exact absurd (by omega) (elsewhere other used)
    · simp only [if_neg small]
      rcases List.mem_cons.mp live with rfl | live
      · exact fun tiny => absurd tiny small
      · exact kept.below block live

theorem HeapSystem.Kept.slabBlock (kept : system.Kept) {size : Nat}
    (fits : system.heap.FitsSlab size) (slabKept : system.SlabKept) :
    HeapSystem.Kept { system with
      heap := { system.heap with slabOffset := system.heap.slabOffset + granted size }
      live := ⟨system.heap.slabPage + system.heap.slabOffset, size⟩ :: system.live } := by
  obtain ⟨positive, small, present, room⟩ := fits
  obtain ⟨used, unheld, noLarge⟩ := slabKept
  obtain ⟨index, bound, slab⟩ := kept.slab present
  have number : (pageAddress index - ramBase) / pageSize = index := by
    simp only [pageAddress_eq, ramBase, pageSize]
    omega
  rw [slab, number] at used
  rw [slab] at unheld
  rw [← granted_small small] at room
  have placed : HeapBlock.Placed ⟨system.heap.slabPage + system.heap.slabOffset, size⟩ index := by
    refine ⟨positive, bound, ?_, ?_⟩ <;> simp only [slab] <;> omega
  refine ⟨?_, ?_, kept.distinct, kept.held, kept.slab, ?_⟩
  · intro block live
    rcases List.mem_cons.mp live with rfl | live
    · exact ⟨index, placed, used, unheld⟩
    · exact kept.placed block live
  · refine List.pairwise_cons.mpr ⟨fun block live => ?_, kept.apart⟩
    obtain ⟨other, inside, _, _⟩ := kept.placed block live
    by_cases samePage : index = other
    · subst samePage
      have start := inside.div inside.covers_address
      have tiny : block.size ≤ 2048 := by
        by_contra large
        exact noLarge block live (by omega) ((inside.starts (Or.inr (by omega))).trans slab.symm)
      -- the other blocks of the slab page end below the cursor
      have ends := kept.below block live tiny (by rw [start, slab, pageAddress_div])
      intro byte covered also
      unfold HeapBlock.Covers at covered also
      simp only at covered
      omega
    · exact placed.apart inside samePage
  · intro block live
    rcases List.mem_cons.mp live with rfl | live
    · intro _ _
      simp only
      omega
    · intro tiny samePage
      have ends := kept.below block live tiny samePage
      simp only
      omega

theorem HeapSystem.Kept.release (kept : system.Kept) {index : Nat} (bound : index < maxPages)
    {live : List HeapBlock} {others : List Nat} (fewer : live.Sublist system.live)
    (fewerOthers : others.Sublist system.others)
    (noLive : ∀ block ∈ live, block.address / pageSize ≠ ramFrame + index)
    (noOther : pageAddress index ∉ others) :
    HeapSystem.Kept {
      heap := { system.heap with mm := system.heap.mm.pageFree (pageAddress index) }
      live := live
      others := others } := by
  have still : ∀ query, query ≠ index → system.heap.mm.isUsed query = true →
      (system.heap.mm.pageFree (pageAddress index)).isUsed query = true := by
    intro query different used
    simp [pageFree_isUsed _ bound, different, used]
  refine ⟨?_, kept.apart.sublist fewer, fewerOthers.nodup kept.distinct, ?_, kept.slab, ?_⟩
  · intro block member
    obtain ⟨other, placed, used, unheld⟩ := kept.placed block (fewer.subset member)
    refine ⟨other, placed, still other ?_ used, fun held => unheld (fewerOthers.subset held)⟩
    rintro rfl
    exact noLive block member (placed.div placed.covers_address)
  · intro page held
    obtain ⟨other, inside, same, used⟩ := kept.held page (fewerOthers.subset held)
    refine ⟨other, inside, same, still other ?_ used⟩
    rintro rfl
    exact noOther (same ▸ held)
  · exact fun block member => kept.below block (fewer.subset member)

theorem HeapSystem.Kept.drop (kept : system.Kept) (block : HeapBlock) :
    HeapSystem.Kept { system with live := system.live.erase block } := by
  have fewer : (system.live.erase block).Sublist system.live := List.erase_sublist
  exact ⟨fun other member => kept.placed other (fewer.subset member), kept.apart.sublist fewer,
    kept.distinct, kept.held, kept.slab, fun other member => kept.below other (fewer.subset member)⟩

theorem HeapSystem.Kept.kfree (kept : system.Kept) {block : HeapBlock} (live : block ∈ system.live)
    (alone : system.FreesAlone block) :
    HeapSystem.Kept { system with
      heap := system.heap.kfree block.address
      live := system.live.erase block } := by
  obtain ⟨index, placed, _, unheld⟩ := kept.placed block live
  by_cases aligned : block.address % pageSize = 0
  · have start := placed.starts (Or.inl aligned)
    have others := alone aligned
    rw [start, pageAddress_div] at others
    rw [start, kfree_aligned]
    exact kept.release placed.bound List.erase_sublist (List.Sublist.refl _) others unheld
  · have kept := kept.drop block
    unfold Heap.kfree
    rw [if_neg aligned]
    split <;> exact kept

theorem HeapSystem.Kept.kfree_spoils (kept : system.Kept) {block : HeapBlock}
    (live : block ∈ system.live) (shared : ¬system.FreesAlone block) :
    ¬HeapSystem.Safe { system with
      heap := system.heap.kfree block.address
      live := system.live.erase block } := by
  simp only [HeapSystem.FreesAlone, Classical.not_forall, not_not] at shared
  obtain ⟨aligned, other, member, samePage⟩ := shared
  obtain ⟨index, placed, _, _⟩ := kept.placed block live
  obtain ⟨_, inside, _, _⟩ := kept.placed other (List.mem_of_mem_erase member)
  have start := placed.starts (Or.inl aligned)
  intro safe
  obtain ⟨found, _, page, used⟩ := safe.marked other member other.address inside.covers_address
  rw [samePage, start, pageAddress_div] at page
  obtain rfl : index = found := by omega
  rw [start, kfree_aligned] at used
  change (system.heap.mm.pageFree (pageAddress index)).isUsed index = true at used
  rw [pageFree_isUsed _ placed.bound] at used
  simp at used

theorem HeapSystem.Kept.serves (kept : system.Kept) {size : Nat} (word : size < 2 ^ 64)
    (flags : BitVec 32) (serves : system.Serves size) :
    (system.served size (system.heap.kmalloc size flags)).Kept := by
  have outcome := kmalloc_outcome system.heap word flags
  generalize system.heap.kmalloc size flags = result at outcome ⊢
  cases outcome with
  | null => exact kept
  | slab fits => exact kept.slabBlock fits (serves.1 fits)
  | page index _ positive bound free fits =>
      refine kept.page positive bound free (fits ?_)
      by_contra wraps
      have used := serves.2 (by omega) index bound
      rw [free] at used
      cases used

theorem HeapSystem.Kept.slab_spoils (kept : system.Kept) {size : Nat}
    (fits : system.heap.FitsSlab size) (lost : ¬system.SlabKept) :
    ¬HeapSystem.Safe { system with
      heap := { system.heap with slabOffset := system.heap.slabOffset + granted size }
      live := ⟨system.heap.slabPage + system.heap.slabOffset, size⟩ :: system.live } := by
  obtain ⟨positive, small, present, room⟩ := fits
  obtain ⟨index, bound, slab⟩ := kept.slab present
  have more := (granted_bounds positive).1
  rw [← granted_small small] at room
  have page : (system.heap.slabPage + system.heap.slabOffset) / pageSize = ramFrame + index := by
    rw [page_div, slab]
    omega
  have covered : HeapBlock.Covers ⟨system.heap.slabPage + system.heap.slabOffset, size⟩
      (system.heap.slabPage + system.heap.slabOffset) := by
    unfold HeapBlock.Covers
    simp only
    omega
  intro safe
  refine lost ⟨?_, ?_, ?_⟩
  · obtain ⟨found, _, same, used⟩ := safe.marked _ List.mem_cons_self _ covered
    have number : (system.heap.slabPage - ramBase) / pageSize = found := by
      rw [slab]
      simp only [pageAddress_eq, ramBase, pageSize] at *
      omega
    rw [number]
    exact used
  · intro held
    exact safe.foreign _ List.mem_cons_self _ held _ covered ⟨by omega, by omega⟩
  · intro block live large start
    obtain ⟨other, placed, _, _⟩ := kept.placed block live
    have whole := (granted_bounds placed.positive).2.1 large
    refine (List.pairwise_cons.mp safe.apart).1 block live _ covered ?_
    unfold HeapBlock.Covers
    omega

theorem overflow_spoils {size index : Nat} {heap : Heap} {live : List HeapBlock}
    {others : List Nat} (wraps : 2 ^ 64 ≤ size + (pageSize - 1)) (bound : index < maxPages) :
    ¬HeapSystem.Safe ⟨heap, ⟨pageAddress index, size⟩ :: live, others⟩ := by
  intro safe
  have covered : HeapBlock.Covers ⟨pageAddress index, size⟩ (pageAddress maxPages) := by
    simp only [HeapBlock.Covers, granted, alignUp, pageAddress_eq, maxPages_eq, pageSize] at *
    split <;> omega
  obtain ⟨found, inside, page, _⟩ := safe.marked _ List.mem_cons_self _ covered
  rw [pageAddress_div] at page
  omega

theorem HeapSystem.Kept.serves_spoils (kept : system.Kept) {size : Nat} (word : size < 2 ^ 64)
    (flags : BitVec 32) (unmet : ¬system.Serves size) :
    ¬(system.served size (system.heap.kmalloc size flags)).Safe := by
  simp only [HeapSystem.Serves, not_and_or, Classical.not_imp] at unmet
  have outcome := kmalloc_outcome system.heap word flags
  generalize system.heap.kmalloc size flags = result at outcome ⊢
  cases outcome with
  | null unfit full =>
      rcases unmet with ⟨fits, _⟩ | ⟨wraps, free⟩
      · exact absurd fits unfit
      · exact absurd (full wraps) free
  | slab fits =>
      rcases unmet with ⟨_, lost⟩ | ⟨wraps, _⟩
      · exact kept.slab_spoils fits lost
      · have small := fits.2.1
        simp only [pageSize] at wraps
        omega
  | page index unfit positive bound free _ =>
      rcases unmet with ⟨fits, _⟩ | ⟨wraps, _⟩
      · exact absurd fits unfit
      · exact overflow_spoils wraps bound

theorem kzalloc_served (system : HeapSystem) (size : Nat) (flags : BitVec 32) :
    ∃ memory, system.served size (system.heap.kzalloc size flags) =
      (system.served size (system.heap.kmalloc size flags)).withMm
        { (system.served size (system.heap.kmalloc size flags)).heap.mm with memory := memory } := by
  unfold Heap.kzalloc
  generalize system.heap.kmalloc size flags = result
  obtain ⟨heap, _ | address⟩ := result
  · exact ⟨heap.mm.memory, rfl⟩
  · exact ⟨zeroBytes heap.mm.memory address size, rfl⟩

theorem HeapSystem.Kept.store (kept : system.Kept) (memory : Memory) :
    (system.withMm { system.heap.mm with memory := memory }).Kept :=
  ⟨kept.placed, kept.apart, kept.distinct, kept.held, kept.slab, kept.below⟩

theorem HeapSystem.Safe.of_store {memory : Memory}
    (safe : (system.withMm { system.heap.mm with memory := memory }).Safe) : system.Safe :=
  ⟨safe.apart, safe.foreign, safe.marked⟩

theorem HeapSystem.Kept.pageTaken (kept : system.Kept) {index : Nat} (bound : index < maxPages)
    (free : system.heap.mm.isUsed index = false) :
    HeapSystem.Kept { system.withMm (system.heap.mm.take index 1) with
      others := pageAddress index :: system.others } := by
  have still : ∀ query, system.heap.mm.isUsed query = true →
      query ≠ index ∧ (system.heap.mm.take index 1).isUsed query = true := by
    intro query used
    refine ⟨?_, by rw [take_isUsed, used, Bool.or_true]⟩
    rintro rfl
    rw [free] at used
    cases used
  refine ⟨?_, kept.apart, ?_, ?_, kept.slab, kept.below⟩
  · intro block live
    obtain ⟨other, placed, used, unheld⟩ := kept.placed block live
    obtain ⟨different, used⟩ := still other used
    refine ⟨other, placed, used, fun held => ?_⟩
    rcases List.mem_cons.mp held with same | held
    · exact different (pageAddress_inj same)
    · exact unheld held
  · refine List.nodup_cons.mpr ⟨fun held => ?_, kept.distinct⟩
    obtain ⟨other, _, same, used⟩ := kept.held _ held
    exact (still other used).1 (pageAddress_inj same).symm
  · intro page held
    rcases List.mem_cons.mp held with rfl | held
    · exact ⟨index, bound, rfl, by simp [HeapSystem.withMm]⟩
    · obtain ⟨other, inside, same, used⟩ := kept.held page held
      exact ⟨other, inside, same, (still other used).2⟩

theorem HeapSystem.Kept.pageAlloc (kept : system.Kept) :
    (system.taken system.heap.mm.pageAlloc).Kept := by
  rcases allocated : system.heap.mm.pageAlloc with ⟨mm, _ | page⟩
  · obtain ⟨rfl, _⟩ := pageAlloc_none allocated
    exact kept
  · obtain ⟨index, bound, free, _, rfl, rfl⟩ := pageAlloc_some allocated
    exact kept.pageTaken bound free

theorem HeapSystem.Kept.pageFree (kept : system.Kept) {page : Nat} (held : page ∈ system.others) :
    HeapSystem.Kept { system.withMm (system.heap.mm.pageFree page) with
      others := system.others.erase page } := by
  obtain ⟨index, bound, rfl, _⟩ := kept.held page held
  refine kept.release bound (List.Sublist.refl _) List.erase_sublist ?_
    (List.Nodup.not_mem_erase kept.distinct)
  intro block live samePage
  obtain ⟨other, placed, _, unheld⟩ := kept.placed block live
  rw [placed.div placed.covers_address] at samePage
  obtain rfl : other = index := by omega
  exact unheld held

theorem HeapSystem.Kept.step {action : HeapAction} (kept : system.Kept)
    (stepped : system.step action = some after) (careful : system.Careful action after) :
    after.Kept := by
  unfold HeapSystem.step at stepped
  split at stepped
  next size flags =>
    rw [Option.ite_none_right_eq_some, Option.some.injEq] at stepped
    obtain ⟨word, rfl⟩ := stepped
    exact kept.serves word flags careful
  next size flags =>
    rw [Option.ite_none_right_eq_some, Option.some.injEq] at stepped
    obtain ⟨word, rfl⟩ := stepped
    obtain ⟨memory, same⟩ := kzalloc_served system size flags
    rw [same]
    exact (kept.serves word flags careful).store memory
  next block =>
    rw [Option.ite_none_right_eq_some, Option.some.injEq] at stepped
    obtain ⟨live, rfl⟩ := stepped
    exact kept.kfree live careful
  next =>
    obtain rfl := Option.some.inj stepped
    exact kept
  next =>
    obtain rfl := Option.some.inj stepped
    exact kept.pageAlloc
  next page =>
    rw [Option.ite_none_right_eq_some, Option.some.injEq] at stepped
    obtain ⟨held, rfl⟩ := stepped
    exact kept.pageFree held

theorem HeapSystem.Kept.step_spoils {action : HeapAction} (kept : system.Kept)
    (stepped : system.step action = some after) (unmet : ¬system.Careful action after) :
    ¬after.Safe := by
  unfold HeapSystem.step at stepped
  split at stepped
  next size flags =>
    rw [Option.ite_none_right_eq_some, Option.some.injEq] at stepped
    obtain ⟨word, rfl⟩ := stepped
    exact kept.serves_spoils word flags unmet
  next size flags =>
    rw [Option.ite_none_right_eq_some, Option.some.injEq] at stepped
    obtain ⟨word, rfl⟩ := stepped
    obtain ⟨memory, same⟩ := kzalloc_served system size flags
    rw [same]
    exact fun safe => kept.serves_spoils word flags unmet safe.of_store
  next block =>
    rw [Option.ite_none_right_eq_some, Option.some.injEq] at stepped
    obtain ⟨live, rfl⟩ := stepped
    exact kept.kfree_spoils live unmet
  next => exact absurd trivial unmet
  next => exact absurd trivial unmet
  next => exact absurd trivial unmet

/-- The heap has handed out nothing yet, and others hold pages that are marked used. -/
structure HeapSystem.Unused (system : HeapSystem) : Prop where
  slab : system.heap.slabPage = 0
  live : system.live = []
  distinct : system.others.Nodup
  held : ∀ page ∈ system.others, ∃ index < maxPages,
    page = pageAddress index ∧ system.heap.mm.isUsed index = true

theorem HeapSystem.Unused.kept (unused : system.Unused) : system.Kept := by
  refine ⟨?_, ?_, unused.distinct, unused.held, fun present => absurd unused.slab present, ?_⟩
  · simp [unused.live]
  · simp [unused.live]
  · simp [unused.live]

/-- Over every history of `kmalloc`, `kzalloc`, `kfree` and of pages taken and freed by others,
all states are safe if and only if every step meets the condition. -/
theorem kmalloc_safe_iff (system : HeapSystem) (unused : system.Unused)
    (actions : List HeapAction) :
    Transition.EveryState HeapSystem.step HeapSystem.Safe system actions ↔
      Transition.EveryStep HeapSystem.step HeapSystem.Careful system actions :=
  Transition.everyState_iff_everyStep (fun _ kept => kept.safe)
    (fun _ _ _ kept stepped careful => kept.step stepped careful)
    (fun _ _ _ kept stepped unmet => kept.step_spoils stepped unmet) unused.kept actions

def unusedHeap : HeapSystem where
  heap := .boot {
    pageBitmap := fun _ => 0
    totalPages := BitVec.ofNat 64 maxPages
    usedPages := 0
    memory := fun _ _ => 0 }
  live := []
  others := []

theorem unusedHeap_unused : unusedHeap.Unused := ⟨rfl, rfl, List.nodup_nil, by simp [unusedHeap]⟩

/-- Two small blocks share the slab page, the first one is freed, and another caller is
handed the page. -/
def freedUnderBlock : List HeapAction :=
  [.kmalloc 16 0, .kmalloc 16 0, .kfree ⟨pageAddress 0, 16⟩, .pageAlloc]

theorem kmalloc_safe_iff_freedUnderBlock :
    Transition.EveryState HeapSystem.step HeapSystem.Safe unusedHeap freedUnderBlock ↔
      Transition.EveryStep HeapSystem.step HeapSystem.Careful unusedHeap freedUnderBlock :=
  kmalloc_safe_iff unusedHeap unusedHeap_unused freedUnderBlock

theorem liveBlock_in_freed_page :
    ¬∀ actions, Transition.EveryState HeapSystem.step HeapSystem.Safe unusedHeap actions := by
  intro all
  have reached : (Transition.exec HeapSystem.step unusedHeap freedUnderBlock).any (fun system =>
      decide (system.live = [⟨pageAddress 0 + 16, 16⟩]) &&
        decide (system.others = [pageAddress 0])) = true := by
    decide +kernel
  obtain ⟨system, run, facts⟩ := (Option.any_eq_true _ _).mp reached
  simp only [Bool.and_eq_true, decide_eq_true_eq] at facts
  have safe := (all freedUnderBlock).last run
  refine safe.foreign ⟨pageAddress 0 + 16, 16⟩ (by simp [facts.1]) (pageAddress 0)
    (by simp [facts.2]) (pageAddress 0 + 16) ⟨Nat.le_refl _, by decide⟩ ⟨by decide, by decide⟩

end DragoonKernel
