import Mathlib.Data.List.Perm.Basic
import DragoonKernel.Library.Transition
import DragoonKernel.PageAllocatorSpec

/-!
Ownership of pages over whole histories of allocations and frees. The callers
hold the live blocks; a free is enabled only for a block that is held, with its
own size, and a store only inside a held block.
-/

namespace DragoonKernel

structure Block where
  address : Nat
  pages : Nat
  deriving DecidableEq

def Block.Covers (block : Block) (frame : Nat) : Prop :=
  block.address / pageSize ≤ frame ∧ frame < block.address / pageSize + block.pages

instance (block : Block) (frame : Nat) : Decidable (block.Covers frame) :=
  inferInstanceAs (Decidable (_ ∧ _))

structure PageSystem where
  mm : Mm
  live : List Block

inductive PageAction where
  | pageAlloc
  | pagesAlloc (pages : Nat)
  | pageFree (address : Nat)
  | pagesFree (address pages : Nat)
  | store (frame : Nat) (index : Fin 512) (value : Word)

def PageSystem.boot (image : KernelImage) (memory : Memory) : PageSystem where
  mm := mmInit image.stackTop memory
  live := []

def PageSystem.received (system : PageSystem) (pages : Nat) : Mm × Option Nat → PageSystem
  | (mm, some address) => { mm := mm, live := ⟨address, pages⟩ :: system.live }
  | (mm, none) => { mm := mm, live := system.live }

def storeWord (memory : Memory) (frame : Nat) (index : Fin 512) (value : Word) : Memory :=
  Function.update memory frame (Function.update (memory frame) index value)

def PageSystem.step (system : PageSystem) : PageAction → Option PageSystem
  | .pageAlloc => some (system.received 1 system.mm.pageAlloc)
  | .pagesAlloc pages => some (system.received pages (system.mm.pagesAlloc pages))
  | .pageFree address =>
      if ⟨address, 1⟩ ∈ system.live then
        some { mm := system.mm.pageFree address, live := system.live.erase ⟨address, 1⟩ }
      else none
  | .pagesFree address pages =>
      if ⟨address, pages⟩ ∈ system.live then
        some {
          mm := system.mm.pagesFree address pages
          live := system.live.erase ⟨address, pages⟩
        }
      else none
  | .store frame index value =>
      if ∃ block ∈ system.live, block.Covers frame then
        some { system with
          mm := { system.mm with memory := storeWord system.mm.memory frame index value } }
      else none

structure BlockPlaced (image : KernelImage) (block : Block) (start : Nat) : Prop where
  address : block.address = pageAddress start
  nonempty : 0 < block.pages
  pastKernel : kernelPages image.stackTop ≤ start
  inside : start + block.pages ≤ maxPages

/-- The bitmap marks the kernel pages and the live blocks, which do not overlap. -/
structure PageSystem.Owned (image : KernelImage) (system : PageSystem) : Prop where
  bits : ∀ index, system.mm.isUsed index = true ↔
    index < kernelPages image.stackTop ∨ ∃ block ∈ system.live, block.Covers (ramFrame + index)
  placed : ∀ block ∈ system.live, ∃ start, BlockPlaced image block start
  apart : system.live.Pairwise fun first second =>
    ∀ frame, first.Covers frame → ¬second.Covers frame
  counter : system.mm.usedPages =
    BitVec.ofNat 64 (kernelPages image.stackTop + (system.live.map Block.pages).sum)

theorem BlockPlaced.covers_iff {image : KernelImage} {block : Block} {start : Nat}
    (placed : BlockPlaced image block start) (frame : Nat) :
    block.Covers frame ↔ ramFrame + start ≤ frame ∧ frame < ramFrame + start + block.pages := by
  rw [Block.Covers, placed.address, pageAddress_div]

theorem boot_owned (image : KernelImage) (memory : Memory) :
    (PageSystem.boot image memory).Owned image := by
  constructor
  · intro index
    simp [PageSystem.boot, mmInit_isUsed]
  · simp [PageSystem.boot]
  · simp [PageSystem.boot]
  · simp [PageSystem.boot, mmInit_usedPages]

theorem PageSystem.Owned.free_run {image : KernelImage} {system : PageSystem}
    (owned : system.Owned image) {start pages : Nat} (nonempty : 0 < pages)
    (inside : start + pages ≤ maxPages)
    (free : ∀ index, start ≤ index → index < start + pages → system.mm.isUsed index = false) :
    BlockPlaced image ⟨pageAddress start, pages⟩ start ∧
      ∀ block ∈ system.live, ∀ frame,
        Block.Covers ⟨pageAddress start, pages⟩ frame → ¬block.Covers frame := by
  have placed : BlockPlaced image ⟨pageAddress start, pages⟩ start := by
    refine ⟨rfl, nonempty, ?_, inside⟩
    by_contra below
    have used := (owned.bits start).mpr (Or.inl (by omega))
    simp [free start (Nat.le_refl _) (by omega)] at used
  refine ⟨placed, ?_⟩
  intro block member frame covered overlap
  have range := (placed.covers_iff frame).mp covered
  have used := (owned.bits (frame - ramFrame)).mpr (Or.inr ⟨block, member, by
    rwa [show ramFrame + (frame - ramFrame) = frame by omega]⟩)
  rw [free (frame - ramFrame) (by omega) (by simp only at range; omega)] at used
  simp at used

theorem PageSystem.Owned.take {image : KernelImage} {system : PageSystem}
    (owned : system.Owned image) {start pages : Nat} (nonempty : 0 < pages)
    (inside : start + pages ≤ maxPages)
    (free : ∀ index, start ≤ index → index < start + pages → system.mm.isUsed index = false) :
    PageSystem.Owned image {
      mm := system.mm.take start pages
      live := ⟨pageAddress start, pages⟩ :: system.live
    } := by
  obtain ⟨placed, fresh⟩ := owned.free_run nonempty inside free
  constructor
  · intro index
    simp only [take_isUsed, Bool.or_eq_true, decide_eq_true_eq, owned.bits, List.mem_cons,
      exists_eq_or_imp, placed.covers_iff]
    constructor
    · rintro (range | kernel | held)
      · exact Or.inr (Or.inl (by omega))
      · exact Or.inl kernel
      · exact Or.inr (Or.inr held)
    · rintro (kernel | range | held)
      · exact Or.inr (Or.inl kernel)
      · exact Or.inl (by omega)
      · exact Or.inr (Or.inr held)
  · intro block member
    rcases List.mem_cons.mp member with same | old
    · exact ⟨start, same ▸ placed⟩
    · exact owned.placed block old
  · exact List.pairwise_cons.mpr ⟨fresh, owned.apart⟩
  · simp only [take_usedPages, owned.counter, List.map_cons, List.sum_cons]
    rw [← BitVec.ofNat_add]
    congr 1
    omega

theorem PageSystem.Owned.covered_used {image : KernelImage} {system : PageSystem}
    (owned : system.Owned image) {block : Block} (held : block ∈ system.live) {start : Nat}
    (placed : BlockPlaced image block start) :
    ∀ index, start ≤ index → index < start + block.pages → system.mm.isUsed index = true := by
  intro index lower upper
  refine (owned.bits index).mpr (Or.inr ⟨block, held, ?_⟩)
  exact (placed.covers_iff _).mpr (by omega)

theorem PageSystem.Owned.drop {image : KernelImage} {system : PageSystem}
    (owned : system.Owned image) {block : Block} (held : block ∈ system.live) {start : Nat}
    (placed : BlockPlaced image block start) {after : Mm}
    (bits : ∀ query, after.isUsed query =
      (!decide (start ≤ query ∧ query < start + block.pages) && system.mm.isUsed query))
    (counter : after.usedPages = system.mm.usedPages - BitVec.ofNat 64 block.pages) :
    PageSystem.Owned image { mm := after, live := system.live.erase block } := by
  have split := List.perm_cons_erase held
  have apart := (split.pairwise_iff
    (fun {first second} separate frame covered overlap =>
      separate frame overlap covered)).mp owned.apart
  obtain ⟨alone, others⟩ := List.pairwise_cons.mp apart
  constructor
  · intro index
    simp only [bits, Bool.and_eq_true, Bool.not_eq_true', decide_eq_false_iff_not, owned.bits]
    have range := placed.covers_iff (ramFrame + index)
    constructor
    · rintro ⟨outside, kernel | ⟨other, member, covered⟩⟩
      · exact Or.inl kernel
      · refine Or.inr ⟨other, ?_, covered⟩
        rcases List.mem_cons.mp (split.mem_iff.mp member) with same | kept
        · subst same
          exact absurd (range.mp covered) (by omega)
        · exact kept
    · rintro (kernel | ⟨other, member, covered⟩)
      · have past := placed.pastKernel
        exact ⟨by omega, Or.inl kernel⟩
      · refine ⟨fun inside => ?_, Or.inr ⟨other, List.mem_of_mem_erase member, covered⟩⟩
        exact alone other member _ (range.mpr (by omega)) covered
  · intro other member
    exact owned.placed other (List.mem_of_mem_erase member)
  · exact others
  · have total := (split.map Block.pages).sum_nat
    simp only [List.map_cons, List.sum_cons] at total
    rw [counter, owned.counter, total, Nat.add_left_comm, Nat.add_comm, BitVec.ofNat_add,
      BitVec.add_sub_cancel]

theorem pageFree_owned {image : KernelImage} {system : PageSystem}
    (owned : system.Owned image) {address : Nat} (held : ⟨address, 1⟩ ∈ system.live) :
    PageSystem.Owned image {
      mm := system.mm.pageFree address
      live := system.live.erase ⟨address, 1⟩
    } := by
  obtain ⟨start, placed⟩ := owned.placed _ held
  have used := owned.covered_used held placed start (Nat.le_refl _) (by simp)
  have inside := placed.inside
  have position : address = pageAddress start := placed.address
  subst position
  rw [pageFree_pageAddress system.mm (by simp only at inside; omega), used, if_pos rfl]
  apply owned.drop held placed
  · intro query
    rw [release_isUsed]
    congr 2
    apply decide_eq_decide.mpr
    simp only
    omega
  · rfl

theorem pagesFree_owned {image : KernelImage} {system : PageSystem}
    (owned : system.Owned image) {address pages : Nat} (held : ⟨address, pages⟩ ∈ system.live) :
    PageSystem.Owned image {
      mm := system.mm.pagesFree address pages
      live := system.live.erase ⟨address, pages⟩
    } := by
  obtain ⟨start, placed⟩ := owned.placed _ held
  have position : address = pageAddress start := placed.address
  subst position
  obtain ⟨bits, counter⟩ := pagesFree_run system.mm start pages placed.inside
    (owned.covered_used held placed)
  exact owned.drop held placed bits counter

theorem PageSystem.step_owned (image : KernelImage) (system : PageSystem) (action : PageAction)
    (next : PageSystem) (owned : system.Owned image) (stepped : system.step action = some next) :
    next.Owned image := by
  cases action with
  | pageAlloc =>
      simp only [PageSystem.step, Option.some.injEq] at stepped
      subst next
      rcases allocated : system.mm.pageAlloc with ⟨after, _ | address⟩
      · obtain ⟨rfl, _⟩ := pageAlloc_none allocated
        exact owned
      · obtain ⟨index, bound, free, _, rfl, rfl⟩ := pageAlloc_some allocated
        refine owned.take (by omega) (by omega) ?_
        intro query lower upper
        have same : query = index := by omega
        rw [same]
        exact free
  | pagesAlloc pages =>
      simp only [PageSystem.step, Option.some.injEq] at stepped
      subst next
      rcases allocated : system.mm.pagesAlloc pages with ⟨after, _ | address⟩
      · obtain rfl := pagesAlloc_none allocated
        exact owned
      · obtain ⟨start, nonempty, inside, free, rfl, rfl⟩ := pagesAlloc_some allocated
        exact owned.take nonempty inside free
  | pageFree address =>
      simp only [PageSystem.step] at stepped
      split at stepped
      · rename_i held
        simp only [Option.some.injEq] at stepped
        exact stepped ▸ pageFree_owned owned held
      · simp at stepped
  | pagesFree address pages =>
      simp only [PageSystem.step] at stepped
      split at stepped
      · rename_i held
        simp only [Option.some.injEq] at stepped
        exact stepped ▸ pagesFree_owned owned held
      · simp at stepped
  | store frame index value =>
      simp only [PageSystem.step] at stepped
      split at stepped
      · simp only [Option.some.injEq] at stepped
        subst next
        exact ⟨owned.bits, owned.placed, owned.apart, owned.counter⟩
      · simp at stepped

theorem PageSystem.run_owned {image : KernelImage} {memory : Memory} {actions : List PageAction}
    {final : PageSystem}
    (run : Transition.exec PageSystem.step (.boot image memory) actions = some final) :
    final.Owned image :=
  Transition.exec_invariant (PageSystem.step_owned image) (boot_owned image memory) run

/-- What a caller may rely on when it is handed `block`. -/
structure AllocationSound (image : KernelImage) (before : PageSystem) (block : Block)
    (after : Mm) : Prop where
  aligned : block.address % pageSize = 0
  above : ramBase ≤ block.address
  below : block.address + block.pages * pageSize ≤ ramBase + ramSize
  pastKernel : alignUp image.stackTop pageSize ≤ block.address
  disjoint : ∀ other ∈ before.live, ∀ frame, block.Covers frame → ¬other.Covers frame
  zeroed : ∀ frame, block.Covers frame → after.memory frame = fun _ => 0
  kept : ∀ other ∈ before.live, ∀ frame, other.Covers frame →
    after.memory frame = before.mm.memory frame

theorem PageSystem.Owned.take_sound {image : KernelImage} {system : PageSystem}
    (owned : system.Owned image) {start pages : Nat} (nonempty : 0 < pages)
    (inside : start + pages ≤ maxPages)
    (free : ∀ index, start ≤ index → index < start + pages → system.mm.isUsed index = false) :
    AllocationSound image system ⟨pageAddress start, pages⟩ (system.mm.take start pages) := by
  obtain ⟨placed, fresh⟩ := owned.free_run nonempty inside free
  have past := placed.pastKernel
  have above := image.above
  constructor
  · simp only [pageAddress_eq, pageSize]
    omega
  · simp only [pageAddress_eq, ramBase]
    omega
  · simp only [pageAddress_eq, ramBase, ramSize, pageSize, maxPages_eq] at inside ⊢
    omega
  · simp only [kernelPages, alignUp, ramBase, pageSize, pageAddress_eq] at past above ⊢
    omega
  · exact fresh
  · intro frame covered
    rw [take_memory, if_pos ((placed.covers_iff frame).mp covered)]
  · intro other member frame covered
    rw [take_memory, if_neg]
    intro range
    exact fresh other member frame ((placed.covers_iff frame).mpr range) covered

def Frees (block : Block) (action : PageAction) : Prop :=
  action = .pagesFree block.address block.pages ∨
    (block.pages = 1 ∧ action = .pageFree block.address)

theorem Frees.enabled {block : Block} {action : PageAction} (frees : Frees block action)
    {system : PageSystem} (held : block ∈ system.live) :
    ∃ next, system.step action = some next ∧ next.live = system.live.erase block := by
  rcases frees with rfl | ⟨single, rfl⟩
  · simp [PageSystem.step, held]
  · obtain ⟨address, pages⟩ := block
    subst single
    simp [PageSystem.step, held]

theorem PageSystem.free_all {order : List Block} {frees : List PageAction}
    (each : List.Forall₂ Frees order frees) :
    ∀ {system : PageSystem}, order.Perm system.live →
      ∃ emptied, Transition.exec PageSystem.step system frees = some emptied ∧
        emptied.live = [] := by
  induction each with
  | nil =>
      intro system all
      exact ⟨system, rfl, by simpa using all.symm⟩
  | cons frees _ ih =>
      rename_i block action blocks actions _
      intro system all
      have held : block ∈ system.live := all.mem_iff.mp (by simp)
      obtain ⟨next, stepped, live⟩ := frees.enabled held
      have rest : blocks.Perm next.live := by
        rw [live]
        simpa using all.erase block
      obtain ⟨emptied, run, empty⟩ := ih rest
      exact ⟨emptied, Transition.exec_cons_iff.mpr ⟨next, stepped, run⟩, empty⟩

theorem PageSystem.Owned.restored {image : KernelImage} {system : PageSystem}
    (owned : system.Owned image) (empty : system.live = []) (memory : Memory) :
    system.mm.pageBitmap = (mmInit image.stackTop memory).pageBitmap ∧
      system.mm.usedPages = (mmInit image.stackTop memory).usedPages := by
  constructor
  · apply Mm.ext_isUsed
    intro index
    rw [mmInit_isUsed, Bool.eq_iff_iff, owned.bits, empty]
    simp
  · rw [mmInit_usedPages, owned.counter, empty]
    simp

/-- Page ownership over every history of allocations, frees and stores by the owners. -/
theorem pageAllocator_ownership (image : KernelImage) (memory : Memory)
    (actions : List PageAction) (final : PageSystem)
    (run : Transition.exec PageSystem.step (.boot image memory) actions = some final) :
    (∀ after address, final.mm.pageAlloc = (after, some address) →
      AllocationSound image final ⟨address, 1⟩ after) ∧
    (∀ pages after address, final.mm.pagesAlloc pages = (after, some address) →
      AllocationSound image final ⟨address, pages⟩ after) ∧
    (∀ address, (final.mm.pageFree address).memory = final.mm.memory) ∧
    (∀ address pages, (final.mm.pagesFree address pages).memory = final.mm.memory) ∧
    (∀ order frees, order.Perm final.live → List.Forall₂ Frees order frees →
      ∃ emptied, Transition.exec PageSystem.step final frees = some emptied ∧
        emptied.mm.pageBitmap = (mmInit image.stackTop memory).pageBitmap ∧
        emptied.mm.usedPages = (mmInit image.stackTop memory).usedPages) := by
  have owned := PageSystem.run_owned run
  refine ⟨?_, ?_, fun _ => pageFree_memory _ _, fun _ _ => pagesFree_memory _ _ _, ?_⟩
  · intro after address allocated
    obtain ⟨index, bound, free, _, rfl, rfl⟩ := pageAlloc_some allocated
    refine owned.take_sound (by omega) (by omega) ?_
    intro query lower upper
    have same : query = index := by omega
    rw [same]
    exact free
  · intro pages after address allocated
    obtain ⟨start, nonempty, inside, free, rfl, rfl⟩ := pagesAlloc_some allocated
    exact owned.take_sound nonempty inside free
  · intro order frees all each
    obtain ⟨emptied, freed, empty⟩ := PageSystem.free_all each all
    have whole := PageSystem.run_owned (Transition.exec_append_iff.mpr ⟨final, run, freed⟩)
    exact ⟨emptied, freed, whole.restored empty memory⟩

theorem pageAllocator_ownership_two_blocks :
    let image : KernelImage := ⟨ramBase + pageSize, by decide, by decide⟩
    ∃ final, Transition.exec PageSystem.step (.boot image fun _ _ => 7)
        [.pageAlloc, .pagesAlloc 2] = some final ∧
      final.live = [⟨pageAddress 2, 2⟩, ⟨pageAddress 1, 1⟩] ∧
      (∀ after address, final.mm.pagesAlloc 3 = (after, some address) →
        AllocationSound image final ⟨address, 3⟩ after) := by
  intro image
  refine ⟨_, rfl, by decide +kernel, ?_⟩
  exact (pageAllocator_ownership image _ [.pageAlloc, .pagesAlloc 2] _ rfl).2.1 3

end DragoonKernel
