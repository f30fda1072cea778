import DragoonKernel.PageAccounting
import DragoonKernel.WmCalls
import DragoonKernel.Library.Ledger
import Mathlib.Order.Interval.Finset.Nat

/-!
The pixel buffers of the windows in the page allocator: from `wm_init` on, the used pages are
those of the start and the buffers of the visible windows.
-/

namespace DragoonKernel

-- The allocator's results below are matched on, and are not to be computed.
attribute [local irreducible] maxPages

/-- Two positive `int`s, as `wm_create_window` takes them. -/
structure ContentSize where
  w : Int
  h : Int
  wide : 0 < w
  wFits : w < 2 ^ 31
  tall : 0 < h
  hFits : h < 2 ^ 31

/-- `(buf_size + PAGE_SIZE - 1) / PAGE_SIZE` for `buf_size = (u64)w * (u64)h * 4`. -/
def windowPages (w h : Int) : Word :=
  (BitVec.ofInt 64 w * BitVec.ofInt 64 h * 4 + 4096 - 1) / 4096

/-- The window manager with the allocator below it. `taken` records, for each slot, the pages
that the creation of its window took. -/
structure WmSystem where
  wm : Wm
  mm : Mm
  taken : Nat → Nat → Bool

/-- The zeros that `memset` stores are there already. -/
def WmSystem.createWindow (system : WmSystem) (title : List (BitVec 8)) (x y w h : Int) :
    WmSystem × Int :=
  match (List.range wmMaxWindows).find? fun i => !(system.wm.windows i).visible with
  | none => (system, -1)
  | some _ =>
      let (mm, content) := system.mm.pagesAlloc (windowPages w h).toNat
      let (wm, id) := system.wm.wmCreateWindow title x y w h content
      ({ wm := wm
         mm := mm
         taken := if id < 0 then system.taken else Function.update system.taken id.toNat
          fun index => mm.isUsed index && !system.mm.isUsed index }, id)

def WmSystem.destroyWindow (system : WmSystem) (id : Int) : WmSystem :=
  match system.wm.visibleId id with
  | none => system
  | some slot =>
      let win := system.wm.windows slot
      { system with
        wm := system.wm.wmDestroyWindow id
        mm := match win.content with
          | some address =>
              system.mm.pagesFree address (windowPages win.contentW win.contentH).toNat
          | none => system.mm }

inductive WmSystemAction where
  | createWindow (title : List (BitVec 8)) (x y : Int) (size : ContentSize)
  | destroyWindow (id : Int)

def WmSystem.step (system : WmSystem) : WmSystemAction → Option WmSystem
  | .createWindow title x y size => some (system.createWindow title x y size.w size.h).1
  | .destroyWindow id => some (system.destroyWindow id)

def WmSystem.start (wm : Wm) (mm : Mm) : WmSystem := ⟨wmInit wm, mm, fun _ _ => false⟩

def WmWindow.bufferBytes (win : WmWindow) : Nat := (win.contentW * win.contentH * 4).toNat

/-- The bytes of the buffer in pages, rounded up. -/
def WmWindow.bufferPages (win : WmWindow) : Nat := (win.bufferBytes + (pageSize - 1)) / pageSize

/-- The pages of all visible windows. -/
def WmSystem.windowsPages (system : WmSystem) : Nat :=
  ∑ id ∈ Finset.range wmMaxWindows,
    if (system.wm.windows id).visible then (system.wm.windows id).bufferPages else 0

structure WmSystem.Conserved (base : Mm) (system : WmSystem) : Prop where
  used : system.mm.usedCount = base.usedCount + system.windowsPages
  counter : system.mm.usedPages = base.usedPages + BitVec.ofNat 64 system.windowsPages
  covers : ∀ id < wmMaxWindows, (system.wm.windows id).visible = true →
    ∃ address, (system.wm.windows id).content = some address ∧
      ∀ byte, address ≤ byte → byte < address + (system.wm.windows id).bufferBytes →
        ∃ index, system.taken id index = true ∧ pageAddress index ≤ byte ∧
          byte < pageAddress index + pageSize
  disjoint : ∀ id < wmMaxWindows, ∀ other < wmMaxWindows, id ≠ other →
    (system.wm.windows id).visible = true → (system.wm.windows other).visible = true →
      ∀ address otherAddress, (system.wm.windows id).content = some address →
        (system.wm.windows other).content = some otherAddress →
          address + (system.wm.windows id).bufferBytes ≤ otherAddress ∨
            otherAddress + (system.wm.windows other).bufferBytes ≤ address

/-- A failed creation takes nothing, and a destruction gives back what its creation took. -/
def WmSystem.StepConserves (system : WmSystem) (action : WmSystemAction) (after : WmSystem) :
    Prop :=
  match action with
  | .createWindow title x y size =>
      (system.createWindow title x y size.w size.h).2 = -1 → after.mm = system.mm
  | .destroyWindow id =>
      match system.wm.visibleId id with
      | none => after = system
      | some slot =>
          (∀ index, system.taken slot index = true → system.mm.isUsed index = true) ∧
            ∀ index, after.mm.isUsed index =
              (system.mm.isUsed index && !system.taken slot index)

/-- The buffer of a window lies at the pages that it has taken. -/
structure WmWindow.Backed (win : WmWindow) (taken : Nat → Bool) (start : Nat) : Prop where
  content : win.content = some (pageAddress start)
  size : (windowPages win.contentW win.contentH).toNat = win.bufferPages
  positive : 0 < win.bufferPages
  inside : start + win.bufferPages ≤ maxPages
  taken : ∀ index, taken index = true ↔ start ≤ index ∧ index < start + win.bufferPages

inductive BufferOwner where
  | initial
  | window (id : Nat)
deriving DecidableEq

def WmSystem.owns (base : Mm) (system : WmSystem) : BufferOwner → Nat → Prop
  | .initial, index => base.isUsed index = true
  | .window id, index => id < wmMaxWindows ∧ (system.wm.windows id).visible = true ∧
      system.taken id index = true

/-- The counter moves with the number of marked pages. -/
def Mm.SameDrift (mm after : Mm) : Prop :=
  after.usedPages - BitVec.ofNat 64 after.usedCount = mm.usedPages - BitVec.ofNat 64 mm.usedCount

structure WmSystem.Accounted (base : Mm) (system : WmSystem) : Prop where
  backed : ∀ id < wmMaxWindows, (system.wm.windows id).visible = true →
    ∃ start, (system.wm.windows id).Backed (system.taken id) start
  ledger : Ledger.Balanced (fun index => system.mm.isUsed index = true) (system.owns base)
  drift : base.SameDrift system.mm

variable {base mm after : Mm} {system : WmSystem} {win other : WmWindow}

theorem ContentSize.windowPages (size : ContentSize) :
    (windowPages size.w size.h).toNat = ((size.w * size.h * 4).toNat + (pageSize - 1)) / pageSize := by
  obtain ⟨w, h, wide, wFits, tall, hFits⟩ := size
  lift w to Nat using wide.le
  lift h to Nat using tall.le
  have product : w * h ≤ (2 ^ 31 - 1) * (2 ^ 31 - 1) := Nat.mul_le_mul (by omega) (by omega)
  have bytes : ((w : Int) * h * 4).toNat = w * h * 4 := by
    rw [← Nat.cast_mul]
    omega
  have word : (BitVec.ofInt 64 (w : Int) * BitVec.ofInt 64 (h : Int)).toNat = w * h := by
    rw [BitVec.ofInt_natCast, BitVec.ofInt_natCast, BitVec.toNat_mul, BitVec.toNat_ofNat,
      BitVec.toNat_ofNat, Nat.mod_eq_of_lt (by omega : w < 2 ^ 64),
      Nat.mod_eq_of_lt (by omega : h < 2 ^ 64)]
    exact Nat.mod_eq_of_lt (product.trans_lt (by decide))
  rw [bytes, ← word, DragoonKernel.windowPages]
  rw [← word] at product
  generalize BitVec.ofInt 64 (w : Int) * BitVec.ofInt 64 (h : Int) = area at product
  have sum : (area * 4 + 4096 - 1).toNat = area.toNat * 4 + (4096 - 1) := by
    rw [BitVec.toNat_sub, BitVec.toNat_add, BitVec.toNat_mul]
    simp only [BitVec.ofNat_eq_ofNat, BitVec.toNat_ofNat, Nat.reducePow, Nat.reduceMod] at product ⊢
    omega
  rw [BitVec.toNat_udiv, sum]
  rfl

theorem Mm.SameDrift.refl (mm : Mm) : mm.SameDrift mm := rfl

theorem Mm.SameDrift.trans {middle : Mm} (first : mm.SameDrift middle)
    (second : middle.SameDrift after) : mm.SameDrift after :=
  Eq.trans second first

theorem take_drift {start pages : Nat} (inside : start + pages ≤ maxPages)
    (free : ∀ index, start ≤ index → index < start + pages → mm.isUsed index = false) :
    mm.SameDrift (mm.take start pages) := by
  rw [Mm.SameDrift, take_usedPages, take_usedCount inside free, BitVec.ofNat_add]
  bv_omega

theorem release_drift {index : Nat} (inside : index < maxPages) (used : mm.isUsed index = true) :
    mm.SameDrift (mm.release index) := by
  rw [Mm.SameDrift, ← release_usedCount inside used, BitVec.ofNat_add]
  simp only [Mm.release]
  bv_omega

theorem pagesFree_drift (mm : Mm) (address pages : Nat) :
    mm.SameDrift (mm.pagesFree address pages) := by
  induction pages with
  | zero => exact .refl mm
  | succ pages ih =>
      refine ih.trans ?_
      rw [pagesFree_succ]
      rcases pageFree_cases (mm.pagesFree address pages) ((address + pages * pageSize) % 2 ^ 64) with
        same | ⟨index, inside, used, released⟩
      · rw [same]
        exact .refl _
      · rw [released]
        exact release_drift inside used

theorem WmWindow.SameButFocus.backed {taken : Nat → Bool} {start : Nat} (same : win.SameButFocus other)
    (backed : win.Backed taken start) : other.Backed taken start := by
  rw [same]
  exact ⟨backed.content, backed.size, backed.positive, backed.inside, backed.taken⟩

theorem WmSystem.Accounted.windowCard (accounted : system.Accounted base)
    [∀ owner, DecidablePred (system.owns base owner)] {id : Nat} (below : id < wmMaxWindows) :
    ((Finset.range maxPages).filter (system.owns base (.window id))).card =
      if (system.wm.windows id).visible then (system.wm.windows id).bufferPages else 0 := by
  split
  next visible =>
    obtain ⟨start, backed⟩ := accounted.backed id below visible
    have run : (Finset.range maxPages).filter (system.owns base (.window id)) =
        Finset.Ico start (start + (system.wm.windows id).bufferPages) := by
      have inside := backed.inside
      ext index
      simp only [Finset.mem_filter, Finset.mem_range, Finset.mem_Ico, WmSystem.owns, below, visible,
        true_and, backed.taken]
      constructor
      · exact fun both => both.2
      · exact fun range => ⟨by omega, range⟩
    rw [run, Nat.card_Ico, Nat.add_sub_cancel_left]
  next hidden =>
    have none : (Finset.range maxPages).filter (system.owns base (.window id)) = ∅ :=
      Finset.filter_eq_empty_iff.mpr fun index _ owned => hidden owned.2.1
    rw [none, Finset.card_empty]

theorem WmSystem.Accounted.usedCount (accounted : system.Accounted base) :
    system.mm.usedCount = base.usedCount + system.windowsPages := by
  classical
  have parts := accounted.ledger.card_used (Finset.range maxPages)
    (insert .initial ((Finset.range wmMaxWindows).image BufferOwner.window)) (by
    intro owner index _ owned
    simp only [Finset.mem_insert, Finset.mem_image, Finset.mem_range]
    cases owner with
    | initial => exact Or.inl rfl
    | window id => exact Or.inr ⟨id, owned.1, rfl⟩)
  rw [Finset.sum_insert (by simp), Finset.sum_image fun _ _ _ _ same => BufferOwner.window.inj same]
    at parts
  have windows : ∑ id ∈ Finset.range wmMaxWindows,
      ((Finset.range maxPages).filter (system.owns base (.window id))).card = system.windowsPages :=
    Finset.sum_congr rfl fun id below => accounted.windowCard (Finset.mem_range.mp below)
  have initial : ((Finset.range maxPages).filter (system.owns base .initial)).card =
      base.usedCount := by
    rw [Mm.usedCount]
    congr
  have all : ((Finset.range maxPages).filter fun index => system.mm.isUsed index = true).card =
      system.mm.usedCount := rfl
  rw [← all, ← initial, ← windows]
  exact parts

/-- Two runs of pages without a common page lie one after the other. -/
theorem Backed_apart {taken otherTaken : Nat → Bool} {start otherStart : Nat}
    (backed : win.Backed taken start) (alsoBacked : other.Backed otherTaken otherStart)
    (apart : ∀ index, taken index = true → ¬otherTaken index = true) :
    start + win.bufferPages ≤ otherStart ∨ otherStart + other.bufferPages ≤ start := by
  by_contra overlap
  have positive := backed.positive
  have alsoPositive := alsoBacked.positive
  have common := apart (max start otherStart)
  rw [backed.taken, alsoBacked.taken] at common
  omega

theorem bufferBytes_le (win : WmWindow) : win.bufferBytes ≤ win.bufferPages * pageSize := by
  simp only [WmWindow.bufferPages, pageSize]
  omega

theorem WmSystem.Accounted.conserved (accounted : system.Accounted base) :
    system.Conserved base := by
  refine ⟨accounted.usedCount, ?_, ?_, ?_⟩
  · have drift := accounted.drift
    rw [Mm.SameDrift, accounted.usedCount, BitVec.ofNat_add] at drift
    bv_omega
  · intro id below visible
    obtain ⟨start, backed⟩ := accounted.backed id below visible
    refine ⟨pageAddress start, backed.content, fun byte lower upper => ?_⟩
    have fits := bufferBytes_le (system.wm.windows id)
    simp only [pageAddress_eq, pageSize] at lower upper fits ⊢
    refine ⟨start + (byte - (0x40000000 + start * 4096)) / 4096, (backed.taken _).mpr ?_, ?_⟩
    · omega
    · omega
  · intro id below third inside different visible alsoVisible address otherAddress content
      otherContent
    obtain ⟨start, backed⟩ := accounted.backed id below visible
    obtain ⟨otherStart, alsoBacked⟩ := accounted.backed third inside alsoVisible
    obtain rfl := Option.some.inj (content.symm.trans backed.content)
    obtain rfl := Option.some.inj (otherContent.symm.trans alsoBacked.content)
    have apart := Backed_apart backed alsoBacked fun index one two =>
      different (BufferOwner.window.inj (accounted.ledger.unique (.window id) (.window third) index
        ⟨below, visible, one⟩ ⟨inside, alsoVisible, two⟩))
    have fits := bufferBytes_le (system.wm.windows id)
    have otherFits := bufferBytes_le (system.wm.windows third)
    simp only [pageAddress_eq, pageSize] at fits otherFits ⊢
    omega

theorem WmSystem.Accounted.takenUsed (accounted : system.Accounted base) {id index : Nat}
    (below : id < wmMaxWindows) (visible : (system.wm.windows id).visible = true)
    (taken : system.taken id index = true) : system.mm.isUsed index = true :=
  (accounted.ledger.used_iff index).mpr ⟨.window id, below, visible, taken⟩

/-- A creation without memory leaves the windows that are shown, and all pages. -/
theorem WmSystem.Accounted.keep {wm : Wm} (accounted : system.Accounted base)
    (visible : ∀ id, (wm.windows id).visible = (system.wm.windows id).visible)
    (same : ∀ id, (system.wm.windows id).visible = true → wm.windows id = system.wm.windows id) :
    WmSystem.Accounted base { system with wm := wm } where
  backed id below shown := by
    rw [visible] at shown
    simp only [same id shown]
    exact accounted.backed id below shown
  ledger := by
    refine accounted.ledger.congr (fun _ => Iff.rfl) fun owner index => ?_
    cases owner with
    | initial => exact Iff.rfl
    | window id => simp only [WmSystem.owns, visible]
  drift := accounted.drift

/-- The window that `wm_create_window` shows in `id` owns the pages that were free before. -/
theorem WmSystem.Accounted.show {wm : Wm} {title : List (BitVec 8)} {x y : Int} {id start : Nat}
    (accounted : system.Accounted base) (size : ContentSize)
    (below : id < wmMaxWindows) (hidden : (system.wm.windows id).visible = false)
    (positive : 0 < (windowPages size.w size.h).toNat)
    (inside : start + (windowPages size.w size.h).toNat ≤ maxPages)
    (free : ∀ index, start ≤ index → index < start + (windowPages size.w size.h).toNat →
      system.mm.isUsed index = false)
    (table : ∀ other, (system.wm.showing id ((system.wm.windows id).placed title x y size.w size.h
      (some (pageAddress start))) other).SameButFocus (wm.windows other)) :
    WmSystem.Accounted base {
      wm := wm
      mm := system.mm.take start (windowPages size.w size.h).toNat
      taken := Function.update system.taken id fun index =>
        (system.mm.take start (windowPages size.w size.h).toNat).isUsed index &&
          !system.mm.isUsed index } := by
  have fresh : ∀ index, ((system.mm.take start (windowPages size.w size.h).toNat).isUsed index &&
      !system.mm.isUsed index) = true ↔
        start ≤ index ∧ index < start + (windowPages size.w size.h).toNat := by
    intro index
    rw [take_isUsed]
    constructor
    · intro gained
      cases used : system.mm.isUsed index <;> simp_all
    · intro range
      simp [range, free index range.1 range.2]
  have visible : ∀ other, (wm.windows other).visible = true ↔
      other = id ∨ (system.wm.windows other).visible = true := by
    intro other
    rw [(table other).visible, Wm.showing]
    by_cases here : other = id
    · simp [here]
    · simp [here]
  refine ⟨fun other bound shown => ?_, ?_, accounted.drift.trans (take_drift inside free)⟩
  · by_cases here : other = id
    · subst here
      have pages : ((system.wm.windows other).placed title x y size.w size.h
          (some (pageAddress start))).bufferPages = (windowPages size.w size.h).toNat :=
        size.windowPages.symm
      refine ⟨start, (table other).backed ?_⟩
      rw [Wm.showing, Function.update_self]
      refine ⟨rfl, pages.symm, pages ▸ positive, pages ▸ inside, fun index => ?_⟩
      simp only [Function.update_self]
      refine (fresh index).trans ?_
      rw [← pages]
      rfl
    · obtain ⟨begins, backed⟩ := accounted.backed other bound
        (((visible other).mp shown).resolve_left here)
      refine ⟨begins, (table other).backed ?_⟩
      rw [Wm.showing, Function.update_of_ne here]
      simp only [Function.update_of_ne here]
      exact backed
  · refine (accounted.ledger.gain (.window id) (fun index => start ≤ index ∧
      index < start + (windowPages size.w size.h).toNat) fun index range => ?_).congr ?_ ?_
    · rw [free index range.1 range.2]
      decide
    · intro index
      rw [take_isUsed, Bool.or_eq_true, decide_eq_true_eq, or_comm]
    · intro owner index
      cases owner with
      | initial => simp [WmSystem.owns]
      | window other =>
          simp only [WmSystem.owns, visible, BufferOwner.window.injEq]
          by_cases here : other = id
          · subst here
            rw [Function.update_self, fresh index]
            simp [below, hidden]
          · simp [here]

theorem WmSystem.Accounted.createWindow (accounted : system.Accounted base)
    (title : List (BitVec 8)) (x y : Int) (size : ContentSize) :
    (system.createWindow title x y size.w size.h).1.Accounted base ∧
      ((system.createWindow title x y size.w size.h).2 = -1 →
        (system.createWindow title x y size.w size.h).1.mm = system.mm) := by
  unfold WmSystem.createWindow
  split
  next => exact ⟨accounted, fun _ => rfl⟩
  next first found =>
    obtain ⟨hidden, listed, _⟩ := List.find?_range_eq_some.mp found
    rcases allocated : system.mm.pagesAlloc (windowPages size.w size.h).toNat with ⟨mm, content⟩
    dsimp only
    obtain ⟨_, all⟩ | ⟨id, below, unshown, ⟨rfl, same⟩ | ⟨address, rfl, result, _, table⟩⟩ :=
      createWindow_cases system.wm title x y size.w size.h content
    · rw [all first (List.mem_range.mp listed)] at hidden
      cases hidden
    · obtain rfl := pagesAlloc_none allocated
      rw [same, if_pos (show (-1 : Int) < 0 by decide)]
      refine ⟨accounted.keep (fun other => ?_) fun other shown => ?_, fun _ => rfl⟩
      · dsimp only
        refine modify_visible ?_ other
        rfl
      · dsimp only
        refine modify_other _ _ ?_
        rintro rfl
        rw [unshown] at shown
        cases shown
    · obtain ⟨start, positive, inside, free, rfl, rfl⟩ := pagesAlloc_some allocated
      rw [result, if_neg (by omega), Int.toNat_natCast]
      exact ⟨accounted.show size below unshown positive inside free table,
        fun failed => absurd failed (by omega)⟩

theorem WmSystem.Accounted.destroyWindow (accounted : system.Accounted base) {id : Int}
    {slot : Nat} (shown : system.wm.visibleId id = some slot) :
    (system.destroyWindow id).Accounted base ∧ ∀ index, (system.destroyWindow id).mm.isUsed index =
      (system.mm.isUsed index && !system.taken slot index) := by
  obtain ⟨_, below, visible⟩ := visibleId_eq_some.mp shown
  obtain ⟨start, backed⟩ := accounted.backed slot below visible
  have frees : system.destroyWindow id = { system with
      wm := system.wm.wmDestroyWindow id
      mm := system.mm.pagesFree (pageAddress start) (system.wm.windows slot).bufferPages } := by
    simp only [WmSystem.destroyWindow, shown, backed.content, backed.size]
  obtain ⟨bits, _⟩ := pagesFree_run system.mm start (system.wm.windows slot).bufferPages
    backed.inside fun index lower upper =>
      accounted.takenUsed below visible ((backed.taken index).mpr ⟨lower, upper⟩)
  have marks : ∀ index, (system.destroyWindow id).mm.isUsed index =
      (system.mm.isUsed index && !system.taken slot index) := by
    intro index
    have range := backed.taken index
    rw [frees, bits, Bool.and_comm]
    congr 2
    rw [Bool.eq_iff_iff, range, decide_eq_true_eq]
  have table := (destroyWindow_windows shown).2
  have remains : ∀ other, ((system.wm.wmDestroyWindow id).windows other).visible = true ↔
      (system.wm.windows other).visible = true ∧ other ≠ slot := by
    intro other
    rw [(table other).visible, Wm.hiding]
    by_cases here : other = slot
    · simp [here]
    · simp [here]
  refine ⟨⟨fun other bound still => ?_, ?_, ?_⟩, marks⟩
  · simp only [frees] at still ⊢
    obtain ⟨before, different⟩ := (remains other).mp still
    obtain ⟨begins, otherBacked⟩ := accounted.backed other bound before
    refine ⟨begins, (table other).backed ?_⟩
    rw [Wm.hiding, Function.update_of_ne different]
    exact otherBacked
  · refine (accounted.ledger.giveUp fun owner => owner = .window slot).congr ?_ ?_
    · intro index
      rw [marks, Bool.and_eq_true, Bool.not_eq_true', Bool.eq_false_iff]
      refine and_congr_right fun used => ?_
      constructor
      · rintro kept owner rfl owned
        exact kept owned.2.2
      · exact fun kept taken => kept _ rfl ⟨below, visible, taken⟩
    · intro owner index
      rw [frees]
      cases owner with
      | initial => simp [WmSystem.owns]
      | window other =>
          simp only [WmSystem.owns, remains, BufferOwner.window.injEq]
          constructor
          · rintro ⟨bound, ⟨before, different⟩, taken⟩
            exact ⟨⟨bound, before, taken⟩, different⟩
          · rintro ⟨⟨bound, before, taken⟩, different⟩
            exact ⟨bound, ⟨before, different⟩, taken⟩
  · rw [frees]
    exact accounted.drift.trans (pagesFree_drift _ _ _)

theorem WmSystem.Accounted.step {action : WmSystemAction} {after : WmSystem}
    (accounted : system.Accounted base) (stepped : system.step action = some after) :
    after.Accounted base ∧ system.StepConserves action after := by
  cases action with
  | createWindow title x y size =>
      obtain rfl := Option.some.inj stepped
      exact accounted.createWindow title x y size
  | destroyWindow id =>
      obtain rfl := Option.some.inj stepped
      cases shown : system.wm.visibleId id with
      | none =>
          have same : system.destroyWindow id = system := by
            rw [WmSystem.destroyWindow, shown]
          rw [same]
          refine ⟨accounted, ?_⟩
          simp only [WmSystem.StepConserves, shown]
      | some slot =>
          obtain ⟨next, marks⟩ := accounted.destroyWindow shown
          obtain ⟨_, below, visible⟩ := visibleId_eq_some.mp shown
          refine ⟨next, ?_⟩
          simp only [WmSystem.StepConserves, shown]
          exact ⟨fun index taken => accounted.takenUsed below visible taken, marks⟩

theorem wmStart_accounted (wm : Wm) (mm : Mm) : (WmSystem.start wm mm).Accounted mm := by
  have hidden : ∀ id < wmMaxWindows, ((WmSystem.start wm mm).wm.windows id).visible = false := by
    intro id below
    simp [WmSystem.start, wmInit, below]
  refine ⟨fun id below visible => ?_, ⟨fun index => ?_, ?_⟩, .refl mm⟩
  · rw [hidden id below] at visible
    cases visible
  · constructor
    · exact fun used => ⟨.initial, used⟩
    · rintro ⟨_ | id, owned⟩
      · exact owned
      · have shown := owned.2.1
        rw [hidden id owned.1] at shown
        cases shown
  · rintro (_ | id) (_ | other) index owned also
    · rfl
    · cases (hidden other also.1).symm.trans also.2.1
    · cases (hidden id owned.1).symm.trans owned.2.1
    · cases (hidden id owned.1).symm.trans owned.2.1

/-- For every state of the allocator in which `wm_init` finds it. -/
theorem wmBuffers_conserved (wm : Wm) (mm : Mm) (actions : List WmSystemAction) :
    Transition.EveryState WmSystem.step (WmSystem.Conserved mm) (.start wm mm) actions ∧
      Transition.EveryStep WmSystem.step WmSystem.StepConserves (.start wm mm) actions := by
  have keeps : ∀ (system : WmSystem) action after, system.Accounted mm →
      system.step action = some after →
      after.Accounted mm ∧ system.StepConserves action after :=
    fun _ _ _ accounted stepped => accounted.step stepped
  refine ⟨(Transition.everyState_of_invariant ?_ (wmStart_accounted wm mm) actions).mono
    fun _ accounted => accounted.conserved,
    Transition.everyStep_of_invariant keeps (wmStart_accounted wm mm) actions⟩
  exact fun system action after accounted stepped => (keeps system action after accounted stepped).1

end DragoonKernel
