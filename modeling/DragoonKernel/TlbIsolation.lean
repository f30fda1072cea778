import DragoonKernel.TaskRoots
import DragoonKernel.TlbCore

/-!
Lookups through the TLB while address spaces take turns on the CPUs. The leaves of
`PAGE_NORMAL` and `PAGE_DEVICE` are global, so the ASID does not keep those of one space
from the next: lookups stay right exactly when a CPU changes to no space that disagrees
with what it has cached, and no cached page of the space on a CPU is mapped anew.
-/

namespace DragoonKernel

variable {image : KernelImage} {tables : KernelTables image}

theorem walkFrom_leaf (memory : Memory) (vaddr height table : Nat) :
    walkFrom memory vaddr height table =
      (leafFrom memory vaddr height table).map fun leaf => leafTranslation leaf.1 vaddr leaf.2 := by
  induction height generalizing table with
  | zero =>
      simp only [walkFrom, leafFrom]
      split <;> rfl
  | succ height ih =>
      simp only [walkFrom, leafFrom]
      split
      · rfl
      · split
        · exact ih _
        · split <;> rfl

theorem walk_leaf (memory : Memory) (pgd vaddr : Nat) :
    walk memory pgd vaddr =
      (walkLeaf memory pgd vaddr).map fun leaf => leafTranslation leaf.1 vaddr leaf.2 := by
  unfold walk walkLeaf
  split
  · exact walkFrom_leaf memory vaddr 3 pgd
  · rfl

theorem leafFrom_size {memory : Memory} {vaddr height table size : Nat} {leaf : Word}
    (found : leafFrom memory vaddr height table = some (leaf, size)) :
    size ∣ 2 ^ (12 + 9 * height) := by
  induction height generalizing table with
  | zero =>
      simp only [leafFrom, Option.ite_none_right_eq_some, Option.some.injEq, Prod.mk.injEq] at found
      obtain ⟨_, _, rfl⟩ := found
      exact Nat.dvd_refl _
  | succ height ih =>
      simp only [leafFrom] at found
      split at found
      · cases found
      · split at found
        · exact Nat.dvd_trans (ih found) (Nat.pow_dvd_pow 2 (by omega))
        · split at found
          · cases found
          · simp only [Option.some.injEq, Prod.mk.injEq] at found
            exact found.2 ▸ Nat.dvd_refl _

theorem tableIndex_of_block {first second size shift : Nat} (divides : size ∣ 2 ^ shift)
    (same : first / size = second / size) : tableIndex first shift = tableIndex second shift := by
  obtain ⟨count, power⟩ := divides
  rw [tableIndex_eq_iff, power, ← Nat.div_div_eq_div_mul, ← Nat.div_div_eq_div_mul, same]

theorem leafFrom_block {memory : Memory} {vaddr address height table size : Nat} {leaf : Word}
    (found : leafFrom memory vaddr height table = some (leaf, size))
    (same : address / size = vaddr / size) :
    leafFrom memory address height table = some (leaf, size) := by
  have index := tableIndex_of_block (leafFrom_size found) same
  induction height generalizing table with
  | zero => rwa [leafFrom, index]
  | succ height ih =>
      simp only [leafFrom, index] at found ⊢
      split
      next invalid => rwa [if_pos invalid] at found
      next valid =>
        rw [if_neg valid] at found
        split
        next isTable =>
          rw [if_pos isTable] at found
          exact ih found (tableIndex_of_block (leafFrom_size found) same)
        next isBlock => rwa [if_neg isBlock] at found

theorem walkLeaf_block {memory : Memory} {pgd vaddr address size : Nat} {leaf : Word}
    (found : walkLeaf memory pgd vaddr = some (leaf, size)) (bound : address < 2 ^ 48)
    (same : address / size = vaddr / size) :
    walk memory pgd address = some (leafTranslation leaf address size) := by
  unfold walkLeaf at found
  split at found
  · rw [walk_leaf, walkLeaf, if_pos bound, leafFrom_block found same]
    rfl
  · cases found

theorem ttbr0Asid_task {mm : Mm} {space : AddressSpace} (page : TablePage mm space.pgd)
    (bound : space.asid < asidMax) : ttbr0Asid (taskTtbr0 space) = space.asid := by
  obtain ⟨index, inside, address, _⟩ := page
  obtain ⟨low, _⟩ := pageAddress_low inside
  rw [← address] at low
  have present : space.pgd ≠ 0 := by
    rw [address, pageAddress_eq]
    omega
  rw [asidMax] at bound
  rw [ttbr0Asid, taskTtbr0, if_neg present, BitVec.toNat_ushiftRight, BitVec.toNat_or,
    BitVec.toNat_shiftLeft, BitVec.toNat_ofNat, BitVec.toNat_ofNat, Nat.mod_eq_of_lt (by omega),
    Nat.mod_eq_of_lt (by omega), Nat.shiftRight_or_distrib, Nat.shiftLeft_eq,
    Nat.mod_eq_of_lt (by omega), Nat.shiftRight_eq_div_pow, Nat.div_eq_of_lt low,
    Nat.shiftRight_eq_div_pow, Nat.mul_div_cancel _ (by decide), Nat.zero_or]

/-- What a PAGE_NORMAL or PAGE_DEVICE leaf translates, it translates under every ASID. -/
theorem pageEntry_matches {paddr page size asid : Nat} {flags : Word}
    (allowed : flags = pageNormal ∨ flags = pageDevice) {vaddr : Nat}
    (inside : vaddr / size = page) (current : Nat) :
    TlbEntry.Matches ⟨page, size, asid, pageEntry paddr flags⟩ vaddr current := by
  refine ⟨inside, Or.inl ?_⟩
  have clear : (BitVec.ofNat 64 paddr &&& ~~~0xFFF#64).getLsbD 11 = false := by
    rw [BitVec.getLsbD_and, getLsbD_pageMask _ (by decide)]
    exact Bool.and_false _
  have global : hasBit (pageEntry paddr flags) (BitVec.twoPow 64 11) = flags.getLsbD 11 := by
    rw [hasBit_twoPow _ _ (by decide), pageEntry, BitVec.getLsbD_or, clear, Bool.false_or]
  exact global.trans (by rcases allowed with rfl | rfl <;> decide)

/-- An address that the space does not share with the kernel: L0 index 1 to 511. -/
def OwnAddress (vaddr : Nat) : Prop := vaddr < 2 ^ 48 ∧ tableIndex vaddr 39 ≠ 0

/-- The lookups on a CPU that has switched to a space give what its page table gives. -/
def TlbIsolated (system : TlbSystem) : Prop :=
  ∀ cpu space, system.current cpu = some space → ∀ vaddr, OwnAddress vaddr →
    ∀ translation, system.Yields cpu vaddr translation →
      walk system.vm.vm.mm.memory space.pgd vaddr = some translation

/-- Every cached leaf that matches under the ASID of the space is one of its own. -/
def AgreesWith (system : TlbSystem) (cpu : Nat) (space : AddressSpace) : Prop :=
  ∀ entry ∈ system.tlb cpu, ∀ vaddr, OwnAddress vaddr → entry.Matches vaddr space.asid →
    walk system.vm.vm.mm.memory space.pgd vaddr = some (entry.translate vaddr)

/-- The condition at each context switch and at each `mm_map_page`. -/
def KeepsCached (system : TlbSystem) (action : TlbAction) (_ : TlbSystem) : Prop :=
  match action with
  | .switch cpu space => AgreesWith system cpu space
  | .vm (.map pgd vaddr paddr flags) => OwnAddress vaddr →
      ∀ cpu space, system.current cpu = some space → space.pgd = pgd →
        ∀ entry ∈ system.tlb cpu, ∀ address, address / pageSize = vaddr / pageSize →
          entry.Matches address space.asid → entry.translate address =
            ⟨paddr / pageSize * pageSize + address % pageSize, flags⟩
  | _ => True

/-- Only pages are mapped in the half that a space does not share. -/
def VmSystem.OwnPages (tables : KernelTables image) (system : VmSystem) : Prop :=
  ∀ root ∈ system.roots tables, ∀ vaddr, OwnAddress vaddr → ∀ translation,
    walk system.vm.mm.memory root vaddr = some translation →
      hasBit translation.attributes pteTable = true

structure TlbCoherent (tables : KernelTables image) (system : TlbSystem) : Prop where
  consistent : system.vm.Consistent tables
  pages : system.vm.OwnPages tables
  running : ∀ cpu space, system.current cpu = some space →
    space ∈ system.vm.spaces ∧ system.ttbr0 cpu = taskTtbr0 space
  agrees : ∀ cpu space, system.current cpu = some space → AgreesWith system cpu space

variable {system next : TlbSystem}

theorem TlbCoherent.decode (coherent : TlbCoherent tables system) {cpu : Nat} {space : AddressSpace}
    (current : system.current cpu = some space) :
    ttbr0Root (system.ttbr0 cpu) = space.pgd ∧ ttbr0Asid (system.ttbr0 cpu) = space.asid := by
  obtain ⟨live, loaded⟩ := coherent.running cpu space current
  have page := coherent.consistent.sound.forest.rootPage (system.vm.space_mem_roots live)
  rw [loaded]
  exact ⟨ttbr0Root_task page, ttbr0Asid_task page (coherent.consistent.asids.bound space live)⟩

theorem TlbCoherent.tlbIsolated (coherent : TlbCoherent tables system) : TlbIsolated system := by
  intro cpu space current vaddr own translation yields
  obtain ⟨root, asid⟩ := coherent.decode current
  rcases yields with ⟨entry, cached, matched, rfl⟩ | walked
  · exact coherent.agrees cpu space current entry cached vaddr own (asid ▸ matched)
  · rwa [root] at walked

structure MapWalks (tables : KernelTables image) (system : VmSystem) (pgd vaddr paddr : Nat)
    (flags : Word) (after : Memory) : Prop where
  otherPages : ∀ root ∈ system.roots tables, ∀ address, address / pageSize ≠ vaddr / pageSize →
    walk after root address = walk system.vm.mm.memory root address
  otherRoots : tableIndex vaddr 39 ≠ 0 → ∀ root ∈ system.roots tables, root ≠ pgd → ∀ address,
    walk after root address = walk system.vm.mm.memory root address
  page : (∀ address, address / pageSize = vaddr / pageSize → walk after pgd address =
      some ⟨paddr / pageSize * pageSize + address % pageSize, flags⟩) ∨
    ∀ address, address / pageSize = vaddr / pageSize →
      walk after pgd address = walk system.vm.mm.memory pgd address ∧
      ∀ translation, walk system.vm.mm.memory pgd address = some translation →
        hasBit translation.attributes pteTable = false

theorem VmSystem.Sound.mapWalks {system : VmSystem} (sound : system.Sound tables)
    {pgd vaddr paddr : Nat} {flags : Word} (isRoot : pgd ∈ system.roots tables)
    (bound : vaddr < 2 ^ 48) (paddrBound : paddr < 2 ^ 48)
    (allowed : flags = pageNormal ∨ flags = pageDevice) :
    MapWalks tables system pgd vaddr paddr flags
      (system.vm.mm.mapPage pgd vaddr paddr flags).memory := by
  have otherRoots := (sound.map isRoot bound paddr flags).2
  rcases mapPage_outcome sound.forest isRoot vaddr paddr flags with
    ⟨level, table, same, shallow, reached, stopped⟩ | ⟨middle, leaf, same, located, write⟩
  · refine ⟨fun root member address _ => same.walks root member address, otherRoots, Or.inr ?_⟩
    intro address samePage
    refine ⟨same.walks pgd isRoot address, ?_⟩
    intro translation found
    have low : address < 2 ^ 48 := by
      simp only [pageSize] at samePage
      omega
    rw [← same.walks pgd isRoot] at found
    rw [← walkPath_of_page samePage level (by omega)] at reached
    rw [← tableIndex_of_page samePage (by omega)] at stopped
    exact walk_of_stopped same.forest isRoot low shallow reached stopped found
  · refine ⟨?_, otherRoots, Or.inl ?_⟩
    · intro root member address apart
      rw [write.walk_other same.forest bound isRoot located member (Or.inl apart)]
      exact same.walks root member address
    · have lowBits : flags &&& 3 = 3 := by rcases allowed with rfl | rfl <;> decide
      have attributes : flags &&& outputMask = 0 := by rcases allowed with rfl | rfl <;> decide
      intro address samePage
      obtain ⟨valid, isPage⟩ := pageEntry_valid lowBits paddr
      rw [write.walk_page same.forest bound isRoot located samePage valid isPage,
        leafTranslation_pageEntry paddrBound attributes]

theorem walk_unmapped {memory : Memory} {root vaddr : Nat}
    (empty : readEntry memory root (tableIndex vaddr 39) = 0) : walk memory root vaddr = none := by
  unfold walk
  split
  · exact walkFrom_invalid (by rw [empty]; exact hasBit_zero _)
  · rfl

theorem ownAddress_of_page {address vaddr : Nat} (same : address / pageSize = vaddr / pageSize)
    (own : OwnAddress address) : OwnAddress vaddr := by
  obtain ⟨bound, ownHalf⟩ := own
  rw [tableIndex_of_page same (by omega)] at ownHalf
  simp only [pageSize] at same
  exact ⟨by omega, ownHalf⟩

theorem TlbCoherent.keep (coherent : TlbCoherent tables system) {vm : VmSystem}
    {current : Nat → Option AddressSpace} (consistent : vm.Consistent tables)
    (pages : vm.OwnPages tables)
    (running : ∀ cpu space, current cpu = some space →
      system.current cpu = some space ∧ space ∈ vm.spaces)
    (walks : ∀ cpu space, current cpu = some space → ∀ entry ∈ system.tlb cpu, ∀ vaddr,
      OwnAddress vaddr → entry.Matches vaddr space.asid →
      walk system.vm.vm.mm.memory space.pgd vaddr = some (entry.translate vaddr) →
      walk vm.vm.mm.memory space.pgd vaddr = some (entry.translate vaddr)) :
    TlbCoherent tables { system with vm := vm, current := current } := by
  refine ⟨consistent, pages, ?_, ?_⟩
  · intro cpu space now
    obtain ⟨before, live⟩ := running cpu space now
    exact ⟨live, (coherent.running cpu space before).2⟩
  · intro cpu space now entry cached vaddr own matched
    have before := (running cpu space now).1
    exact walks cpu space now entry cached vaddr own matched
      (coherent.agrees cpu space before entry cached vaddr own matched)

theorem TlbCoherent.create (coherent : TlbCoherent tables system) {vm : VmSystem}
    (created : system.vm.step tables .create = some vm) :
    TlbCoherent tables { system with vm := vm } := by
  obtain ⟨consistent, _⟩ := coherent.consistent.step created
  have sound := coherent.consistent.sound
  rcases step_create system.vm (sound.forest.rootPage system.vm.kernel_mem_roots) with
    ⟨_, unchanged⟩ | ⟨fresh, mm, new, filled⟩
  · rw [unchanged] at created
    obtain rfl := Option.some.inj created
    exact coherent
  · rw [filled] at created
    obtain rfl := Option.some.inj created
    have walks := (sound.forest.addRoot system.vm.kernel_mem_roots new).2
    refine coherent.keep consistent ?_ ?_ ?_
    · have old : ∀ root ∈ system.vm.roots tables, ∀ vaddr, OwnAddress vaddr → ∀ translation,
          walk mm.memory root vaddr = some translation →
            hasBit translation.attributes pteTable = true := by
        intro root member vaddr own translation found
        rw [walks root member] at found
        exact coherent.pages root member vaddr own translation found
      rintro root (rfl | listed) vaddr own translation found
      · exact old _ system.vm.kernel_mem_roots vaddr own translation found
      · rcases List.mem_cons.mp listed with rfl | before
        · rw [walk_unmapped (new.empty _ own.2)] at found
          cases found
        · exact old root (Or.inr before) vaddr own translation found
    · intro cpu space current
      exact ⟨current, List.mem_cons_of_mem _ (coherent.running cpu space current).1⟩
    · intro cpu space current entry _ vaddr _ _ before
      rw [walks _ (system.vm.space_mem_roots (coherent.running cpu space current).1)]
      exact before

theorem TlbCoherent.destroy (coherent : TlbCoherent tables system) {space : AddressSpace} {vm : VmSystem}
    (destroyed : system.vm.step tables (.destroy space) = some vm) :
    TlbCoherent tables { system with vm := vm, current := system.afterVm (.destroy space) } := by
  obtain ⟨consistent, _⟩ := coherent.consistent.step destroyed
  simp only [VmSystem.step, Option.ite_none_right_eq_some, Option.some.injEq] at destroyed
  obtain ⟨live, rfl⟩ := destroyed
  obtain ⟨_, memory⟩ := coherent.consistent.sound.destroy live
  have runs : ∀ cpu other, system.afterVm (.destroy space) cpu = some other →
      system.current cpu = some other ∧ other ≠ space := by
    intro cpu other current
    simp only [TlbSystem.afterVm] at current
    split at current
    next => cases current
    next different => exact ⟨current, fun same => different (same ▸ current)⟩
  refine coherent.keep consistent ?_ ?_ ?_
  · intro root member vaddr own translation found
    have before := ((coherent.consistent.sound.roots_erase live _ root).mp member).1
    rw [memory] at found
    exact coherent.pages root before vaddr own translation found
  · intro cpu other current
    obtain ⟨before, different⟩ := runs cpu other current
    exact ⟨before, (List.mem_erase_of_ne different).mpr (coherent.running cpu other before).1⟩
  · intro cpu other _ entry _ vaddr _ _ before
    rw [memory]
    exact before

theorem TlbCoherent.map (coherent : TlbCoherent tables system) {pgd vaddr paddr : Nat} {flags : Word}
    {vm : VmSystem} (mapped : system.vm.step tables (.map pgd vaddr paddr flags) = some vm)
    (kept : KeepsCached system (.vm (.map pgd vaddr paddr flags)) next) :
    TlbCoherent tables { system with vm := vm } := by
  obtain ⟨consistent, _⟩ := coherent.consistent.step mapped
  simp only [VmSystem.step, Option.ite_none_right_eq_some, Option.some.injEq] at mapped
  obtain ⟨⟨isRoot, bound, paddrBound, allowed⟩, rfl⟩ := mapped
  have walks := coherent.consistent.sound.mapWalks isRoot bound paddrBound allowed
  refine coherent.keep consistent ?_ ?_ ?_
  · intro root member address own translation found
    have before := coherent.pages root member address own translation
    by_cases apart : address / pageSize = vaddr / pageSize
    · by_cases other : root = pgd
      · subst other
        rcases walks.page with changed | same
        · have now := (changed address apart).symm.trans found
          obtain rfl := Option.some.inj now
          have isPage : hasBit flags pteTable = true := by
            rcases allowed with rfl | rfl <;> decide
          exact isPage
        · exact before ((same address apart).1 ▸ found)
      · have ownHalf := (ownAddress_of_page apart own).2
        exact before ((walks.otherRoots ownHalf root member other address) ▸ found)
    · exact before ((walks.otherPages root member address apart) ▸ found)
  · exact fun cpu space current => ⟨current, (coherent.running cpu space current).1⟩
  · intro cpu space current entry cached address own matched before
    have member : space.pgd ∈ system.vm.roots tables :=
      system.vm.space_mem_roots (coherent.running cpu space current).1
    by_cases apart : address / pageSize = vaddr / pageSize
    · have ownPage := ownAddress_of_page apart own
      by_cases other : space.pgd = pgd
      · rcases walks.page with changed | same
        · rw [other, changed address apart]
          exact congrArg some
            (kept ownPage cpu space current other entry cached address apart matched).symm
        · rw [other, (same address apart).1, ← other]
          exact before
      · rw [walks.otherRoots ownPage.2 space.pgd member other]
        exact before
    · rw [walks.otherPages space.pgd member address apart]
      exact before

theorem TlbCoherent.switch (coherent : TlbCoherent tables system) {cpu : Nat} {space : AddressSpace}
    (live : space ∈ system.vm.spaces) (agrees : AgreesWith system cpu space) :
    TlbCoherent tables { system with
      ttbr0 := Function.update system.ttbr0 cpu (taskTtbr0 space)
      current := Function.update system.current cpu (some space) } := by
  refine ⟨coherent.consistent, coherent.pages, ?_, ?_⟩
  · intro other current now
    by_cases here : other = cpu
    · subst here
      simp only [Function.update_self, Option.some.injEq] at now ⊢
      exact ⟨now ▸ live, congrArg taskTtbr0 now⟩
    · simp only [Function.update_of_ne here] at now ⊢
      exact coherent.running other current now
  · intro other current now
    by_cases here : other = cpu
    · subst here
      simp only [Function.update_self, Option.some.injEq] at now
      exact now ▸ agrees
    · simp only [Function.update_of_ne here] at now
      exact coherent.agrees other current now

theorem TlbCoherent.access (coherent : TlbCoherent tables system) {cpu vaddr size : Nat} {leaf : Word}
    (found : walkLeaf system.vm.vm.mm.memory (ttbr0Root (system.ttbr0 cpu)) vaddr =
      some (leaf, size)) (asid : Nat) :
    TlbCoherent tables { system with
      tlb := Function.update system.tlb cpu (⟨vaddr / size, size, asid, leaf⟩ :: system.tlb cpu) } := by
  refine ⟨coherent.consistent, coherent.pages, coherent.running, ?_⟩
  intro other space current entry cached address own matched
  have before := coherent.agrees other space current entry
  by_cases here : other = cpu
  · subst here
    simp only [Function.update_self, List.mem_cons] at cached
    rcases cached with rfl | earlier
    · rw [(coherent.decode current).1] at found
      exact walkLeaf_block found own.1 matched.1
    · exact before earlier address own matched
  · simp only [Function.update_of_ne here] at cached
    exact before cached address own matched

theorem TlbCoherent.step (coherent : TlbCoherent tables system) {action : TlbAction}
    (stepped : system.step tables action = some next)
    (kept : KeepsCached system action next) : TlbCoherent tables next := by
  cases action with
  | vm action =>
      obtain ⟨vm, moved, rfl⟩ := Option.map_eq_some_iff.mp stepped
      cases action with
      | create => exact coherent.create moved
      | map pgd vaddr paddr flags => exact coherent.map moved kept
      | destroy space => exact coherent.destroy moved
  | switch cpu space =>
      simp only [TlbSystem.step, Option.ite_none_right_eq_some, Option.some.injEq] at stepped
      obtain ⟨live, rfl⟩ := stepped
      exact coherent.switch live kept
  | access cpu vaddr =>
      simp only [TlbSystem.step] at stepped
      split at stepped
      next leaf size found =>
        obtain rfl := Option.some.inj stepped
        exact coherent.access found _
      next =>
        obtain rfl := Option.some.inj stepped
        exact coherent

theorem TlbCoherent.spoiled (coherent : TlbCoherent tables system) {action : TlbAction}
    (stepped : system.step tables action = some next)
    (broken : ¬KeepsCached system action next) : ¬TlbIsolated next := by
  intro isolated
  apply broken
  cases action with
  | vm action =>
      obtain ⟨vm, moved, rfl⟩ := Option.map_eq_some_iff.mp stepped
      cases action with
      | create => trivial
      | destroy space => trivial
      | map pgd vaddr paddr flags =>
          simp only [VmSystem.step, Option.ite_none_right_eq_some, Option.some.injEq] at moved
          obtain ⟨⟨isRoot, bound, paddrBound, allowed⟩, rfl⟩ := moved
          have walks := coherent.consistent.sound.mapWalks isRoot bound paddrBound allowed
          intro ownPage cpu space current root entry cached address samePage matched
          have own := ownAddress_of_page samePage.symm ownPage
          have before := coherent.agrees cpu space current entry cached address own matched
          have after := isolated cpu space current address own _
            (Or.inl ⟨entry, cached, (coherent.decode current).2 ▸ matched, rfl⟩)
          rcases walks.page with changed | same
          · subst root
            exact Option.some.inj (after.symm.trans (changed address samePage))
          · subst root
            have block := (same address samePage).2 _ before
            rw [coherent.pages space.pgd isRoot address own _ before] at block
            cases block
  | switch cpu space =>
      simp only [TlbSystem.step, Option.ite_none_right_eq_some, Option.some.injEq] at stepped
      obtain ⟨live, rfl⟩ := stepped
      intro entry cached vaddr own matched
      have page := coherent.consistent.sound.forest.rootPage (system.vm.space_mem_roots live)
      have asid := ttbr0Asid_task page (coherent.consistent.asids.bound space live)
      refine isolated cpu space (Function.update_self _ _ _) vaddr own _
        (Or.inl ⟨entry, cached, ?_, rfl⟩)
      simpa [asid] using matched
  | access cpu vaddr => trivial

theorem boot_tlbCoherent {mm : Mm}
    (reserved : ∀ index < kernelPages image.stackTop, mm.isUsed index = true) :
    TlbCoherent tables (TlbSystem.boot tables mm) := by
  refine ⟨boot_consistent reserved, ?_, ?_, ?_⟩
  · rintro root (rfl | listed) vaddr own translation found
    · have empty := (bootEntries tables mm.memory).pgd (tableIndex vaddr 39)
      rw [if_neg own.2] at empty
      have unmapped : walk (TlbSystem.boot tables mm).vm.vm.mm.memory tables.pgdTable vaddr = none :=
        walk_unmapped empty
      rw [unmapped] at found
      cases found
    · cases listed
  · intro cpu space current
    cases current
  · intro cpu space current
    cases current

/-- The lookups of a space on a CPU give only what its own table has, in every state of a
run, exactly when every context switch of the run finds no cached leaf that the new space
does not share and no page cached on a CPU is mapped anew in the space there. -/
theorem tlb_isolated_iff (tables : KernelTables image) (mm : Mm)
    (reserved : ∀ index < kernelPages image.stackTop, mm.isUsed index = true)
    (actions : List TlbAction) :
    Transition.EveryState (TlbSystem.step tables) TlbIsolated (TlbSystem.boot tables mm) actions ↔
      Transition.EveryStep (TlbSystem.step tables) KeepsCached (TlbSystem.boot tables mm)
        actions :=
  Transition.everyState_iff_everyStep (fun _ => TlbCoherent.tlbIsolated)
    (fun _ _ _ coherent => coherent.step) (fun _ _ _ coherent => coherent.spoiled) (boot_tlbCoherent reserved)
    actions

theorem step_tlb {action : TlbAction} (stepped : system.step tables action = some next)
    (quiet : ∀ cpu vaddr, action ≠ .access cpu vaddr) : next.tlb = system.tlb := by
  cases action with
  | vm action =>
      obtain ⟨vm, _, rfl⟩ := Option.map_eq_some_iff.mp stepped
      rfl
  | switch cpu space =>
      simp only [TlbSystem.step, Option.ite_none_right_eq_some, Option.some.injEq] at stepped
      obtain ⟨_, rfl⟩ := stepped
      rfl
  | access cpu vaddr => exact absurd rfl (quiet cpu vaddr)

theorem agreesWith_empty {cpu : Nat} (empty : system.tlb cpu = []) (space : AddressSpace) :
    AgreesWith system cpu space := by
  intro entry cached
  rw [empty] at cached
  cases cached

/-- Both spaces have been on CPU 0 before it caches anything. -/
def cachesLast : List TlbAction := [.vm .create, .vm .create, .switch 0 ⟨pageAddress 4, 1⟩,
  .switch 0 ⟨pageAddress 5, 2⟩, .access 0 0x40000000]

theorem cachesLast_keeps : Transition.EveryStep (TlbSystem.step smallTables) KeepsCached
    (TlbSystem.boot smallTables smallMm) cachesLast := by
  intro first created
  refine ⟨trivial, fun second alsoCreated => ⟨trivial, ?_⟩⟩
  have empty : second.tlb = fun _ => [] := by
    rw [step_tlb alsoCreated (by simp), step_tlb created (by simp)]
    rfl
  intro third switched
  refine ⟨agreesWith_empty (congrFun empty 0) _, ?_⟩
  have still : third.tlb = fun _ => [] := (step_tlb switched (by simp)).trans empty
  intro fourth _
  exact ⟨agreesWith_empty (congrFun still 0) _, fun _ _ => ⟨trivial, trivial⟩⟩

theorem tlb_isolated_cachesLast : Transition.EveryState (TlbSystem.step smallTables) TlbIsolated
    (TlbSystem.boot smallTables smallMm) cachesLast :=
  (tlb_isolated_iff smallTables smallMm smallMm_reserved cachesLast).mpr cachesLast_keeps

/-- CPU 0 reaches a page of the first space in the second, whose table does not map it. -/
theorem cachedLeaf_outlives_switch :
    ¬∀ actions, Transition.EveryState (TlbSystem.step smallTables) TlbIsolated
      (TlbSystem.boot smallTables smallMm) actions := by
  intro all
  have leaks : (Transition.exec (TlbSystem.step smallTables) (TlbSystem.boot smallTables smallMm)
      [.vm .create, .vm .create, .vm (.map (pageAddress 4) (2 ^ 39) 0x40100000 pageNormal),
        .switch 0 ⟨pageAddress 4, 1⟩, .access 0 (2 ^ 39), .switch 0 ⟨pageAddress 5, 2⟩]).any
      (fun system => decide (system.current 0 = some ⟨pageAddress 5, 2⟩) &&
        decide (⟨2 ^ 27, pageSize, 1, pageEntry 0x40100000 pageNormal⟩ ∈ system.tlb 0) &&
        decide (walk system.vm.vm.mm.memory (pageAddress 5) (2 ^ 39) = none)) = true := by
    decide +kernel
  obtain ⟨system, run, facts⟩ := (Option.any_eq_true _ _).mp leaks
  simp only [Bool.and_eq_true, decide_eq_true_eq] at facts
  obtain ⟨⟨current, cached⟩, missing⟩ := facts
  have matched : TlbEntry.Matches ⟨2 ^ 27, pageSize, 1, pageEntry 0x40100000 pageNormal⟩ (2 ^ 39)
      (ttbr0Asid (system.ttbr0 0)) := pageEntry_matches (Or.inl rfl) rfl _
  have found := (all _).last run 0 _ current (2 ^ 39) ⟨by decide, by decide⟩ _
    (Or.inl ⟨_, cached, matched, rfl⟩)
  rw [missing] at found
  cases found

end DragoonKernel
