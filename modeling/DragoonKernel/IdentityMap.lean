import DragoonKernel.AddressSpaceForest

/-! The kernel identity map: RAM and the device region, and nothing else. -/

namespace DragoonKernel

/-- The device region. The boot code maps it in blocks of 2 MB. -/
def mmioBase : Nat := 0x08000000
def mmioEnd : Nat := 0x0A400000

theorem walkFrom_link {memory : Memory} {table next vaddr : Nat} (height : Nat)
    (page : next % pageSize = 0 ∧ next < 2 ^ 48)
    (linked : readEntry memory table (tableIndex vaddr (12 + 9 * (height + 1))) = tableEntry next) :
    walkFrom memory vaddr (height + 1) table = walkFrom memory vaddr height next := by
  refine walkFrom_child page.2 (childTable_eq_some.mpr ?_)
  rw [linked]
  exact ⟨tableEntry_valid next, tableEntry_table next, tableAddress_tableEntry page.1 page.2⟩

/-- The attribute bits of a valid block descriptor. -/
structure BlockAttributes (attributes : Word) : Prop where
  apart : attributes &&& outputMask = 0
  valid : hasBit attributes pteValid = true
  block : hasBit attributes pteTable = false

theorem blockNormal_attributes : BlockAttributes blockNormal := ⟨by decide, by decide, by decide⟩

theorem blockDevice_attributes : BlockAttributes blockDevice := ⟨by decide, by decide, by decide⟩

theorem walkFrom_block {memory : Memory} {table vaddr base : Nat} {attributes : Word}
    (whole : base = 0 ∨ base = 0x40000000) (bits : BlockAttributes attributes)
    (written : readEntry memory table (tableIndex vaddr 21) =
      BitVec.ofNat 64 (base + (tableIndex vaddr 21).val * 0x200000) ||| attributes) :
    walkFrom memory vaddr 1 table =
      some ⟨base + vaddr / 0x200000 % 512 * 0x200000 + vaddr % 0x200000, attributes⟩ := by
  have page := blockAddress_low (tableIndex vaddr 21) whole
  obtain ⟨output, rest⟩ := descriptor_split page bits.apart
  obtain ⟨valid, block⟩ := hasBit_descriptor page attributes
  rw [← written] at output rest valid block
  rw [bits.valid] at valid
  rw [bits.block] at block
  have leaf : walkFrom memory vaddr 1 table =
      some (leafTranslation (readEntry memory table (tableIndex vaddr 21)) vaddr 0x200000) := by
    simp [walkFrom, valid, block]
  rw [leaf, leafTranslation, output, rest, tableIndex_val]
  congr 3
  omega

variable {image : KernelImage} {tables : KernelTables image} {memory : Memory} {vaddr : Nat}

theorem KernelTables.low (tables : KernelTables image) {table : Nat} (listed : table ∈
    [tables.pgdTable, tables.pudTable, tables.pmdTableDev, tables.pmdTableRam]) :
    table % pageSize = 0 ∧ table < 2 ^ 48 := by
  obtain ⟨index, bound, rfl⟩ := tables.placed table listed
  exact (pageAddress_low (Nat.lt_of_lt_of_le bound image.kernelPages_le)).symm

theorem BootTables.walk_pgd (boot : BootTables tables memory) (bound : vaddr < 2 ^ 48) :
    walk memory tables.pgdTable vaddr =
      if vaddr < 2 ^ 39 then walkFrom memory vaddr 2 tables.pudTable else none := by
  have first : tableIndex vaddr 39 = 0 ↔ vaddr < 2 ^ 39 := by
    rw [Fin.ext_iff, tableIndex_val, Fin.val_zero]
    omega
  have entry := boot.pgd (tableIndex vaddr 39)
  simp only [first] at entry
  rw [walk, if_pos bound]
  split
  next below =>
    rw [if_pos below] at entry
    exact walkFrom_link 2 (tables.low (by simp)) entry
  next above =>
    rw [if_neg above] at entry
    exact walkFrom_invalid (entry ▸ hasBit_zero _)

theorem BootTables.walk_pud (boot : BootTables tables memory) (bound : vaddr < 2 ^ 39) :
    walkFrom memory vaddr 2 tables.pudTable =
      if vaddr < 2 ^ 30 then walkFrom memory vaddr 1 tables.pmdTableDev
      else if vaddr < 2 ^ 31 then walkFrom memory vaddr 1 tables.pmdTableRam
      else none := by
  have first : tableIndex vaddr 30 = 0 ↔ vaddr < 2 ^ 30 := by
    rw [Fin.ext_iff, tableIndex_val, Fin.val_zero]
    omega
  have second : tableIndex vaddr 30 = 1 ↔ 2 ^ 30 ≤ vaddr ∧ vaddr < 2 ^ 31 := by
    rw [Fin.ext_iff, tableIndex_val, Fin.val_one]
    omega
  have entry := boot.pud (tableIndex vaddr 30)
  simp only [first, second] at entry
  split
  next below =>
    rw [if_pos below] at entry
    exact walkFrom_link 1 (tables.low (by simp)) entry
  next above =>
    rw [if_neg above] at entry
    split
    next below =>
      rw [if_pos ⟨Nat.le_of_not_lt above, below⟩] at entry
      exact walkFrom_link 1 (tables.low (by simp)) entry
    next beyond =>
      rw [if_neg fun inside => beyond inside.2] at entry
      exact walkFrom_invalid (entry ▸ hasBit_zero _)

theorem BootTables.walk_device (boot : BootTables tables memory) (bound : vaddr < 2 ^ 30) :
    walkFrom memory vaddr 1 tables.pmdTableDev =
      if mmioBase ≤ vaddr ∧ vaddr < mmioEnd then some ⟨vaddr, blockDevice⟩ else none := by
  have inside : (64 ≤ (tableIndex vaddr 21).val ∧ (tableIndex vaddr 21).val < 82) ↔
      mmioBase ≤ vaddr ∧ vaddr < mmioEnd := by
    rw [tableIndex_val, mmioBase, mmioEnd]
    omega
  have entry := boot.deviceBlocks (tableIndex vaddr 21)
  simp only [inside] at entry
  split
  next mapped =>
    rw [if_pos mapped] at entry
    rw [walkFrom_block (Or.inl rfl) blockDevice_attributes entry]
    congr 2
    omega
  next unmapped =>
    rw [if_neg unmapped] at entry
    exact walkFrom_invalid (entry ▸ hasBit_zero _)

theorem BootTables.walk_ram (boot : BootTables tables memory) (lower : 2 ^ 30 ≤ vaddr)
    (bound : vaddr < 2 ^ 31) :
    walkFrom memory vaddr 1 tables.pmdTableRam =
      if vaddr < ramBase + ramSize then some ⟨vaddr, blockNormal⟩ else none := by
  have inside : (tableIndex vaddr 21).val < 64 ↔ vaddr < ramBase + ramSize := by
    rw [tableIndex_val, ramBase, ramSize]
    omega
  have entry := boot.ramBlocks (tableIndex vaddr 21)
  simp only [inside] at entry
  split
  next mapped =>
    rw [if_pos mapped] at entry
    rw [walkFrom_block (Or.inr rfl) blockNormal_attributes entry]
    congr 2
    omega
  next unmapped =>
    rw [if_neg unmapped] at entry
    exact walkFrom_invalid (entry ▸ hasBit_zero _)

/-- The walk from the kernel's root returns every address of RAM and of the device region
itself, with the attributes of its region, and faults everywhere else. -/
theorem kernel_identity_map (tables : KernelTables image) (memory : Memory) (vaddr : Nat) :
    walk (mmCreatePageTables tables memory) tables.pgdTable vaddr =
      if ramBase ≤ vaddr ∧ vaddr < ramBase + ramSize then some ⟨vaddr, blockNormal⟩
      else if mmioBase ≤ vaddr ∧ vaddr < mmioEnd then some ⟨vaddr, blockDevice⟩
      else none := by
  have boot := bootTables tables memory
  obtain ⟨start, ram, mmio⟩ :
      ramBase = 2 ^ 30 ∧ ramBase + ramSize < 2 ^ 31 ∧ mmioEnd < 2 ^ 30 := by decide
  by_cases device : vaddr < 2 ^ 30
  · have foreign : ¬(ramBase ≤ vaddr ∧ vaddr < ramBase + ramSize) := by omega
    rw [if_neg foreign, boot.walk_pgd (by omega), if_pos (by omega), boot.walk_pud (by omega),
      if_pos device, boot.walk_device device]
  · have foreign : ¬(mmioBase ≤ vaddr ∧ vaddr < mmioEnd) := by omega
    have lower : ramBase ≤ vaddr := by omega
    simp only [if_neg foreign, lower, true_and]
    by_cases inside : vaddr < 2 ^ 31
    · rw [boot.walk_pgd (by omega), if_pos (by omega), boot.walk_pud (by omega), if_neg device,
        if_pos inside, boot.walk_ram (by omega) inside]
    · have outside : ¬vaddr < ramBase + ramSize := by omega
      rw [if_neg outside]
      by_cases address : vaddr < 2 ^ 48
      · rw [boot.walk_pgd address]
        by_cases rooted : vaddr < 2 ^ 39
        · rw [if_pos rooted, boot.walk_pud rooted, if_neg device, if_neg inside]
        · rw [if_neg rooted]
      · rw [walk, if_neg address]

end DragoonKernel
