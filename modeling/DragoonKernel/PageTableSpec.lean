import Mathlib.Data.Nat.Bitwise
import DragoonKernel.PageAllocatorSpec
import DragoonKernel.PageTableCore

/-! Bit-level facts about descriptors and frame facts about table memory. -/

namespace DragoonKernel

theorem hasBit_twoPow (entry : Word) (position : Nat) (bound : position < 64) :
    hasBit entry (BitVec.twoPow 64 position) = entry.getLsbD position := by
  rw [hasBit, BitVec.and_twoPow]
  by_cases present : entry.getLsbD position
  · have nonzero : BitVec.twoPow 64 position ≠ 0#64 := by
      intro zero
      have bit := congrArg (fun word => word.getLsbD position) zero
      simp [bound] at bit
    simp [present, nonzero]
  · simp [present]

theorem hasBit_pteValid (entry : Word) : hasBit entry pteValid = entry.getLsbD 0 :=
  hasBit_twoPow entry 0 (by decide)

theorem hasBit_pteTable (entry : Word) : hasBit entry pteTable = entry.getLsbD 1 :=
  hasBit_twoPow entry 1 (by decide)

theorem getLsbD_pageMask (position : Nat) (bound : position < 64) :
    (~~~0xFFF#64).getLsbD position = decide (12 ≤ position) := by
  revert position
  decide

theorem getLsbD_outputMask (position : Nat) (bound : position < 64) :
    outputMask.getLsbD position = decide (12 ≤ position ∧ position < 48) := by
  revert position
  decide

theorem getLsbD_linkBits (position : Nat) (bound : position < 64) :
    (pteValid ||| pteTable).getLsbD position = decide (position < 2) := by
  revert position
  decide

theorem getLsbD_aligned {address : Nat} (aligned : address % pageSize = 0) (low : address < 2 ^ 48)
    (position : Nat) (outside : position < 12 ∨ 48 ≤ position) :
    (BitVec.ofNat 64 address).getLsbD position = false := by
  rw [BitVec.getLsbD_ofNat]
  rcases outside with below | above
  · have multiple : address = address / pageSize * 2 ^ 12 := by
      simp only [pageSize] at aligned ⊢
      omega
    rw [multiple, Nat.testBit_mul_two_pow]
    simp [show ¬12 ≤ position by omega]
  · rw [Nat.testBit_lt_two_pow (Nat.lt_of_lt_of_le low (Nat.pow_le_pow_right (by decide) above))]
    simp

/-- An aligned address and attribute bits share no bits of a descriptor. -/
theorem descriptor_split {address : Nat} {attributes : Word}
    (page : address % pageSize = 0 ∧ address < 2 ^ 48) (apart : attributes &&& outputMask = 0) :
    outputAddress (BitVec.ofNat 64 address ||| attributes) = address ∧
      (BitVec.ofNat 64 address ||| attributes) &&& ~~~outputMask = attributes := by
  have attributeBit : ∀ position, 12 ≤ position ∧ position < 48 →
      attributes.getLsbD position = false := by
    intro position inside
    have bit := congrArg (fun word => word.getLsbD position) apart
    simp only [BitVec.getLsbD_and, getLsbD_outputMask position (by omega)] at bit
    simpa [inside] using bit
  have addressBit : ∀ position, ¬(12 ≤ position ∧ position < 48) →
      (BitVec.ofNat 64 address).getLsbD position = false :=
    fun position outside => getLsbD_aligned page.1 page.2 position (by omega)
  constructor
  · have output : (BitVec.ofNat 64 address ||| attributes) &&& outputMask =
        BitVec.ofNat 64 address := by
      apply BitVec.eq_of_getLsbD_eq
      intro position bound
      rw [BitVec.getLsbD_and, BitVec.getLsbD_or, getLsbD_outputMask _ bound]
      by_cases inside : 12 ≤ position ∧ position < 48
      · simp [attributeBit position inside, inside]
      · rw [addressBit position inside]
        simp [inside]
    rw [outputAddress, output, BitVec.toNat_ofNat, Nat.mod_eq_of_lt (by omega)]
  · apply BitVec.eq_of_getLsbD_eq
    intro position bound
    rw [BitVec.getLsbD_and, BitVec.getLsbD_or, BitVec.getLsbD_not, getLsbD_outputMask _ bound]
    by_cases inside : 12 ≤ position ∧ position < 48
    · simp [attributeBit position inside, inside]
    · rw [addressBit position inside]
      simp [inside, bound]

theorem hasBit_descriptor {address : Nat} (page : address % pageSize = 0 ∧ address < 2 ^ 48)
    (attributes : Word) :
    hasBit (BitVec.ofNat 64 address ||| attributes) pteValid = hasBit attributes pteValid ∧
      hasBit (BitVec.ofNat 64 address ||| attributes) pteTable = hasBit attributes pteTable := by
  simp only [hasBit_pteValid, hasBit_pteTable, BitVec.getLsbD_or,
    getLsbD_aligned page.1 page.2 0 (by omega), getLsbD_aligned page.1 page.2 1 (by omega),
    Bool.false_or, and_self]

theorem tableEntry_valid (address : Nat) : hasBit (tableEntry address) pteValid = true := by
  rw [hasBit_pteValid, tableEntry, BitVec.or_assoc, BitVec.getLsbD_or, getLsbD_linkBits _ (by decide)]
  simp

theorem tableEntry_table (address : Nat) : hasBit (tableEntry address) pteTable = true := by
  rw [hasBit_pteTable, tableEntry, BitVec.or_assoc, BitVec.getLsbD_or, getLsbD_linkBits _ (by decide)]
  simp

theorem tableAddress_tableEntry {address : Nat} (aligned : address % pageSize = 0)
    (low : address < 2 ^ 48) : tableAddress (tableEntry address) = address := by
  have bits : tableEntry address &&& ~~~0xFFF#64 = BitVec.ofNat 64 address := by
    apply BitVec.eq_of_getLsbD_eq
    intro position bound
    rw [tableEntry, BitVec.or_assoc, BitVec.getLsbD_and, BitVec.getLsbD_or,
      getLsbD_linkBits _ bound, getLsbD_pageMask _ bound]
    by_cases below : position < 12
    · simp [getLsbD_aligned aligned low position (Or.inl below), below]
    · simp [show ¬position < 2 by omega, show 12 ≤ position by omega]
  rw [tableAddress, bits, BitVec.toNat_ofNat, Nat.mod_eq_of_lt (by omega)]

theorem outputAddress_eq_tableAddress {entry : Word} (low : tableAddress entry < 2 ^ 48) :
    outputAddress entry = tableAddress entry := by
  have bits : entry &&& outputMask = entry &&& ~~~0xFFF#64 := by
    apply BitVec.eq_of_getLsbD_eq
    intro position bound
    rw [BitVec.getLsbD_and, BitVec.getLsbD_and, getLsbD_outputMask _ bound,
      getLsbD_pageMask _ bound]
    by_cases above : 48 ≤ position
    · have clear : (entry &&& ~~~0xFFF#64).getLsbD position = false := by
        rw [← BitVec.testBit_toNat]
        exact Nat.testBit_lt_two_pow
          (Nat.lt_of_lt_of_le low (Nat.pow_le_pow_right (by decide) above))
      rw [BitVec.getLsbD_and, getLsbD_pageMask _ bound] at clear
      simp [clear, show ¬position < 48 by omega]
    · simp [show position < 48 by omega]
  rw [outputAddress, tableAddress, bits]

theorem tableIndex_val (vaddr shift : Nat) :
    (tableIndex vaddr shift).val = vaddr / 2 ^ shift % 512 := by
  simp [tableIndex, Nat.shiftRight_eq_div_pow]

theorem tableIndex_eq_iff (first second shift : Nat) :
    tableIndex first shift = tableIndex second shift ↔
      first / 2 ^ shift % 512 = second / 2 ^ shift % 512 := by
  rw [← tableIndex_val, ← tableIndex_val, Fin.ext_iff]

theorem readEntry_write_same (memory : Memory) (table : Nat) (index : Fin 512) (entry : Word) :
    readEntry (writeEntry memory table index entry) table index = entry := by
  simp [readEntry, writeEntry]

theorem readEntry_write_other (memory : Memory) {table other : Nat} {index slot : Fin 512}
    (entry : Word) (apart : ¬(other / pageSize = table / pageSize ∧ slot = index)) :
    readEntry (writeEntry memory table index entry) other slot = readEntry memory other slot := by
  unfold readEntry writeEntry
  by_cases sameFrame : other / pageSize = table / pageSize
  · have different : slot ≠ index := fun same => apart ⟨sameFrame, same⟩
    rw [sameFrame, Function.update_self, Function.update_of_ne different]
  · rw [Function.update_of_ne sameFrame]

theorem childTable_eq_some {memory : Memory} {table next : Nat} {index : Fin 512} :
    childTable memory table index = some next ↔
      hasBit (readEntry memory table index) pteValid = true ∧
      hasBit (readEntry memory table index) pteTable = true ∧
      tableAddress (readEntry memory table index) = next := by
  simp only [childTable]
  split
  · rename_i linked
    simp only [Bool.and_eq_true] at linked
    simp [linked]
  · rename_i unlinked
    simp only [Bool.and_eq_true, not_and] at unlinked
    simp only [reduceCtorEq, false_iff, not_and]
    intro valid table
    exact absurd table (unlinked valid)

theorem childTable_of_invalid {memory : Memory} {table : Nat} {index : Fin 512}
    (invalid : hasBit (readEntry memory table index) pteValid = false) :
    childTable memory table index = none := by
  simp [childTable, invalid]

theorem childTable_congr {memory after : Memory} {table : Nat} {index : Fin 512}
    (same : readEntry after table index = readEntry memory table index) :
    childTable after table index = childTable memory table index := by
  simp only [childTable, same]

def TablePage (mm : Mm) (table : Nat) : Prop :=
  ∃ index < maxPages, table = pageAddress index ∧ mm.isUsed index = true

theorem pageAddress_low {index : Nat} (bound : index < maxPages) :
    pageAddress index < 2 ^ 48 ∧ pageAddress index % pageSize = 0 := by
  simp only [pageAddress_eq, maxPages_eq, pageSize] at bound ⊢
  omega

theorem TablePage.low {mm : Mm} {table : Nat} (page : TablePage mm table) : table < 2 ^ 48 := by
  obtain ⟨index, bound, rfl, _⟩ := page
  exact (pageAddress_low bound).1

theorem TablePage.frame_inj {mm after : Mm} {first second : Nat} (page : TablePage mm first)
    (other : TablePage after second) (same : first / pageSize = second / pageSize) :
    first = second := by
  obtain ⟨index, _, rfl, _⟩ := page
  obtain ⟨position, _, rfl, _⟩ := other
  simp only [pageAddress_div] at same
  rw [show index = position by omega]

end DragoonKernel
