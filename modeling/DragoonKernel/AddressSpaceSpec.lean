import DragoonKernel.AddressSpaceCore

/-! The outcomes of `vm_create` and of the allocation of an ASID. -/

namespace DragoonKernel

theorem vmCreate_none {pgdTable : Nat} {vm : Vm} {mm : Mm} (space : AddressSpace)
    (failed : vm.mm.pageAlloc = (mm, none)) :
    vmCreate pgdTable vm space = ({ vm with mm := mm }, { space with pgd := 0 }, -1) := by
  unfold vmCreate
  rw [failed]

theorem vmCreate_some {pgdTable fresh : Nat} {vm : Vm} {mm : Mm} (space : AddressSpace)
    (allocated : vm.mm.pageAlloc = (mm, some fresh)) :
    vmCreate pgdTable vm space =
      ({ mm := { mm with memory := writeEntry mm.memory fresh 0 (readEntry mm.memory pgdTable 0) }
         asidBitmap := (asidAlloc vm.asidBitmap).1 },
        { pgd := fresh, asid := (asidAlloc vm.asidBitmap).2 }, 0) := by
  unfold vmCreate
  rw [allocated]

theorem asidAlloc_cases (asidBitmap : Nat → BitVec 8) :
    (∃ asid, 0 < asid ∧ asid < asidMax ∧ Bitmap.test asidBitmap asid = false ∧
      asidAlloc asidBitmap = (Bitmap.set asidBitmap asid, asid)) ∨
    ((∀ asid, 0 < asid → asid < asidMax → Bitmap.test asidBitmap asid = true) ∧
      asidAlloc asidBitmap = (asidBitmap, 0)) := by
  unfold asidAlloc
  cases found : (List.range' 1 (asidMax - 1)).find? fun asid => !Bitmap.test asidBitmap asid with
  | some asid =>
      have listed := List.mem_of_find?_eq_some found
      have free := List.find?_some found
      simp only [List.mem_range'_1, asidMax] at listed
      exact Or.inl ⟨asid, by omega, by simp only [asidMax]; omega, by simpa using free, rfl⟩
  | none =>
      refine Or.inr ⟨?_, rfl⟩
      intro asid positive bound
      have taken := List.find?_eq_none.mp found asid
        (by simp only [List.mem_range'_1, asidMax] at bound ⊢; omega)
      simpa using taken

theorem asidAlloc_lowest {asidBitmap : Nat → BitVec 8} {asid : Nat} (positive : 0 < asid)
    (bound : asid < asidMax) (free : Bitmap.test asidBitmap asid = false)
    (taken : ∀ lower, 0 < lower → lower < asid → Bitmap.test asidBitmap lower = true) :
    asidAlloc asidBitmap = (Bitmap.set asidBitmap asid, asid) := by
  have found : (List.range' 1 (asidMax - 1)).find? (fun asid => !Bitmap.test asidBitmap asid) =
      some asid := by
    rw [List.find?_range'_eq_some]
    refine ⟨by simp [free], ?_, ?_⟩
    · simp only [List.mem_range'_1, asidMax] at bound ⊢
      omega
    · intro lower above below
      simp [taken lower above below]
  rw [asidAlloc, found]

end DragoonKernel
