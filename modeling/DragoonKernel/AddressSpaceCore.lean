import Mathlib.Data.List.FinRange
import DragoonKernel.PageTableCore

/-! Executable model of `kernel/vm.c`: ASIDs, creation and teardown of address spaces. -/

namespace DragoonKernel

def asidMax : Nat := 256

structure AddressSpace where
  pgd : Nat
  asid : Nat
  deriving DecidableEq

structure Vm where
  mm : Mm
  asidBitmap : Nat → BitVec 8

def asidAlloc (asidBitmap : Nat → BitVec 8) : (Nat → BitVec 8) × Nat :=
  match (List.range' 1 (asidMax - 1)).find? fun asid => !Bitmap.test asidBitmap asid with
  | some asid => (Bitmap.set asidBitmap asid, asid)
  | none => (asidBitmap, 0)

def asidFree (asidBitmap : Nat → BitVec 8) (asid : Nat) : Nat → BitVec 8 :=
  if 0 < asid ∧ asid < asidMax then Bitmap.clear asidBitmap asid else asidBitmap

/-- `vm_free_subtree` with the number of levels below the table, `3 - level`. -/
def vmFreeSubtree (mm : Mm) (table : Nat) : Nat → Mm
  | 0 => mm.pageFree table
  | height + 1 =>
      ((List.finRange 512).foldl (fun mm index =>
        let entry := readEntry mm.memory table index
        if hasBit entry pteValid && hasBit entry pteTable then
          vmFreeSubtree mm (tableAddress entry) height
        else mm) mm).pageFree table

/-- Returns the filled structure and 0, or `NULL` and -1. -/
def vmCreate (pgdTable : Nat) (vm : Vm) (space : AddressSpace) : Vm × AddressSpace × Int :=
  match vm.mm.pageAlloc with
  | (mm, none) => ({ vm with mm := mm }, { space with pgd := 0 }, -1)
  | (mm, some pgd) =>
      let memory := writeEntry mm.memory pgd 0 (readEntry mm.memory pgdTable 0)
      let (asidBitmap, asid) := asidAlloc vm.asidBitmap
      ({ mm := { mm with memory := memory }, asidBitmap := asidBitmap },
        { pgd := pgd, asid := asid }, 0)

def vmDestroy (vm : Vm) (space : AddressSpace) : Vm × AddressSpace :=
  if space.pgd = 0 then (vm, space)
  else
    let mm := ((List.finRange 512).drop 1).foldl (fun mm index =>
      let entry := readEntry mm.memory space.pgd index
      if hasBit entry pteValid then vmFreeSubtree mm (tableAddress entry) 2 else mm) vm.mm
    ({ mm := mm.pageFree space.pgd, asidBitmap := asidFree vm.asidBitmap space.asid },
      { pgd := 0, asid := 0 })

structure VmSystem where
  vm : Vm
  spaces : List AddressSpace

inductive VmAction where
  | create
  | map (pgd vaddr paddr : Nat) (flags : Word)
  | destroy (space : AddressSpace)

def VmSystem.boot {image : KernelImage} (tables : KernelTables image) (mm : Mm) : VmSystem where
  vm := {
    mm := { mm with memory := mmCreatePageTables tables mm.memory }
    asidBitmap := fun _ => 0
  }
  spaces := []

def VmSystem.step {image : KernelImage} (tables : KernelTables image) (system : VmSystem) :
    VmAction → Option VmSystem
  | .create =>
      match vmCreate tables.pgdTable system.vm ⟨0, 0⟩ with
      | (vm, space, status) =>
          some { vm := vm, spaces := if status = 0 then space :: system.spaces else system.spaces }
  | .map pgd vaddr paddr flags =>
      if (pgd = tables.pgdTable ∨ pgd ∈ system.spaces.map AddressSpace.pgd) ∧
          vaddr < 2 ^ 48 ∧ paddr < 2 ^ 48 ∧ (flags = pageNormal ∨ flags = pageDevice) then
        some { system with
          vm := { system.vm with mm := system.vm.mm.mapPage pgd vaddr paddr flags } }
      else none
  | .destroy space =>
      if space ∈ system.spaces then
        some { vm := (vmDestroy system.vm space).1, spaces := system.spaces.erase space }
      else none

end DragoonKernel
