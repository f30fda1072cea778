import DragoonKernel.SchedCore

/-!
Address spaces on CPUs with a TLB each, as ARMv8 defines it: a walk may cache the leaf
it ends at with the ASID of TTBR0. None of the functions here has a TLBI, so what is
cached stays.
-/

namespace DragoonKernel

def pteNg : Word := 1 <<< 11

/-- The leaf of the block of `size` bytes with the number `page`. -/
structure TlbEntry where
  page : Nat
  size : Nat
  asid : Nat
  leaf : Word
  deriving DecidableEq

def TlbEntry.Matches (entry : TlbEntry) (vaddr asid : Nat) : Prop :=
  vaddr / entry.size = entry.page ∧ (hasBit entry.leaf pteNg = false ∨ entry.asid = asid)

instance (entry : TlbEntry) (vaddr asid : Nat) : Decidable (entry.Matches vaddr asid) :=
  inferInstanceAs (Decidable (_ ∧ (_ ∨ _)))

def TlbEntry.translate (entry : TlbEntry) (vaddr : Nat) : Translation :=
  leafTranslation entry.leaf vaddr entry.size

/-- The leaf descriptor that `walkFrom` ends at, and the size of what it maps. -/
def leafFrom (memory : Memory) (vaddr : Nat) : Nat → Nat → Option (Word × Nat)
  | 0, table =>
      let entry := readEntry memory table (tableIndex vaddr 12)
      if hasBit entry pteValid && hasBit entry pteTable then some (entry, pageSize) else none
  | height + 1, table =>
      let shift := 12 + 9 * (height + 1)
      let entry := readEntry memory table (tableIndex vaddr shift)
      if !hasBit entry pteValid then none
      else if hasBit entry pteTable then leafFrom memory vaddr height (outputAddress entry)
      else if height + 1 = 3 then none
      else some (entry, 2 ^ shift)

def walkLeaf (memory : Memory) (pgd vaddr : Nat) : Option (Word × Nat) :=
  if vaddr < 2 ^ 48 then leafFrom memory vaddr 3 pgd else none

/-- `current` names the address space that the CPU has switched to, while it exists. -/
structure TlbSystem where
  vm : VmSystem
  ttbr0 : Nat → Word
  tlb : Nat → List TlbEntry
  current : Nat → Option AddressSpace

inductive TlbAction where
  | vm (action : VmAction)
  | switch (cpu : Nat) (space : AddressSpace)
  | access (cpu vaddr : Nat)

def TlbSystem.boot {image : KernelImage} (tables : KernelTables image) (mm : Mm) : TlbSystem where
  vm := VmSystem.boot tables mm
  ttbr0 := fun _ => BitVec.ofNat 64 tables.pgdTable
  tlb := fun _ => []
  current := fun _ => none

def TlbSystem.afterVm (system : TlbSystem) : VmAction → Nat → Option AddressSpace
  | .destroy space => fun cpu =>
      if system.current cpu = some space then none else system.current cpu
  | _ => system.current

/-- An `access` is a walk that caches its leaf; the others change nothing here. -/
def TlbSystem.step {image : KernelImage} (tables : KernelTables image) (system : TlbSystem) :
    TlbAction → Option TlbSystem
  | .vm action => (system.vm.step tables action).map fun vm =>
      { system with vm := vm, current := system.afterVm action }
  | .switch cpu space =>
      if space ∈ system.vm.spaces then
        some { system with
          ttbr0 := Function.update system.ttbr0 cpu (taskTtbr0 space)
          current := Function.update system.current cpu (some space) }
      else none
  | .access cpu vaddr =>
      let ttbr0 := system.ttbr0 cpu
      match walkLeaf system.vm.vm.mm.memory (ttbr0Root ttbr0) vaddr with
      | some (leaf, size) =>
          let entry := ⟨vaddr / size, size, ttbr0Asid ttbr0, leaf⟩
          some { system with tlb := Function.update system.tlb cpu (entry :: system.tlb cpu) }
      | none => some system

/-- What a lookup on the CPU may give: a cached leaf that matches, or a walk. -/
def TlbSystem.Yields (system : TlbSystem) (cpu vaddr : Nat) (translation : Translation) : Prop :=
  (∃ entry ∈ system.tlb cpu, entry.Matches vaddr (ttbr0Asid (system.ttbr0 cpu)) ∧
    entry.translate vaddr = translation) ∨
  walk system.vm.vm.mm.memory (ttbr0Root (system.ttbr0 cpu)) vaddr = some translation

end DragoonKernel
