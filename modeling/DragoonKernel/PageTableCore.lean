import DragoonKernel.PageAllocatorCore

/-! Executable model of the page tables in `kernel/mm.c` and of the hardware walk over them. -/

namespace DragoonKernel

def pteValid : Word := 1
def pteTable : Word := 1 <<< 1
def pteBlock : Word := 0 <<< 1
def pteAf : Word := 1 <<< 10
def pteShInner : Word := 3 <<< 8
def pteShOuter : Word := 2 <<< 8
def pteAttr (index : Word) : Word := index <<< 2
def mairIdxNormal : Word := 0
def mairIdxDevice : Word := 1

def blockNormal : Word := pteValid ||| pteBlock ||| pteAf ||| pteShInner ||| pteAttr mairIdxNormal
def blockDevice : Word := pteValid ||| pteBlock ||| pteAf ||| pteShOuter ||| pteAttr mairIdxDevice

def pageNormal : Word := 0x703
def pageDevice : Word := 0x607

instance entries_neZero : NeZero 512 := ⟨by decide⟩

def readEntry (memory : Memory) (table : Nat) (index : Fin 512) : Word :=
  memory (table / pageSize) index

def writeEntry (memory : Memory) (table : Nat) (index : Fin 512) (entry : Word) : Memory :=
  Function.update memory (table / pageSize)
    (Function.update (memory (table / pageSize)) index entry)

def hasBit (entry mask : Word) : Bool := entry &&& mask != 0

/-- `entry & ~0xFFF` read as a pointer. -/
def tableAddress (entry : Word) : Nat := (entry &&& ~~~0xFFF#64).toNat

def tableEntry (address : Nat) : Word := BitVec.ofNat 64 address ||| pteValid ||| pteTable

/-- `(vaddr >> shift) & 0x1FF`. -/
def tableIndex (vaddr shift : Nat) : Fin 512 := Fin.ofNat 512 (vaddr >>> shift)

/-- One level of `mm_map_page`: the next table, allocated and linked when the entry is
invalid. Only the levels below L0 check for a block descriptor. -/
def Mm.nextTable (mm : Mm) (table : Nat) (index : Fin 512) (checkBlock : Bool) :
    Mm × Option Nat :=
  let entry := readEntry mm.memory table index
  if hasBit entry pteValid then
    if checkBlock && !hasBit entry pteTable then (mm, none)
    else (mm, some (tableAddress entry))
  else match mm.pageAlloc with
    | (after, some next) =>
        ({ after with memory := writeEntry after.memory table index (tableEntry next) }, some next)
    | (after, none) => (after, none)

def pageEntry (paddr : Nat) (flags : Word) : Word :=
  (BitVec.ofNat 64 paddr &&& ~~~0xFFF#64) ||| flags

def Mm.mapPage (mm : Mm) (pgd vaddr paddr : Nat) (flags : Word) : Mm :=
  match mm.nextTable pgd (tableIndex vaddr 39) false with
  | (mm, none) => mm
  | (mm, some l1) =>
    match mm.nextTable l1 (tableIndex vaddr 30) true with
    | (mm, none) => mm
    | (mm, some l2) =>
      match mm.nextTable l2 (tableIndex vaddr 21) true with
      | (mm, none) => mm
      | (mm, some l3) =>
          { mm with memory :=
              writeEntry mm.memory l3 (tableIndex vaddr 12) (pageEntry paddr flags) }

/-- The static tables of `mm.c`: distinct pages of the kernel image. -/
structure KernelTables (image : KernelImage) where
  pgdTable : Nat
  pudTable : Nat
  pmdTableDev : Nat
  pmdTableRam : Nat
  placed : ∀ table ∈ [pgdTable, pudTable, pmdTableDev, pmdTableRam],
    ∃ index < kernelPages image.stackTop, table = pageAddress index
  distinct : [pgdTable, pudTable, pmdTableDev, pmdTableRam].Nodup

def clearTable (memory : Memory) (table : Nat) : Memory :=
  zeroPages memory (table / pageSize) 1

def mapBlocks (memory : Memory) (table base : Nat) (attributes : Word) (indices : List Nat) :
    Memory :=
  indices.foldl (fun memory index => writeEntry memory table (Fin.ofNat 512 index)
    (BitVec.ofNat 64 (base + index * 0x200000) ||| attributes)) memory

def mmCreatePageTables {image : KernelImage} (tables : KernelTables image) (memory : Memory) :
    Memory :=
  let cleared := clearTable (clearTable (clearTable (clearTable memory tables.pgdTable)
    tables.pudTable) tables.pmdTableDev) tables.pmdTableRam
  let rooted := writeEntry cleared tables.pgdTable 0 (tableEntry tables.pudTable)
  let device := writeEntry rooted tables.pudTable 0 (tableEntry tables.pmdTableDev)
  let linked := writeEntry device tables.pudTable 1 (tableEntry tables.pmdTableRam)
  let devices := mapBlocks linked tables.pmdTableDev 0 blockDevice (List.range' 64 18)
  mapBlocks devices tables.pmdTableRam 0x40000000 blockNormal (List.range 64)

structure Translation where
  output : Nat
  attributes : Word
  deriving DecidableEq

def outputMask : Word := 0x0000FFFFFFFFF000

def outputAddress (entry : Word) : Nat := (entry &&& outputMask).toNat

def leafTranslation (entry : Word) (vaddr size : Nat) : Translation where
  output := outputAddress entry / size * size + vaddr % size
  attributes := entry &&& ~~~outputMask

/-- The walk from a table with `height` levels of tables below it, as ARMv8 defines it
for a 4 KB granule: no block descriptors at L0, only page descriptors at L3. -/
def walkFrom (memory : Memory) (vaddr : Nat) : Nat → Nat → Option Translation
  | 0, table =>
      let entry := readEntry memory table (tableIndex vaddr 12)
      if hasBit entry pteValid && hasBit entry pteTable then
        some (leafTranslation entry vaddr pageSize)
      else none
  | height + 1, table =>
      let shift := 12 + 9 * (height + 1)
      let entry := readEntry memory table (tableIndex vaddr shift)
      if !hasBit entry pteValid then none
      else if hasBit entry pteTable then walkFrom memory vaddr height (outputAddress entry)
      else if height + 1 = 3 then none
      else some (leafTranslation entry vaddr (2 ^ shift))

def walk (memory : Memory) (pgd vaddr : Nat) : Option Translation :=
  if vaddr < 2 ^ 48 then walkFrom memory vaddr 3 pgd else none

def childTable (memory : Memory) (table : Nat) (index : Fin 512) : Option Nat :=
  let entry := readEntry memory table index
  if hasBit entry pteValid && hasBit entry pteTable then some (tableAddress entry) else none

end DragoonKernel
