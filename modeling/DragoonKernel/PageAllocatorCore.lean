import Mathlib.Data.List.Range
import DragoonKernel.Library.Bitmap

/-! Executable model of the page allocator in `kernel/mm.c`. -/

namespace DragoonKernel

abbrev Word := BitVec 64

def pageSize : Nat := 4096
def ramBase : Nat := 0x40000000
def ramSize : Nat := 128 * 1024 * 1024
def maxPages : Nat := ramSize / pageSize
def ramFrame : Nat := ramBase / pageSize

abbrev Frame := Fin 512 → Word

/-- Physical memory by frame number: the word at `address` is
`memory (address / pageSize)` at index `address % pageSize / 8`. -/
abbrev Memory := Nat → Frame

/-- The static variables of `mm.c` with the memory behind the identity map. -/
structure Mm where
  pageBitmap : Nat → Word
  totalPages : Word
  usedPages : Word
  memory : Memory

def alignUp (value alignment : Nat) : Nat := (value + (alignment - 1)) / alignment * alignment

/-- `bitmap_set` and `used_pages++` for `count` pages from `start` on. -/
def Mm.markPages (mm : Mm) (start : Nat) : Nat → Mm
  | 0 => mm
  | count + 1 =>
      let marked := mm.markPages start count
      { marked with
        pageBitmap := Bitmap.set marked.pageBitmap (start + count)
        usedPages := marked.usedPages + 1 }

def zeroPages (memory : Memory) (frame count : Nat) : Memory := fun query =>
  if frame ≤ query ∧ query < frame + count then fun _ => 0 else memory query

def kernelPages (stackTop : Nat) : Nat := (alignUp stackTop pageSize - ramBase) / pageSize

def mmInit (stackTop : Nat) (memory : Memory) : Mm :=
  let cleared : Mm := {
    pageBitmap := fun _ => 0
    totalPages := BitVec.ofNat 64 maxPages
    usedPages := 0
    memory := memory
  }
  cleared.markPages 0 (kernelPages stackTop)

def pageAddress (index : Nat) : Nat := ramBase + index * pageSize

/-- `pages` consecutive pages from bit `start` are marked and zeroed. -/
def Mm.take (mm : Mm) (start pages : Nat) : Mm :=
  let marked := mm.markPages start pages
  { marked with memory := zeroPages marked.memory (pageAddress start / pageSize) pages }

def Mm.pageAlloc (mm : Mm) : Mm × Option Nat :=
  match (List.range maxPages).find? fun index => !Bitmap.test mm.pageBitmap index with
  | some index => (mm.take index 1, some (pageAddress index))
  | none => (mm, none)

/-- The loop of `pages_alloc`: the start of the first run that reaches `wanted` free bits. -/
def scanRun (pageBitmap : Nat → Word) (wanted : Nat) : Nat → Nat → Nat → Nat → Option Nat
  | 0, _, _, _ => none
  | fuel + 1, index, runStart, runLength =>
      if Bitmap.test pageBitmap index then
        scanRun pageBitmap wanted fuel (index + 1) runStart 0
      else
        let start := if runLength = 0 then index else runStart
        if runLength + 1 = wanted then some start
        else scanRun pageBitmap wanted fuel (index + 1) start (runLength + 1)

def Mm.pagesAlloc (mm : Mm) (pages : Nat) : Mm × Option Nat :=
  if pages = 0 ∨ maxPages < pages then (mm, none)
  else match scanRun mm.pageBitmap pages maxPages 0 0 0 with
    | some start => (mm.take start pages, some (pageAddress start))
    | none => (mm, none)

def Mm.pageFree (mm : Mm) (address : Nat) : Mm :=
  if address < ramBase ∨ ramBase + ramSize ≤ address then mm
  else
    let index := (address - ramBase) / pageSize
    if Bitmap.test mm.pageBitmap index then
      { mm with
        pageBitmap := Bitmap.clear mm.pageBitmap index
        usedPages := mm.usedPages - 1 }
    else mm

/-- The loop of `pages_free`, with its own range test on the 64-bit sum. -/
def Mm.pagesFree (mm : Mm) (address : Nat) : Nat → Mm
  | 0 => mm
  | count + 1 =>
      let freed := mm.pagesFree address count
      let pageAddr := (address + count * pageSize) % 2 ^ 64
      if ramBase ≤ pageAddr ∧ pageAddr < ramBase + ramSize then
        let index := (pageAddr - ramBase) / pageSize
        if Bitmap.test freed.pageBitmap index then
          { freed with
            pageBitmap := Bitmap.clear freed.pageBitmap index
            usedPages := freed.usedPages - 1 }
        else freed
      else freed

def Mm.getFreePages (mm : Mm) : Word := mm.totalPages - mm.usedPages

/-- What the linker script fixes: the kernel image and stack end inside RAM. -/
structure KernelImage where
  stackTop : Nat
  above : ramBase ≤ stackTop
  inside : stackTop ≤ ramBase + ramSize

end DragoonKernel
