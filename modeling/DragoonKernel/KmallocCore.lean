import DragoonKernel.PageAllocatorCore

/-! Executable model of the heap in `linux/compat.c`. -/

namespace DragoonKernel

structure Heap where
  mm : Mm
  slabPage : Nat
  slabOffset : Nat

def Heap.boot (mm : Mm) : Heap := ⟨mm, 0, 0⟩

/-- `size` is a `u64`. The number of pages of a large block is computed in 64 bits. -/
def Heap.kmalloc (heap : Heap) (size : Nat) (_flags : BitVec 32) : Heap × Option Nat :=
  if size = 0 then (heap, none)
  else if size ≤ 2048 then
    let size := alignUp size 16
    if heap.slabPage = 0 ∨ pageSize < heap.slabOffset + size then
      match heap.mm.pageAlloc with
      | (mm, none) => ({ heap with mm := mm }, none)
      | (mm, some page) => ({ mm := mm, slabPage := page, slabOffset := size }, some page)
    else
      ({ heap with slabOffset := heap.slabOffset + size },
        some (heap.slabPage + heap.slabOffset))
  else
    let pages := (size + (pageSize - 1)) % 2 ^ 64 / pageSize
    if 1 < pages then (heap, none)
    else match heap.mm.pageAlloc with
      | (mm, page) => ({ heap with mm := mm }, page)

def clearBytes (word : Word) (cleared : Nat → Bool) : Word :=
  (List.range 8).foldl (fun word byte =>
    if cleared byte then word &&& ~~~((0xFF : Word) <<< (8 * byte)) else word) word

def zeroBytes (memory : Memory) (address size : Nat) : Memory := fun frame index =>
  clearBytes (memory frame index) fun byte =>
    decide ((frame * pageSize + index * 8 + byte + 2 ^ 64 - address) % 2 ^ 64 < size)

def Heap.kzalloc (heap : Heap) (size : Nat) (flags : BitVec 32) : Heap × Option Nat :=
  match heap.kmalloc size flags with
  | (heap, none) => (heap, none)
  | (heap, some address) =>
      let memory := zeroBytes heap.mm.memory address size
      ({ heap with mm := { heap.mm with memory := memory } }, some address)

def Heap.kfree (heap : Heap) (address : Nat) : Heap :=
  if address = 0 then heap
  else if address % pageSize = 0 then { heap with mm := heap.mm.pageFree address }
  else heap

end DragoonKernel
