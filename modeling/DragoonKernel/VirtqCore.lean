import DragoonKernel.PageAllocatorCore
import DragoonKernel.Library.Ring

/-! Executable model of the virtqueues of `kernel/virtio.c`, with the device at their other end. -/

namespace DragoonKernel

def virtqSize : Nat := 16

structure VirtqDesc where
  addr : Word
  len : BitVec 32
  flags : BitVec 16
  next : BitVec 16

structure VirtqAvail where
  flags : BitVec 16
  idx : BitVec 16
  ring : Nat → BitVec 16

structure VirtqUsedElem where
  id : BitVec 32
  len : BitVec 32
deriving DecidableEq

structure VirtqUsed where
  flags : BitVec 16
  idx : BitVec 16
  ring : Nat → VirtqUsedElem

/-- Where the descriptor table and the two rings lie, and the pages allocated for them. -/
structure VirtqLayout where
  desc : Nat
  avail : Nat
  used : Nat
  pages : Nat

/-- `struct virtq` with what its pointers refer to. -/
structure Virtq where
  layout : VirtqLayout
  desc : Nat → VirtqDesc
  avail : VirtqAvail
  used : VirtqUsed
  num : BitVec 16
  freeHead : BitVec 16
  lastUsedIdx : BitVec 16

/-- `if ((u32)size > max_size) size = (int)max_size`. -/
def queueSize (size maxSize : Nat) : Nat := if size > maxSize then maxSize else size

def legacyPages (size : Nat) : Nat :=
  (alignUp (size * 16 + (6 + size * 2)) pageSize + (6 + size * 8) + pageSize - 1) / pageSize

def legacyLayout (size addr : Nat) : VirtqLayout where
  desc := addr
  avail := addr + size * 16
  used := addr + alignUp (size * 16 + (6 + size * 2)) pageSize
  pages := legacyPages size

def modernLayout (size addr : Nat) : VirtqLayout where
  desc := addr
  avail := addr + size * 16
  used := alignUp (addr + size * 16 + 4 + size * 2) 4
  pages := 1

/-- The loop that links the descriptors, and the stop mark of the last one. -/
def descFreeList (size : Nat) (desc : Nat → VirtqDesc) : Nat → VirtqDesc :=
  let linked := fun i => if i < size then ⟨0, 0, 0, BitVec.ofNat 16 (i + 1)⟩ else desc i
  Function.update linked (size - 1) { linked (size - 1) with next := 0xFFFF }

/-- The part that both versions share, over what the memory at the layout held before. -/
def virtqInit (layout : VirtqLayout) (size : Nat) (desc : Nat → VirtqDesc) (avail : VirtqAvail)
    (used : VirtqUsed) : Virtq where
  layout := layout
  desc := descFreeList size desc
  avail := { avail with flags := 0, idx := 0 }
  used := { used with flags := 0, idx := 0 }
  num := BitVec.ofNat 16 size
  freeHead := 0
  lastUsedIdx := 0

section Setup

variable (pagesAlloc : Nat → Option Nat) (desc : Nat → VirtqDesc) (avail : VirtqAvail)
  (used : VirtqUsed)

/-- `maxSize` is what the device answers, and `pagesAlloc` what the page allocator does. -/
def virtqSetupLegacy (size maxSize : Nat) : Option Virtq :=
  if maxSize = 0 then none
  else (pagesAlloc (legacyPages (queueSize size maxSize))).map fun addr =>
    virtqInit (legacyLayout (queueSize size maxSize) addr) (queueSize size maxSize) desc avail used

def virtqSetupModern (size maxSize : Nat) : Option Virtq :=
  if maxSize = 0 then none
  else (pagesAlloc 1).map fun addr =>
    virtqInit (modernLayout (queueSize size maxSize) addr) (queueSize size maxSize) desc avail used

def virtqSetup (version : BitVec 32) (size maxSize : Nat) : Option Virtq :=
  if version = 1 then virtqSetupLegacy pagesAlloc desc avail used size maxSize
  else virtqSetupModern pagesAlloc desc avail used size maxSize

end Setup

def virtqPushBuf (vq : Virtq) (buf : Word) (len : BitVec 32) (flags : BitVec 16) : Virtq :=
  let head := vq.freeHead
  if head = 0xFFFF then vq
  else
    { vq with
      freeHead := (vq.desc head.toNat).next
      desc := Function.update vq.desc head.toNat ⟨buf, len, flags, 0⟩
      avail := { vq.avail with
        ring := Function.update vq.avail.ring (Ring.slot vq.num.toNat vq.avail.idx) head
        idx := vq.avail.idx + 1 } }

def virtqHasUsed (vq : Virtq) : Bool := vq.used.idx ≠ vq.lastUsedIdx

/-- The element popped is the descriptor id returned and `*len`. No element is the result -1. -/
def virtqPopUsed (vq : Virtq) : Virtq × Option VirtqUsedElem :=
  if virtqHasUsed vq then
    let elem := vq.used.ring (Ring.slot vq.num.toNat vq.lastUsedIdx)
    ({ vq with
      lastUsedIdx := vq.lastUsedIdx + 1
      desc := Function.update vq.desc elem.id.toNat
        { vq.desc elem.id.toNat with next := vq.freeHead }
      freeHead := elem.id.setWidth 16 }, some elem)
  else (vq, none)

/-- The device has consumed the available ring up to `seen`, and holds the heads in `owned`. -/
structure VirtqDevice where
  seen : BitVec 16
  owned : List (BitVec 16)

/-- `submitted` and `popped` record what the driver has pushed and popped, `published` what
the device has put into the used ring. -/
structure VirtqSystem where
  vq : Virtq
  device : VirtqDevice
  submitted : List Nat
  published : List VirtqUsedElem
  popped : List VirtqUsedElem

inductive VirtqAction where
  | pushBuf (buf : Word) (len : BitVec 32) (flags : BitVec 16)
  | popUsed
  | fetch
  | publish (head : BitVec 16) (len : BitVec 32)

def VirtqSystem.boot (vq : Virtq) : VirtqSystem := ⟨vq, ⟨0, []⟩, [], [], []⟩

def VirtqSystem.pushBuf (system : VirtqSystem) (buf : Word) (len : BitVec 32)
    (flags : BitVec 16) : VirtqSystem :=
  { system with
    vq := virtqPushBuf system.vq buf len flags
    submitted := if system.vq.freeHead = 0xFFFF then system.submitted
      else system.submitted ++ [system.vq.freeHead.toNat] }

def VirtqSystem.popUsed (system : VirtqSystem) : VirtqSystem :=
  { system with
    vq := (virtqPopUsed system.vq).1
    popped := system.popped ++ (virtqPopUsed system.vq).2.toList }

def VirtqSystem.fetch (system : VirtqSystem) : Option VirtqSystem :=
  if system.device.seen = system.vq.avail.idx then none
  else
    let head := system.vq.avail.ring (Ring.slot system.vq.num.toNat system.device.seen)
    some { system with device := ⟨system.device.seen + 1, head :: system.device.owned⟩ }

def VirtqSystem.publish (system : VirtqSystem) (head : BitVec 16) (len : BitVec 32) :
    Option VirtqSystem :=
  if head ∈ system.device.owned then
    let elem : VirtqUsedElem := ⟨head.setWidth 32, len⟩
    let used := system.vq.used
    some { system with
      vq := { system.vq with used := { used with
        ring := Function.update used.ring (Ring.slot system.vq.num.toNat used.idx) elem
        idx := used.idx + 1 } }
      device := { system.device with owned := system.device.owned.erase head }
      published := system.published ++ [elem] }
  else none

def VirtqSystem.step (system : VirtqSystem) : VirtqAction → Option VirtqSystem
  | .pushBuf buf len flags => some (system.pushBuf buf len flags)
  | .popUsed => some system.popUsed
  | .fetch => system.fetch
  | .publish head len => system.publish head len

end DragoonKernel
