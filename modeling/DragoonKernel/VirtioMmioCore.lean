import DragoonKernel.VirtioInputCore
import DragoonKernel.VirtioNamesCore

/-!
Executable model of how `kernel/virtio.c` and `kernel/virtio_input.c` find the devices and bring
them up, by the accesses to their registers. What a device answers may depend on all accesses
before, and barriers and messages are left out.
-/

namespace DragoonKernel

inductive MmioReg where
  | magic
  | version
  | deviceId
  | vendorId
  | devFeatures
  | devFeaturesSel
  | drvFeatures
  | drvFeaturesSel
  | guestPageSize
  | queueSel
  | queueNumMax
  | queueNum
  | queueAlign
  | queuePfn
  | queueReady
  | queueNotify
  | status
  | queueDescLow
  | queueDescHigh
  | queueAvailLow
  | queueAvailHigh
  | queueUsedLow
  | queueUsedHigh
  | config (offset : BitVec 32)
  deriving DecidableEq

def MmioReg.offset : MmioReg → BitVec 32
  | .magic => 0x000
  | .version => 0x004
  | .deviceId => 0x008
  | .vendorId => 0x00C
  | .devFeatures => 0x010
  | .devFeaturesSel => 0x014
  | .drvFeatures => 0x020
  | .drvFeaturesSel => 0x024
  | .guestPageSize => 0x028
  | .queueSel => 0x030
  | .queueNumMax => 0x034
  | .queueNum => 0x038
  | .queueAlign => 0x03C
  | .queuePfn => 0x040
  | .queueReady => 0x044
  | .queueNotify => 0x050
  | .status => 0x070
  | .queueDescLow => 0x080
  | .queueDescHigh => 0x084
  | .queueAvailLow => 0x090
  | .queueAvailHigh => 0x094
  | .queueUsedLow => 0x0A0
  | .queueUsedHigh => 0x0A4
  | .config offset => 0x100 + offset

def statusAcknowledge : BitVec 32 := 0x01
def statusDriver : BitVec 32 := 0x02
def statusDriverOk : BitVec 32 := 0x04
def statusFeaturesOk : BitVec 32 := 0x08
def statusFailed : BitVec 32 := 0x80

def virtioMmioSlots : Nat := 32
def virtioMaxQueues : Nat := 2

inductive MmioAccess where
  | read (base : Word) (reg : MmioReg) (value : BitVec 32)
  | write (base : Word) (reg : MmioReg) (value : BitVec 32)

/-- The page allocator with the accesses so far, from the oldest on. -/
structure Bus where
  log : List MmioAccess
  mm : Mm

/-- What the devices answer to the next read. -/
abbrev Answers := List MmioAccess → Word → MmioReg → BitVec 32

/-- A set up entry of `dev->queues`. -/
structure DeviceQueue where
  vq : Virtq
  base : Word
  queueIdx : BitVec 32

/-- `struct virtio_dev`. An entry of `queues` that is not set up is `none`. -/
structure VirtioDev where
  base : Word
  deviceId : BitVec 32
  vendorId : BitVec 32
  version : BitVec 32
  queues : Nat → Option DeviceQueue
  numQueues : Nat
  active : Bool

def Bus.vioWrite (bus : Bus) (base : Word) (reg : MmioReg) (value : BitVec 32) : Bus :=
  { bus with log := bus.log ++ [.write base reg value] }

section Driver

variable (answers : Answers)

def Bus.vioRead (bus : Bus) (base : Word) (reg : MmioReg) : Bus × BitVec 32 :=
  let value := answers bus.log base reg
  ({ bus with log := bus.log ++ [.read base reg value] }, value)

def slotBase (slot : Nat) : Word := 0x0A000000 + BitVec.ofNat 64 slot * 0x200

/-- A virtqueue in memory that `pages_alloc` has zeroed. -/
def freshVirtq (layout : VirtqLayout) (size : Nat) : Virtq :=
  virtqInit layout size (fun _ => ⟨0, 0, 0, 0⟩) ⟨0, 0, fun _ => 0⟩ ⟨0, 0, fun _ => ⟨0, 0⟩⟩

def VirtioDev.setQueue (dev : VirtioDev) (queueIdx : Nat) (vq : Virtq) : VirtioDev :=
  { dev with
    queues := Function.update dev.queues queueIdx
      (some ⟨vq, dev.base, BitVec.ofNat 32 queueIdx⟩) }

/-- The last component is whether the result is 0. -/
def Bus.virtqSetupLegacy (bus : Bus) (dev : VirtioDev) (queueIdx size : Nat) :
    Bus × VirtioDev × Bool :=
  let bus := bus.vioWrite dev.base .queueSel (BitVec.ofNat 32 queueIdx)
  let (bus, maxSize) := bus.vioRead answers dev.base .queueNumMax
  if maxSize = 0 then (bus, dev, false)
  else
    let size := queueSize size maxSize.toNat
    let bus := bus.vioWrite dev.base .guestPageSize (BitVec.ofNat 32 pageSize)
    match bus.mm.pagesAlloc (legacyPages size) with
    | (mm, none) => ({ bus with mm := mm }, dev, false)
    | (mm, some addr) =>
        let bus := { bus with mm := mm }
        let bus := bus.vioWrite dev.base .queueNum (BitVec.ofNat 32 size)
        let bus := bus.vioWrite dev.base .queueAlign (BitVec.ofNat 32 pageSize)
        let bus := bus.vioWrite dev.base .queuePfn (BitVec.ofNat 32 (addr / pageSize))
        (bus, dev.setQueue queueIdx (freshVirtq (legacyLayout size addr) size), true)

def lowWord (address : Nat) : BitVec 32 := BitVec.ofNat 32 address

def highWord (address : Nat) : BitVec 32 := BitVec.ofNat 32 (address >>> 32)

def Bus.virtqSetupModern (bus : Bus) (dev : VirtioDev) (queueIdx size : Nat) :
    Bus × VirtioDev × Bool :=
  let bus := bus.vioWrite dev.base .queueSel (BitVec.ofNat 32 queueIdx)
  let (bus, maxSize) := bus.vioRead answers dev.base .queueNumMax
  if maxSize = 0 then (bus, dev, false)
  else
    let size := queueSize size maxSize.toNat
    match bus.mm.pagesAlloc 1 with
    | (mm, none) => ({ bus with mm := mm }, dev, false)
    | (mm, some addr) =>
        let layout := modernLayout size addr
        let bus := { bus with mm := mm }
        let bus := bus.vioWrite dev.base .queueNum (BitVec.ofNat 32 size)
        let bus := bus.vioWrite dev.base .queueDescLow (lowWord layout.desc)
        let bus := bus.vioWrite dev.base .queueDescHigh (highWord layout.desc)
        let bus := bus.vioWrite dev.base .queueAvailLow (lowWord layout.avail)
        let bus := bus.vioWrite dev.base .queueAvailHigh (highWord layout.avail)
        let bus := bus.vioWrite dev.base .queueUsedLow (lowWord layout.used)
        let bus := bus.vioWrite dev.base .queueUsedHigh (highWord layout.used)
        let bus := bus.vioWrite dev.base .queueReady 1
        (bus, dev.setQueue queueIdx (freshVirtq layout size), true)

def Bus.virtqSetup (bus : Bus) (dev : VirtioDev) (queueIdx size : Nat) : Bus × VirtioDev × Bool :=
  if dev.version = 1 then bus.virtqSetupLegacy answers dev queueIdx size
  else bus.virtqSetupModern answers dev queueIdx size

/-- The loop of `virtio_dev_init` over the queues from `q` on, of which `left` are left. -/
def Bus.setupQueues (bus : Bus) (dev : VirtioDev) (q : Nat) : Nat → Bus × VirtioDev × Bool
  | 0 => (bus, dev, true)
  | left + 1 =>
      match bus.virtqSetup answers dev q virtqSize with
      | (bus, dev, true) => bus.setupQueues dev (q + 1) left
      | (bus, dev, false) => (bus, dev, false)

/-- `vio_write(base, STATUS, vio_read(base, STATUS) | bits)`. -/
def Bus.addStatus (bus : Bus) (base : Word) (bits : BitVec 32) : Bus :=
  let (bus, status) := bus.vioRead answers base .status
  bus.vioWrite base .status (status ||| bits)

/-- The test of `FEATURES_OK`, which a legacy device does not have. -/
def Bus.featuresOk (bus : Bus) (dev : VirtioDev) : Bus × Bool :=
  if 2 ≤ dev.version then
    let bus := bus.addStatus answers dev.base statusFeaturesOk
    let (bus, status) := bus.vioRead answers dev.base .status
    if status &&& statusFeaturesOk = 0 then
      (bus.vioWrite dev.base .status statusFailed, false)
    else (bus, true)
  else (bus, true)

def Bus.virtioDevInit (bus : Bus) (dev : VirtioDev) (numQueues : Nat) : Bus × VirtioDev × Bool :=
  let bus := bus.vioWrite dev.base .status 0
  let bus := bus.addStatus answers dev.base statusAcknowledge
  let bus := bus.addStatus answers dev.base statusDriver
  let bus := bus.vioWrite dev.base .devFeaturesSel 0
  let (bus, features) := bus.vioRead answers dev.base .devFeatures
  let bus := bus.vioWrite dev.base .drvFeaturesSel 0
  let bus := bus.vioWrite dev.base .drvFeatures features
  match bus.featuresOk answers dev with
  | (bus, false) => (bus, dev, false)
  | (bus, true) =>
      match bus.setupQueues answers dev 0 numQueues with
      | (bus, dev, false) => (bus, dev, false)
      | (bus, dev, true) =>
          let bus := bus.addStatus answers dev.base statusDriverOk
          (bus, { dev with numQueues := numQueues, active := true }, true)

/-- The pushes of `refill_event_queue`. -/
def refillPushes (vq : Virtq) (bufs : Word) (count : Nat) : Virtq :=
  (List.range count).foldl
    (fun vq i => virtqPushBuf vq (bufAddr bufs i) eventSize virtqDescFWrite) vq

def Bus.virtqKick (bus : Bus) (queue : DeviceQueue) : Bus :=
  bus.vioWrite queue.base .queueNotify queue.queueIdx

def Bus.refillEventQueue (bus : Bus) (dev : VirtioDev) (bufs : Word) : Bus × VirtioDev :=
  match dev.queues 0 with
  | none => (bus, dev)
  | some queue =>
      let queue := { queue with vq := refillPushes queue.vq bufs eventBufCount }
      (bus.virtqKick queue, { dev with queues := Function.update dev.queues 0 (some queue) })

/-- The reads of the name in `query_input_name`, of which `count` are left. -/
def Bus.readName (bus : Bus) (base : Word) (i : Nat) : Nat → Bus × List (BitVec 8)
  | 0 => (bus, [])
  | count + 1 =>
      let (bus, value) := bus.vioRead answers base (.config (8 + BitVec.ofNat 32 i))
      let (bus, rest) := bus.readName base (i + 1) count
      (bus, value.setWidth 8 :: rest)

/-- The accesses of `query_input_name`, and what the config space has shown. -/
def Bus.queryInputName (bus : Bus) (base : Word) (maxLen : Nat) : Bus × InputDevice :=
  let bus := bus.vioWrite base (.config 0) 1
  let bus := bus.vioWrite base (.config 1) 0
  let (bus, value) := bus.vioRead answers base (.config 2)
  let size : BitVec 8 := value.setWidth 8
  if size = 0 ∨ 128 < size then (bus, ⟨size, fun _ => 0⟩)
  else
    let n := if size.toNat < maxLen - 1 then size.toNat else maxLen - 1
    let (bus, name) := bus.readName answers base 0 n
    (bus.vioWrite base (.config 0) 0, ⟨size, fun i => name.getD i 0⟩)

/-- The devices, and the places in them of `kbd_dev` and `tablet_dev`. -/
structure InputDevices where
  found : List VirtioDev
  kbdDev : Option Nat
  tabletDev : Option Nat

/-- `virtio_dev_init(dev, 1)` and then `refill_event_queue`. -/
def Bus.start (bus : Bus) (dev : VirtioDev) (bufs : Word) : Bus × VirtioDev × Bool :=
  match bus.virtioDevInit answers dev 1 with
  | (bus, dev, false) => (bus, dev, false)
  | (bus, dev, true) =>
      let (bus, dev) := bus.refillEventQueue dev bufs
      (bus, dev, true)

/-- The result of `virtio_input_init` is 0. -/
def InputDevices.available (devices : InputDevices) : Bool :=
  devices.kbdDev.isSome || devices.tabletDev.isSome

end Driver

end DragoonKernel
