import DragoonKernel.VirtioMmioCore
import DragoonKernel.PageAllocatorSpec

/-!
What a device has been told and what it has answered, and which access the rules of virtio allow
the driver next.
-/

namespace DragoonKernel

def acknowledgeBit : Nat := 0
def driverBit : Nat := 1
def driverOkBit : Nat := 2
def featuresOkBit : Nat := 3
def needsResetBit : Nat := 6

/-- The two registers of an address. -/
structure AddressRegs where
  low : BitVec 32
  high : BitVec 32

def AddressRegs.address (regs : AddressRegs) : Nat := regs.high.toNat * 2 ^ 32 + regs.low.toNat

/-- `chosen` is whether the queue has been selected since the reset. -/
structure QueueView where
  chosen : Bool
  max : BitVec 32
  num : BitVec 32
  align : BitVec 32
  pfn : BitVec 32
  desc : AddressRegs
  avail : AddressRegs
  used : AddressRegs
  ready : BitVec 32

def QueueView.blank : QueueView := ⟨false, 0, 0, 0, 0, ⟨0, 0⟩, ⟨0, 0⟩, ⟨0, 0⟩, 0⟩

def QueueView.tell (queue : QueueView) (reg : MmioReg) (value : BitVec 32) : QueueView :=
  match reg with
  | .queueNum => { queue with num := value }
  | .queueAlign => { queue with align := value }
  | .queuePfn => { queue with pfn := value }
  | .queueReady => { queue with ready := value }
  | .queueDescLow => { queue with desc.low := value }
  | .queueDescHigh => { queue with desc.high := value }
  | .queueAvailLow => { queue with avail.low := value }
  | .queueAvailHigh => { queue with avail.high := value }
  | .queueUsedLow => { queue with used.low := value }
  | .queueUsedHigh => { queue with used.high := value }
  | _ => queue

/-- `confirmed` is whether an answer since the reset had `FEATURES_OK` in the status. -/
structure DeviceView where
  version : BitVec 32
  status : BitVec 32
  confirmed : Bool
  offered : BitVec 32
  accepted : BitVec 32
  guestPage : BitVec 32
  sel : BitVec 32
  queues : BitVec 32 → QueueView

def DeviceView.reset (version : BitVec 32) : DeviceView :=
  ⟨version, 0, false, 0, 0, 0, 0, fun _ => .blank⟩

/-- What happens to the queue that is selected. -/
def DeviceView.queue (view : DeviceView) (change : QueueView → QueueView) : DeviceView :=
  { view with
    queues := Function.update view.queues view.sel (change (view.queues view.sel)) }

def DeviceView.read (view : DeviceView) (reg : MmioReg) (value : BitVec 32) : DeviceView :=
  match reg with
  | .version => { view with version := value }
  | .status => { view with confirmed := view.confirmed || value.getLsbD featuresOkBit }
  | .devFeatures => { view with offered := value }
  | .queueNumMax => view.queue fun queue => { queue with max := value }
  | _ => view

def DeviceView.write (view : DeviceView) (reg : MmioReg) (value : BitVec 32) : DeviceView :=
  match reg with
  | .status => if value = 0 then .reset view.version else { view with status := value }
  | .drvFeatures => { view with accepted := value }
  | .guestPageSize => { view with guestPage := value }
  | .queueSel =>
      { view with
        sel := value
        queues := Function.update view.queues value { view.queues value with chosen := true } }
  | .queueNum | .queueAlign | .queuePfn | .queueReady | .queueDescLow | .queueDescHigh
  | .queueAvailLow | .queueAvailHigh | .queueUsedLow | .queueUsedHigh =>
      view.queue fun queue => queue.tell reg value
  | _ => view

def DeviceView.follow (base : Word) (view : DeviceView) : MmioAccess → DeviceView
  | .read place reg value => if place = base then view.read reg value else view
  | .write place reg value => if place = base then view.write reg value else view

/-- The device at `base` after the accesses of a log. -/
def viewOf (log : List MmioAccess) (base : Word) : DeviceView :=
  log.foldl (DeviceView.follow base) (.reset 0)

def DeviceView.Told (view : DeviceView) (bit : Nat) : Prop := view.status.getLsbD bit = true

/-- The features are settled: a device of version 2 has answered with `FEATURES_OK`. -/
def DeviceView.Settled (view : DeviceView) : Prop := 2 ≤ view.version → view.confirmed = true

def DeviceView.Complete (view : DeviceView) (queue : QueueView) : Prop :=
  queue.num ≠ 0 ∧ if view.version = 1 then queue.pfn ≠ 0 else queue.ready = 1

/-- The queues may be configured. -/
structure DeviceView.Configurable (view : DeviceView) : Prop where
  driver : view.Told driverBit
  settled : view.Settled
  stopped : ¬ view.Told driverOkBit

/-- The bits of a new status have their turn. -/
structure DeviceView.Grants (view : DeviceView) (status : BitVec 32) : Prop where
  kept : ∀ bit ≤ driverBit, view.Told bit → status.getLsbD bit = true
  driver : status.getLsbD driverBit = true → view.Told acknowledgeBit
  featuresOk : status.getLsbD featuresOkBit = true →
    view.Told driverBit ∧ view.accepted = view.offered
  driverOk : status.getLsbD driverOkBit = true → view.Told driverBit ∧ view.Settled ∧
    ∀ index, (view.queues index).chosen = true → view.Complete (view.queues index)

/-- What the driver may write where. -/
def DeviceView.Allows (view : DeviceView) (reg : MmioReg) (value : BitVec 32) : Prop :=
  match reg with
  | .status => value = 0 ∨ value = statusFailed ∨ view.Grants value
  | .devFeaturesSel | .drvFeaturesSel => view.Told driverBit
  | .drvFeatures =>
      view.Told driverBit ∧ ¬ view.Told featuresOkBit ∧ value = view.offered
  | .guestPageSize | .queueSel | .queueAlign | .queuePfn | .queueDescLow | .queueDescHigh
  | .queueAvailLow | .queueAvailHigh | .queueUsedLow | .queueUsedHigh => view.Configurable
  | .queueNum =>
      view.Configurable ∧ 0 < value ∧ value ≤ (view.queues view.sel).max
  | .queueReady => view.Configurable ∧ (view.queues view.sel).num ≠ 0
  | .queueNotify =>
      view.Told driverOkBit ∧ (view.queues value).chosen = true ∧
        view.Complete (view.queues value)
  | .config _ => view.Told driverBit
  | .magic | .version | .deviceId | .vendorId | .devFeatures | .queueNumMax => False

def DeviceView.AllowsRead (view : DeviceView) : MmioReg → Prop
  | .devFeatures | .config _ => view.Told driverBit
  | .queueNumMax => view.Configurable
  | _ => True

def MmioAccess.Legal (log : List MmioAccess) : MmioAccess → Prop
  | .read base reg _ => (viewOf log base).AllowsRead reg
  | .write base reg value => (viewOf log base).Allows reg value

/-- Each access of the log is allowed after those before it. -/
def Speaks (log : List MmioAccess) : Prop :=
  ∀ before access after, log = before ++ access :: after → access.Legal before

/-- Where the device looks for the table and the rings of a queue. -/
def DeviceView.rings (view : DeviceView) (queue : QueueView) : Nat × Nat × Nat :=
  if view.version = 1 then
    let desc := queue.pfn.toNat * view.guestPage.toNat
    let avail := desc + 16 * queue.num.toNat
    (desc, avail, alignUp (avail + 2 * (3 + queue.num.toNat)) queue.align.toNat)
  else (queue.desc.address, queue.avail.address, queue.used.address)

/-- The device works on the queue that the driver works on. -/
structure DeviceView.Shares (view : DeviceView) (queue : DeviceQueue) : Prop where
  chosen : (view.queues queue.queueIdx).chosen = true
  complete : view.Complete (view.queues queue.queueIdx)
  num : (view.queues queue.queueIdx).num.toNat = queue.vq.num.toNat
  rings : view.rings (view.queues queue.queueIdx) =
    (queue.vq.layout.desc, queue.vq.layout.avail, queue.vq.layout.used)

/-- Accesses to one device, all of them allowed. -/
structure Bus.Extends (base : Word) (bus after : Bus) : Prop where
  speaks : Speaks bus.log → Speaks after.log
  others : ∀ other, other ≠ base → viewOf after.log other = viewOf bus.log other
  used : ∀ index, bus.mm.isUsed index = true → after.mm.isUsed index = true

structure Bus.Reaches (base : Word) (bus after : Bus) (view : DeviceView) : Prop where
  extend : bus.Extends base after
  viewed : viewOf after.log base = view

section Logs

variable {log : List MmioAccess} {base other : Word} {reg : MmioReg} {value : BitVec 32}

theorem viewOf_snoc (log : List MmioAccess) (access : MmioAccess) (base : Word) :
    viewOf (log ++ [access]) base = (viewOf log base).follow base access := by
  rw [viewOf, List.foldl_append]
  rfl

theorem viewOf_read (log : List MmioAccess) (base : Word) (reg : MmioReg) (value : BitVec 32) :
    viewOf (log ++ [.read base reg value]) base = (viewOf log base).read reg value := by
  rw [viewOf_snoc, DeviceView.follow, if_pos rfl]

theorem viewOf_write (log : List MmioAccess) (base : Word) (reg : MmioReg) (value : BitVec 32) :
    viewOf (log ++ [.write base reg value]) base = (viewOf log base).write reg value := by
  rw [viewOf_snoc, DeviceView.follow, if_pos rfl]

theorem viewOf_read_other (different : other ≠ base) :
    viewOf (log ++ [.read base reg value]) other = viewOf log other := by
  rw [viewOf_snoc, DeviceView.follow, if_neg different.symm]

theorem viewOf_write_other (different : other ≠ base) :
    viewOf (log ++ [.write base reg value]) other = viewOf log other := by
  rw [viewOf_snoc, DeviceView.follow, if_neg different.symm]

theorem Speaks.snoc (speaks : Speaks log) {access : MmioAccess} (legal : access.Legal log) :
    Speaks (log ++ [access]) := by
  intro before middle after split
  rcases List.eq_nil_or_concat after with rfl | ⟨inner, last, rfl⟩
  · obtain ⟨rfl, same⟩ := List.append_inj' split rfl
    cases same
    exact legal
  · have longer : log ++ [access] = (before ++ middle :: inner) ++ [last] := by
      rw [split, List.concat_eq_append, List.append_assoc, List.cons_append]
    obtain ⟨rfl, _⟩ := List.append_inj' longer rfl
    exact speaks before middle inner rfl

end Logs

section Extending

variable {base : Word} {bus middle after : Bus} {view : DeviceView}

theorem Bus.Extends.refl (base : Word) (bus : Bus) : bus.Extends base bus :=
  ⟨id, fun _ _ => rfl, fun _ => id⟩

theorem Bus.Extends.trans (first : bus.Extends base middle) (second : middle.Extends base after) :
    bus.Extends base after :=
  ⟨second.speaks ∘ first.speaks,
    fun other different => (second.others other different).trans (first.others other different),
    fun index => second.used index ∘ first.used index⟩

theorem Bus.Reaches.refl (base : Word) (bus : Bus) :
    bus.Reaches base bus (viewOf bus.log base) :=
  ⟨.refl base bus, rfl⟩

theorem Bus.Reaches.trans {last : DeviceView} (first : bus.Reaches base middle view)
    (second : middle.Reaches base after last) : bus.Reaches base after last :=
  ⟨first.extend.trans second.extend, second.viewed⟩

theorem Bus.Reaches.write (reaches : bus.Reaches base after view) (reg : MmioReg)
    (value : BitVec 32) (allowed : view.Allows reg value) :
    bus.Reaches base (after.vioWrite base reg value) (view.write reg value) := by
  have step : after.Extends base (after.vioWrite base reg value) := by
    refine ⟨fun speaks => speaks.snoc ?_, fun other different => ?_, fun _ => id⟩
    · rw [MmioAccess.Legal, reaches.viewed]
      exact allowed
    · exact viewOf_write_other different
  refine ⟨reaches.extend.trans step, ?_⟩
  rw [Bus.vioWrite, viewOf_write, reaches.viewed]

theorem Bus.Reaches.read (reaches : bus.Reaches base after view) (answers : Answers)
    (reg : MmioReg) (allowed : view.AllowsRead reg) :
    bus.Reaches base (after.vioRead answers base reg).1
      (view.read reg (after.vioRead answers base reg).2) := by
  have step : after.Extends base (after.vioRead answers base reg).1 := by
    refine ⟨fun speaks => speaks.snoc ?_, fun other different => ?_, fun _ => id⟩
    · rw [MmioAccess.Legal, reaches.viewed]
      exact allowed
    · exact viewOf_read_other different
  refine ⟨reaches.extend.trans step, ?_⟩
  rw [Bus.vioRead, viewOf_read, reaches.viewed]

theorem Bus.Reaches.pagesAlloc {pages : Nat} {mm : Mm} {mem : Option Nat}
    (reaches : bus.Reaches base after view) (allocated : after.mm.pagesAlloc pages = (mm, mem)) :
    bus.Reaches base { after with mm := mm } view := by
  refine ⟨⟨reaches.extend.speaks, reaches.extend.others, fun index used => ?_⟩, reaches.viewed⟩
  have before := reaches.extend.used index used
  cases mem with
  | none => rw [pagesAlloc_none allocated]; exact before
  | some address =>
      obtain ⟨start, _, _, _, rfl, _⟩ := pagesAlloc_some allocated
      rw [take_isUsed, before, Bool.or_true]

end Extending

section Views

variable {view : DeviceView}

theorem DeviceView.Configurable.of_eq {other : DeviceView} (ready : view.Configurable)
    (version : other.version = view.version) (status : other.status = view.status)
    (confirmed : other.confirmed = view.confirmed) : other.Configurable := by
  obtain ⟨driver, settled, stopped⟩ := ready
  refine ⟨?_, ?_, ?_⟩
  · rw [DeviceView.Told, status]; exact driver
  · rw [DeviceView.Settled, version, confirmed]; exact settled
  · rw [DeviceView.Told, status]; exact stopped

/-- A status before the features and the queues. -/
theorem DeviceView.Grants.early {status : BitVec 32}
    (kept : ∀ bit ≤ driverBit, view.Told bit → status.getLsbD bit = true)
    (driver : status.getLsbD driverBit = true → view.Told acknowledgeBit)
    (features : ¬ status.getLsbD featuresOkBit = true)
    (stopped : ¬ status.getLsbD driverOkBit = true) : view.Grants status :=
  ⟨kept, driver, fun set => absurd set features, fun set => absurd set stopped⟩

/-- A write to another register changes neither the version nor the status. -/
theorem write_keeps {reg : MmioReg} (other : reg ≠ .status) (value : BitVec 32) :
    (view.write reg value).version = view.version ∧
    (view.write reg value).status = view.status ∧
    (view.write reg value).confirmed = view.confirmed := by
  cases reg with
  | status => exact absurd rfl other
  | _ => exact ⟨rfl, rfl, rfl⟩

theorem DeviceView.Configurable.write (ready : view.Configurable) (reg : MmioReg)
    (value : BitVec 32) (other : reg ≠ .status) : (view.write reg value).Configurable := by
  obtain ⟨version, status, confirmed⟩ := @write_keeps view reg other value
  exact ready.of_eq version status confirmed

end Views

end DragoonKernel
