import DragoonKernel.VirtioQueues

/-! `virtio_dev_init` takes a device from its reset to `DRIVER_OK` by the steps of virtio. -/

namespace DragoonKernel

/-- A queue of the device on which both sides agree, in pages that were free at the start. -/
structure QueueShared (start : Mm) (bus : Bus) (dev : VirtioDev) (q : Nat) (queue : DeviceQueue) :
    Prop where
  here : dev.queues q = some queue
  base : queue.base = dev.base
  index : queue.queueIdx = BitVec.ofNat 32 q
  shares : (viewOf bus.log dev.base).Shares queue
  size : 0 < queue.vq.num.toNat ∧ queue.vq.num.toNat ≤ virtqSize
  fits : queue.vq.layout.Fits queue.vq.num.toNat queue.vq.layout.desc
  free : ∀ index, queue.vq.layout.Owns index → start.isUsed index = false
  taken : ∀ index, queue.vq.layout.Owns index → bus.mm.isUsed index = true

/-- The settled part of a device. -/
structure DeviceView.SameStage (view after : DeviceView) : Prop where
  version : after.version = view.version
  status : after.status = view.status
  confirmed : after.confirmed = view.confirmed
  offered : after.offered = view.offered
  accepted : after.accepted = view.accepted

section Loop

variable {answers : Answers} {bus : Bus} {dev : VirtioDev} {start : Mm} {view last : DeviceView}

theorem DeviceView.SameStage.trans {middle : DeviceView} (first : view.SameStage middle)
    (second : middle.SameStage last) : view.SameStage last :=
  ⟨second.version.trans first.version, second.status.trans first.status,
    second.confirmed.trans first.confirmed, second.offered.trans first.offered,
    second.accepted.trans first.accepted⟩

theorem DeviceView.Configurable.stage (ready : view.Configurable) (same : view.SameStage last) :
    last.Configurable :=
  ready.of_eq same.version same.status same.confirmed

/-- The rings that a device works on stay while another queue is configured. -/
theorem DeviceView.Shares.beside {index : BitVec 32} {queue : DeviceQueue}
    (shares : view.Shares queue) (beside : view.Beside index last)
    (different : queue.queueIdx ≠ index)
    (page : view.version = 1 → view.guestPage = BitVec.ofNat 32 pageSize) : last.Shares queue := by
  have same := beside.queues queue.queueIdx different
  refine ⟨?_, ?_, ?_, ?_⟩
  · rw [same]; exact shares.chosen
  · rw [same, DeviceView.Complete, beside.version]; exact shares.complete
  · rw [same]; exact shares.num
  · rw [same, ← shares.rings, DeviceView.rings, DeviceView.rings, beside.version]
    split
    · rename_i legacy
      have pages : last.guestPage = view.guestPage := by
        rcases beside.guestPage with kept | told
        · exact kept
        · exact told.trans (page legacy).symm
      rw [pages]
    · rfl

end Loop

/-- What a write of the status read back with more bits puts there. -/
structure StatusAdded (old bits status : BitVec 32) : Prop where
  plain : ∀ bit, bit ≠ featuresOkBit → bit ≠ needsResetBit →
    status.getLsbD bit = (old.getLsbD bit || bits.getLsbD bit)
  featuresOk : status.getLsbD featuresOkBit = true →
    old.getLsbD featuresOkBit = true ∨ bits.getLsbD featuresOkBit = true

section Stages

variable {answers : Answers} {base : Word} {bus after : Bus} {dev : VirtioDev} {start : Mm}
  {view last : DeviceView}

theorem StatusAdded.bit {old bits status : BitVec 32} (added : StatusAdded old bits status)
    (bit : Nat) (plain : bit < featuresOkBit) {was : Bool} (before : old.getLsbD bit = was) :
    status.getLsbD bit = (was || bits.getLsbD bit) := by
  rw [featuresOkBit] at plain
  rw [added.plain bit (by rw [featuresOkBit]; omega) (by rw [needsResetBit]; omega), before]

end Stages

end DragoonKernel
