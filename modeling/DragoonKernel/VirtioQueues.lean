import DragoonKernel.VirtioView
import DragoonKernel.VirtqConservation

/-! `virtq_setup` tells the device the queue that the driver has laid out. -/

namespace DragoonKernel

/-- The pages of a queue. -/
def VirtqLayout.Owns (layout : VirtqLayout) (index : Nat) : Prop :=
  layout.desc ≤ pageAddress index ∧ pageAddress index < layout.desc + layout.pages * pageSize

/-- A queue in pages that were free. -/
structure QueueBuilt (before after : Mm) (vq : Virtq) : Prop where
  positive : 0 < vq.num.toNat
  small : vq.num.toNat ≤ virtqSize
  fresh : vq = freshVirtq vq.layout vq.num.toNat
  fits : vq.layout.Fits vq.num.toNat vq.layout.desc
  free : ∀ index, vq.layout.Owns index → before.isUsed index = false
  taken : ∀ index, vq.layout.Owns index → after.isUsed index = true

/-- The rest of the device while one queue is configured. -/
structure DeviceView.Beside (view : DeviceView) (index : BitVec 32) (after : DeviceView) : Prop where
  version : after.version = view.version
  status : after.status = view.status
  confirmed : after.confirmed = view.confirmed
  offered : after.offered = view.offered
  accepted : after.accepted = view.accepted
  guestPage : after.guestPage = view.guestPage ∨ after.guestPage = BitVec.ofNat 32 pageSize
  queues : ∀ other, other ≠ index → after.queues other = view.queues other

/-- What `virtq_setup` leaves behind. -/
structure SetUp (base : Word) (bus : Bus) (view : DeviceView) (dev : VirtioDev) (queueIdx : Nat)
    (result : Bus × VirtioDev × Bool) (last : DeviceView) : Prop where
  reaches : bus.Reaches base result.1 last
  beside : view.Beside (BitVec.ofNat 32 queueIdx) last
  done : result.2.2 = true → ∃ vq, result.2.1 = dev.setQueue queueIdx vq ∧
    QueueBuilt bus.mm result.1.mm vq ∧ last.Shares ⟨vq, base, BitVec.ofNat 32 queueIdx⟩ ∧
    (last.version = 1 → last.guestPage = BitVec.ofNat 32 pageSize)
  failed : result.2.2 = false → result.2.1 = dev

section Layouts

variable {size addr : Nat} {mm after : Mm}

end Layouts

section Queues

variable (view : DeviceView)

theorem queue_queue (first second : QueueView → QueueView) :
    (view.queue first).queue second = view.queue fun queue => second (first queue) := by
  simp only [DeviceView.queue, Function.update_self, Function.update_idem]

end Queues

section Shares

variable {view : DeviceView} {index maxSize : BitVec 32} {base : Word} {num : Nat}

end Shares

section Setup

variable {answers : Answers} {bus : Bus} {dev : VirtioDev} {queueIdx size : Nat}

/-- A write to a register of the selected queue. -/
theorem Bus.Reaches.tell {base : Word} {after : Bus} {view : DeviceView}
    {done : QueueView → QueueView} (reaches : bus.Reaches base after (view.queue done))
    (reg : MmioReg) (value : BitVec 32) (allowed : (view.queue done).Allows reg value)
    (told : ∀ view : DeviceView, view.write reg value = view.queue fun queue => queue.tell reg value) :
    bus.Reaches base (after.vioWrite base reg value)
      (view.queue fun queue => (done queue).tell reg value) := by
  have written := reaches.write reg value allowed
  rw [told, queue_queue] at written
  exact written

end Setup

end DragoonKernel
