import DragoonKernel.VirtioHandshake
import DragoonKernel.VirtioInspection
import DragoonKernel.VirtioInput
import DragoonKernel.Library.Components

/-!
`input_init` finds the devices, tells the keyboard from the pointer and brings both up, and speaks
virtio with each of them.
-/

namespace DragoonKernel

section Probe

variable {answers : Answers} {bus : Bus} {found : List VirtioDev} {slot : Nat}

theorem slotBase_inj {first second : Nat} (one : first < virtioMmioSlots)
    (two : second < virtioMmioSlots) (same : slotBase first = slotBase second) :
    first = second := by
  rw [virtioMmioSlots] at one two
  have values := congrArg BitVec.toNat same
  simp [slotBase, BitVec.toNat_add, BitVec.toNat_mul] at values
  omega

/-- The slots before `slot` have been probed. -/
structure Probed (mm : Mm) (bus : Bus) (found : List VirtioDev) (slot : Nat) : Prop where
  speaks : Speaks bus.log
  mm : bus.mm = mm
  known : ∀ dev ∈ found, viewOf bus.log dev.base = .reset dev.version ∧ dev.active = false ∧
    ∃ place < slot, dev.base = slotBase place
  bases : found.Pairwise fun one two => one.base ≠ two.base
  later : ∀ place, slot ≤ place → place < virtioMmioSlots →
    viewOf bus.log (slotBase place) = .reset 0

/-- Accesses to one slot that leave its device in reset. -/
theorem Probed.visit {mm : Mm} {after : Bus} {version : BitVec 32}
    (probed : Probed mm bus found slot) (inside : slot < virtioMmioSlots)
    (reaches : bus.Reaches (slotBase slot) after (.reset version)) (kept : after.mm = bus.mm) :
    Probed mm after found (slot + 1) ∧ ∀ dev ∈ found, dev.base ≠ slotBase slot := by
  have different : ∀ dev ∈ found, dev.base ≠ slotBase slot := by
    intro dev listed same
    obtain ⟨_, _, place, before, base⟩ := probed.known dev listed
    exact before.ne (slotBase_inj (before.trans inside) inside (base.symm.trans same))
  refine ⟨⟨reaches.extend.speaks probed.speaks, kept.trans probed.mm, fun dev listed => ?_,
    probed.bases, fun place after here => ?_⟩, different⟩
  · obtain ⟨view, idle, place, before, base⟩ := probed.known dev listed
    exact ⟨(reaches.extend.others _ (different dev listed)).trans view, idle, place,
      before.trans (Nat.lt_succ_self slot), base⟩
  · have apart : slotBase place ≠ slotBase slot := fun same =>
      (Nat.lt_of_succ_le after).ne' (slotBase_inj here inside same)
    exact (reaches.extend.others _ apart).trans (probed.later place (Nat.le_of_succ_le after) here)

end Probe

section Inspect

variable {base : Word} {bus after : Bus} {view : DeviceView} (answers : Answers)

end Inspect

/-- The first `count` buffers are in the available ring in their order, each under the descriptor
of its own index. -/
structure Virtq.Submits (bufs : Word) (vq : Virtq) (count : Nat) : Prop where
  idx : vq.avail.idx = BitVec.ofNat 16 count
  ring : ∀ head < count, vq.avail.ring head = BitVec.ofNat 16 head
  desc : ∀ head < count, vq.desc head = ⟨bufAddr bufs head, eventSize, virtqDescFWrite, 0⟩

/-- A queue that was fresh before `count` buffers were pushed. -/
structure Virtq.Filled (bufs : Word) (num : Nat) (vq : Virtq) (count : Nat) : Prop where
  size : vq.num.toNat = num
  free : vq.FreeChain (List.range' count (num - count))
  submits : vq.Submits bufs count

section Refill

variable (bufs : Word)

def pushEvent (vq : Virtq) (index : Nat) : Virtq :=
  virtqPushBuf vq (bufAddr bufs index) eventSize virtqDescFWrite

/-- A push takes the next descriptor for the next buffer. -/
theorem Virtq.Filled.push {bufs : Word} {num count : Nat} {vq : Virtq}
    (filled : vq.Filled bufs num count) (room : count < num) (small : num ≤ virtqSize) :
    (pushEvent bufs vq count).Filled bufs num (count + 1) := by
  obtain ⟨size, free, idx, ring, desc⟩ := filled
  obtain ⟨left, more⟩ : ∃ left, num - count = left + 1 := ⟨num - count - 1, by omega⟩
  rw [more, List.range'_succ] at free
  have rest : num - (count + 1) = left := by omega
  have fits : (BitVec.ofNat 16 count).toNat = count := by
    rw [BitVec.toNat_ofNat, Nat.mod_eq_of_lt]
    rw [virtqSize] at small
    omega
  have head : vq.freeHead = BitVec.ofNat 16 count :=
    BitVec.eq_of_toNat_eq (free.head.2.trans fits.symm)
  have slot : Ring.slot vq.num.toNat vq.avail.idx = count := by
    rw [Ring.slot, idx, fits, size, Nat.mod_eq_of_lt room]
  refine ⟨?_, rest ▸ free.push _ _ _, ?_, fun other before => ?_, fun other before => ?_⟩
  · rw [pushEvent, virtqPushBuf_free free]
    exact size
  · rw [pushEvent, virtqPushBuf_free free, idx]
    exact (BitVec.ofNat_add count 1).symm
  · rw [pushEvent, virtqPushBuf_free free, slot]
    dsimp only
    by_cases here : other = count
    · rw [here, Function.update_self, head]
    · rw [Function.update_of_ne here]
      exact ring other (by omega)
  · rw [pushEvent, virtqPushBuf_free free]
    dsimp only
    by_cases here : other = count
    · rw [here, Function.update_self]
    · rw [Function.update_of_ne here]
      exact desc other (by omega)

end Refill

/-- A device at work: as many buffers at `bufs` as its queue has descriptors are submitted, and the
queue is where the driver's own run of the event queue starts. -/
structure Serves (start : Mm) (bus : Bus) (dev : VirtioDev) (bufs : Word) (queue : DeviceQueue) :
    Prop where
  driverOk : (viewOf bus.log dev.base).Told driverOkBit
  active : dev.active = true
  shared : QueueShared start bus dev 0 queue
  submitted : queue.vq.Submits bufs queue.vq.num.toNat
  started : ∀ memory, ∃ system, Transition.exec (InputSystem.step bufs)
      (.boot (freshVirtq queue.vq.layout queue.vq.num.toNat) memory)
      (.refillEventQueue :: List.replicate (eventBufCount + 1) .driver) = some system ∧
    system.phase = .outside ∧ system.virtq.vq = queue.vq

section Start

variable {answers : Answers} {bus after : Bus} {dev : VirtioDev} {start : Mm} {bufs : Word}

theorem QueueShared.mono {q : Nat} {queue : DeviceQueue} (shared : QueueShared start bus dev q queue)
    (viewed : viewOf after.log dev.base = viewOf bus.log dev.base)
    (grown : ∀ index, bus.mm.isUsed index = true → after.mm.isUsed index = true) :
    QueueShared start after dev q queue := by
  obtain ⟨here, base, index, shares, size, fits, free, taken⟩ := shared
  exact ⟨here, base, index, viewed ▸ shares, size, fits, free,
    fun index owns => grown index (taken index owns)⟩

end Start

/-- The devices are those that were found, at the same places. -/
structure SameDevices (found after : List VirtioDev) : Prop where
  bases : after.map VirtioDev.base = found.map VirtioDev.base
  kinds : after.map VirtioDev.deviceId = found.map VirtioDev.deviceId

theorem SameDevices.trans {found middle after : List VirtioDev} (first : SameDevices found middle)
    (second : SameDevices middle after) : SameDevices found after :=
  ⟨second.bases.trans first.bases, second.kinds.trans first.kinds⟩

/-- All devices between two calls: those with buffers are at work in pages of their own, and the
others are not running. -/
structure Standing (start : Mm) (bus : Bus) (found : List VirtioDev) (bufs : Nat → Option Word) :
    Prop where
  speaks : Speaks bus.log
  grown : ∀ index, start.isUsed index = true → bus.mm.isUsed index = true
  bases : found.Pairwise fun one two => one.base ≠ two.base
  version : ∀ dev ∈ found, (viewOf bus.log dev.base).version = dev.version
  down : ∀ place dev, found[place]? = some dev → bufs place = none →
    ¬ (viewOf bus.log dev.base).Told driverOkBit ∧ dev.active = false
  up : ∀ place dev events, found[place]? = some dev → bufs place = some events →
    ∃ queue, Serves start bus dev events queue
  apart : ∀ first second one two, first ≠ second → found[first]? = some one →
    found[second]? = some two → bufs first ≠ none → bufs second ≠ none →
    ∀ oneQueue twoQueue, one.queues 0 = some oneQueue → two.queues 0 = some twoQueue →
    ∀ index, oneQueue.vq.layout.Owns index → ¬ twoQueue.vq.layout.Owns index

section Devices

variable {answers : Answers} {bus after : Bus} {found : List VirtioDev} {start : Mm}
  {bufs : Nat → Option Word} {place : Nat} {dev : VirtioDev}

theorem base_ne {other : Nat} {another : VirtioDev}
    (bases : found.Pairwise fun one two => one.base ≠ two.base) (here : found[place]? = some dev)
    (there : found[other]? = some another) (different : place ≠ other) :
    dev.base ≠ another.base := by
  obtain ⟨inside, rfl⟩ := List.getElem?_eq_some_iff.mp here
  obtain ⟨within, rfl⟩ := List.getElem?_eq_some_iff.mp there
  rcases Nat.lt_or_gt_of_ne different with before | before
  · exact List.pairwise_iff_getElem.mp bases place other inside within before
  · exact (List.pairwise_iff_getElem.mp bases other place within inside before).symm

/-- Accesses to a device that is not running, after which it still is not. -/
theorem Standing.visit {last : DeviceView} (standing : Standing start bus found bufs)
    (here : found[place]? = some dev) (idle : bufs place = none)
    (reaches : bus.Reaches dev.base after last) (version : last.version = dev.version)
    (stopped : ¬ last.Told driverOkBit) : Standing start after found bufs := by
  obtain ⟨speaks, grown, bases, versions, down, up, apart⟩ := standing
  have elsewhere : ∀ other another, found[other]? = some another → place ≠ other →
      viewOf after.log another.base = viewOf bus.log another.base :=
    fun other another there different =>
      reaches.extend.others _ (base_ne bases here there different).symm
  refine ⟨reaches.extend.speaks speaks,
    fun index used => reaches.extend.used index (grown index used), bases,
    fun another listed => ?_, fun other another there quiet => ?_,
    fun other another events there live => ?_, apart⟩
  · obtain ⟨other, there⟩ := List.getElem?_of_mem listed
    by_cases same : place = other
    · subst same
      obtain rfl := Option.some.inj (here.symm.trans there)
      rw [reaches.viewed, version]
    · rw [elsewhere other another there same]
      exact versions another listed
  · by_cases same : place = other
    · subst same
      obtain rfl := Option.some.inj (here.symm.trans there)
      rw [reaches.viewed]
      exact ⟨stopped, (down place dev there idle).2⟩
    · rw [elsewhere other another there same]
      exact down other another there quiet
  · have different : place ≠ other := fun same => by
      rw [← same, idle] at live
      cases live
    have same := elsewhere other another there different
    obtain ⟨queue, driverOk, active, shared, submitted, started⟩ := up other another events there live
    exact ⟨queue, same ▸ driverOk, active, shared.mono same reaches.extend.used, submitted, started⟩

theorem Serves.weaken {events : Word} {queue : DeviceQueue}
    (serves : Serves bus.mm after dev events queue)
    (grown : ∀ index, start.isUsed index = true → bus.mm.isUsed index = true) :
    Serves start after dev events queue := by
  obtain ⟨driverOk, active, ⟨here, base, number, shares, size, fits, free, taken⟩, submitted,
    started⟩ := serves
  refine ⟨driverOk, active, ⟨here, base, number, shares, size, fits, fun index owns => ?_, taken⟩,
    submitted, started⟩
  exact Bool.eq_false_iff.mpr fun used =>
    absurd (grown index used) (Bool.eq_false_iff.mp (free index owns))

end Devices

section BringUp

variable {answers : Answers} {mm : Mm}

theorem Probed.standing {bus : Bus} {found : List VirtioDev} {slot : Nat}
    (probed : Probed mm bus found slot) : Standing mm bus found fun _ => none := by
  obtain ⟨speaks, same, known, bases, _⟩ := probed
  refine ⟨speaks, fun index => same ▸ id, bases, fun dev listed => ?_, fun place dev here _ => ?_,
    nofun, fun first second one two _ _ _ live => absurd rfl live⟩
  · rw [(known dev listed).1]; rfl
  · obtain ⟨view, idle, _⟩ := known dev (List.mem_of_getElem? here)
    rw [view]
    exact ⟨by simp [DeviceView.Told, DeviceView.reset], idle⟩

/-- The two devices of the loop are different ones that it has seen. -/
structure InputProbe.Apart (probe : InputProbe) : Prop where
  keyboard : ∀ index, probe.kbdDev = some index → index < probe.seen.length
  pointer : ∀ index, probe.tabletDev = some index → index < probe.seen.length
  different : ∀ index, probe.kbdDev = some index → probe.tabletDev ≠ some index

theorem InputProbe.Apart.step {probe next : InputProbe} {input : InputDevice}
    (apart : probe.Apart) (stepped : probe.step input = some next) : next.Apart := by
  obtain ⟨keyboard, pointer, different⟩ := apart
  have longer := step_seen stepped
  obtain ⟨named, _, rfl⟩ := Option.map_eq_some_iff.mp stepped
  dsimp only at longer
  cases named with
  | true =>
      refine ⟨fun index same => ?_, fun index same => ?_, fun index same other => ?_⟩
      · obtain rfl := Option.some.inj same
        exact longer ▸ Nat.lt_succ_self _
      · exact longer ▸ (pointer index same).trans (Nat.lt_succ_self _)
      · obtain rfl := Option.some.inj same
        exact absurd (pointer _ other) (Nat.lt_irrefl _)
  | false =>
      refine ⟨fun index same => ?_, fun index same => ?_, fun index same other => ?_⟩
      · exact longer ▸ (keyboard index same).trans (Nat.lt_succ_self _)
      · obtain rfl := Option.some.inj same
        exact longer ▸ Nat.lt_succ_self _
      · obtain rfl := Option.some.inj other
        exact absurd (keyboard _ same) (Nat.lt_irrefl _)

end BringUp

end DragoonKernel
