import DragoonKernel.VirtioInput

/-!
What the driver accesses when the device stores arbitrary elements into the used ring. The id
of an element is an index as it stands, so only ids below `num` keep the driver in its arrays.
-/

namespace DragoonKernel

/-- The driver's calls and steps, and a device that replaces the used ring and the contents of
the buffers at any time. -/
inductive UsedRingAction where
  | refillEventQueue
  | drainEvents
  | driver
  | device (used : VirtqUsed) (memory : Word → VirtioInputEvent)

def InputSystem.overwrite (system : InputSystem) (used : VirtqUsed)
    (memory : Word → VirtioInputEvent) : InputSystem :=
  { system with
    virtq := { system.virtq with vq := { system.virtq.vq with used := used } }
    memory := memory }

def InputSystem.usedRingStep (bufs : Word) (system : InputSystem) :
    UsedRingAction → Option InputSystem
  | .refillEventQueue => system.step bufs .refillEventQueue
  | .drainEvents => system.step bufs .drainEvents
  | .driver => system.driver bufs
  | .device used memory => some (system.overwrite used memory)

/-- The indices at which `virtq_push_buf` accesses `desc[]`. -/
def virtqPushBufDescs (vq : Virtq) : List Nat :=
  if vq.freeHead = 0xFFFF then [] else [vq.freeHead.toNat]

/-- The indices at which `virtq_pop_used` accesses `desc[]`, also for an id that makes it
return a negative number. -/
def virtqPopUsedDescs (vq : Virtq) : List Nat :=
  (virtqPopUsed vq).2.toList.map VirtqUsedElem.head

/-- The indices at which the driver's next step accesses `desc[]`. -/
def InputSystem.descAccesses (system : InputSystem) : List Nat :=
  match system.phase with
  | .refilling i => if i < eventBufCount then virtqPushBufDescs system.virtq.vq else []
  | .popping => virtqPopUsedDescs system.virtq.vq
  | .resubmitting _ => virtqPushBufDescs system.virtq.vq
  | _ => []

/-- The indices at which the driver's next step takes a buffer of `bufs[]`, for the handler or
for the device. -/
def InputSystem.bufAccesses (system : InputSystem) : List Nat :=
  match system.phase with
  | .refilling i => if i < eventBufCount then [i] else []
  | .popped elem => if eventSize ≤ elem.len then [elem.head] else []
  | .resubmitting elem => [elem.head]
  | _ => []

def InputSystem.FreeInside (num : Nat) (system : InputSystem) : Prop :=
  ∃ chain, system.virtq.vq.FreeChain chain ∧ ∀ head ∈ chain, head < num

def InputSystem.AccessesInside (num : Nat) (system : InputSystem) (action : UsedRingAction)
    (_after : InputSystem) : Prop :=
  match action with
  | .driver => (∀ index ∈ system.descAccesses, index < num) ∧
      ∀ index ∈ system.bufAccesses, index < eventBufCount
  | _ => True

/-- The element of the used ring that `virtq_pop_used` is about to take has an id of the queue. -/
def InputSystem.PopsInside (num : Nat) (system : InputSystem) (action : UsedRingAction)
    (_after : InputSystem) : Prop :=
  match action with
  | .driver => system.phase = .popping → virtqHasUsed system.virtq.vq = true →
      (system.virtq.vq.used.ring (Ring.slot system.virtq.vq.num.toNat
        system.virtq.vq.lastUsedIdx)).id.toNat < num
  | _ => True

/-- The chain of the phase is the free chain, whatever the used ring holds. -/
structure InputSystem.Contained (num : Nat) (system : InputSystem) : Prop where
  free : system.virtq.vq.FreeChain (system.phase.chain num)
  inside : ∀ head ∈ system.phase.chain num, head < num

variable {num : Nat} {bufs : Word} {system : InputSystem}

theorem virtqPopUsed_none {vq : Virtq} (nothing : ¬virtqHasUsed vq = true) :
    virtqPopUsed vq = (vq, none) := by
  rw [virtqPopUsed, if_neg nothing]

/-- A push touches no descriptor but those it is said to access. -/
theorem virtqPushBuf_desc (vq : Virtq) (buf : Word) (len : BitVec 32) (flags : BitVec 16)
    {index : Nat} (apart : index ∉ virtqPushBufDescs vq) :
    (virtqPushBuf vq buf len flags).desc index = vq.desc index := by
  rw [virtqPushBufDescs] at apart
  rw [virtqPushBuf]
  split at apart
  next exhausted => rw [if_pos exhausted]
  next proper =>
    rw [if_neg proper]
    exact Function.update_of_ne (fun same => apart (List.mem_singleton.mpr same)) _ _

theorem virtqPopUsed_desc (vq : Virtq) {index : Nat} (apart : index ∉ virtqPopUsedDescs vq) :
    (virtqPopUsed vq).1.desc index = vq.desc index := by
  rw [virtqPopUsedDescs] at apart
  by_cases ready : virtqHasUsed vq = true
  · rw [virtqPopUsed_some ready rfl] at apart ⊢
    exact Function.update_of_ne (fun same => apart (List.mem_singleton.mpr same)) _ _
  · rw [virtqPopUsed_none ready]

theorem InputSystem.driver_desc {after : InputSystem} (stepped : system.driver bufs = some after)
    {index : Nat} (apart : index ∉ system.descAccesses) :
    after.virtq.vq.desc index = system.virtq.vq.desc index := by
  cases phase : system.phase <;> simp only [InputSystem.driver, phase] at stepped <;>
    simp only [InputSystem.descAccesses, phase] at apart
  case fresh => cases stepped
  case outside => cases stepped
  case refilling i =>
    split at stepped
    next more =>
      rw [if_pos more] at apart
      obtain rfl := Option.some.inj stepped
      exact virtqPushBuf_desc _ _ _ _ apart
    next =>
      obtain rfl := Option.some.inj stepped
      rfl
  case checking =>
    split at stepped
    all_goals
      obtain rfl := Option.some.inj stepped
      rfl
  case popping =>
    split at stepped
    all_goals obtain rfl := Option.some.inj stepped
    · rfl
    · exact virtqPopUsed_desc _ apart
  case popped elem =>
    obtain rfl := Option.some.inj stepped
    rfl
  case resubmitting elem =>
    obtain rfl := Option.some.inj stepped
    exact virtqPushBuf_desc _ _ _ _ apart

/-- What a push accesses is the head of the free chain. -/
theorem Virtq.FreeChain.pushDescs {vq : Virtq} {chain : List Nat} (free : vq.FreeChain chain) :
    virtqPushBufDescs vq = chain.head?.toList := by
  rw [virtqPushBufDescs]
  cases chain with
  | nil => rw [if_pos (free.push_nil 0 0 0).1, List.head?_nil, Option.toList_none]
  | cons head rest =>
      obtain ⟨proper, same⟩ := free.head
      rw [if_neg proper, same, List.head?_cons, Option.toList_some]

theorem InputSystem.Contained.freeInside (contained : system.Contained num) :
    system.FreeInside num := ⟨_, contained.free, contained.inside⟩

theorem InputSystem.Contained.pushInside (contained : system.Contained num) :
    ∀ index ∈ virtqPushBufDescs system.virtq.vq, index < num := by
  rw [contained.free.pushDescs]
  intro index listed
  exact contained.inside index (List.mem_of_mem_head? (Option.mem_toList.mp listed))

/-- A step that changes neither the descriptors nor the chain of the phase. -/
theorem InputSystem.Contained.rephase {phase : InputPhase} {after : InputSystem}
    (contained : system.Contained num) (same : after.phase = phase)
    (chain : phase.chain num = system.phase.chain num)
    (desc : after.virtq.vq.desc = system.virtq.vq.desc)
    (freeHead : after.virtq.vq.freeHead = system.virtq.vq.freeHead) : after.Contained num := by
  refine ⟨?_, ?_⟩
  · rw [same, chain, Virtq.FreeChain, desc, freeHead]
    exact contained.free
  · rw [same, chain]
    exact contained.inside

theorem InputSystem.Contained.push (contained : system.Contained num) (index : Nat)
    {phase : InputPhase} (chain : phase.chain num = (system.phase.chain num).tail) :
    (system.push bufs index phase).Contained num := by
  have free := contained.free
  refine ⟨?_, ?_⟩
  · simp only [InputSystem.push, VirtqSystem.pushBuf, chain]
    cases first : system.phase.chain num with
    | nil =>
        rw [first] at free
        rw [(free.push_nil _ _ _).2]
        exact free
    | cons head rest =>
        rw [first] at free
        exact free.push _ _ _
  · intro head listed
    refine contained.inside head (List.mem_of_mem_tail ?_)
    rw [← chain]
    exact listed

theorem InputSystem.Contained.refill {i : Nat} {after : InputSystem} (small : num ≤ virtqSize)
    (contained : system.Contained num) (refilling : system.phase = .refilling i)
    (stepped : system.driver bufs = some after) : after.Contained num := by
  have before : system.phase.chain num = List.range' i (num - i) := by rw [refilling, InputPhase.chain]
  simp only [InputSystem.driver, refilling] at stepped
  split at stepped
  · obtain rfl := Option.some.inj stepped
    refine contained.push i ?_
    rw [before, InputPhase.chain, List.tail_range', Nat.sub_sub]
  next last =>
    obtain rfl := Option.some.inj stepped
    refine contained.rephase rfl ?_ rfl rfl
    have finished : num - i = 0 := by
      simp only [virtqSize, eventBufCount] at small last
      omega
    rw [before, finished]
    rfl

/-- A pop of an id of the queue makes the descriptor the only free one. -/
theorem InputSystem.Contained.pop {after : InputSystem} (small : num ≤ virtqSize)
    (contained : system.Contained num) (popping : system.phase = .popping)
    (stepped : system.driver bufs = some after)
    (inside : system.PopsInside num .driver after) : after.Contained num := by
  have free := contained.free
  rw [popping] at free
  by_cases ready : virtqHasUsed system.virtq.vq = true
  · have below := inside popping ready
    have positive : ¬(system.virtq.vq.used.ring (Ring.slot system.virtq.vq.num.toNat
        system.virtq.vq.lastUsedIdx)).id.toInt < 0 := by
      simp only [virtqSize] at small
      rw [BitVec.toInt_eq_toNat_of_lt (by omega)]
      omega
    have chain := free.pop ready rfl (below.trans_le small) List.not_mem_nil
    simp only [InputSystem.driver, popping, virtqPopUsed_some ready rfl, if_neg positive] at stepped
    obtain rfl := Option.some.inj stepped
    refine ⟨chain, fun head listed => ?_⟩
    obtain rfl := List.mem_singleton.mp listed
    exact below
  · simp only [InputSystem.driver, popping, virtqPopUsed_none ready] at stepped
    obtain rfl := Option.some.inj stepped
    exact contained.rephase rfl (by rw [popping]; rfl) rfl rfl

theorem InputSystem.Contained.driver {after : InputSystem} (small : num ≤ virtqSize)
    (contained : system.Contained num) (stepped : system.driver bufs = some after)
    (inside : system.PopsInside num .driver after) : after.Contained num := by
  cases phase : system.phase with
  | fresh => simp [InputSystem.driver, phase] at stepped
  | outside => simp [InputSystem.driver, phase] at stepped
  | refilling i => exact contained.refill small phase stepped
  | checking =>
      simp only [InputSystem.driver, phase] at stepped
      split at stepped
      all_goals
        obtain rfl := Option.some.inj stepped
        exact contained.rephase rfl (by rw [phase]; rfl) rfl rfl
  | popping => exact contained.pop small phase stepped inside
  | popped elem =>
      simp only [InputSystem.driver, phase] at stepped
      obtain rfl := Option.some.inj stepped
      exact contained.rephase rfl (by rw [phase]; rfl) rfl rfl
  | resubmitting elem =>
      simp only [InputSystem.driver, phase] at stepped
      obtain rfl := Option.some.inj stepped
      exact contained.push _ (by rw [phase]; rfl)

theorem InputSystem.Contained.accesses {after : InputSystem} (small : num ≤ virtqSize)
    (contained : system.Contained num) (inside : system.PopsInside num .driver after) :
    system.AccessesInside num .driver after := by
  have pushes := contained.pushInside
  have listed := contained.inside
  refine ⟨fun index accessed => ?_, fun index accessed => ?_⟩
  · cases phase : system.phase <;> simp only [InputSystem.descAccesses, phase] at accessed
    case refilling i =>
      split at accessed
      · exact pushes index accessed
      · cases accessed
    case popping =>
      rw [virtqPopUsedDescs] at accessed
      by_cases ready : virtqHasUsed system.virtq.vq = true
      · rw [virtqPopUsed_some ready rfl, Option.toList_some, List.map_singleton] at accessed
        obtain rfl := List.mem_singleton.mp accessed
        exact inside phase ready
      · rw [virtqPopUsed_none ready] at accessed
        cases accessed
    case resubmitting elem => exact pushes index accessed
    all_goals cases accessed
  · have below : index < num → index < eventBufCount := by
      simp only [virtqSize, eventBufCount] at small ⊢
      omega
    cases phase : system.phase <;> simp only [InputSystem.bufAccesses, phase] at accessed
    case refilling i =>
      split at accessed
      next more =>
        obtain rfl := List.mem_singleton.mp accessed
        exact more
      next => cases accessed
    case popped elem =>
      split at accessed
      · rw [phase] at listed
        exact below (listed index accessed)
      · cases accessed
    case resubmitting elem =>
      rw [phase] at listed
      exact below (listed index accessed)
    all_goals cases accessed

theorem InputSystem.Contained.step {action : UsedRingAction} {after : InputSystem}
    (small : num ≤ virtqSize) (contained : system.Contained num)
    (stepped : system.usedRingStep bufs action = some after)
    (inside : system.PopsInside num action after) :
    after.Contained num ∧ system.AccessesInside num action after := by
  cases action with
  | refillEventQueue =>
      simp only [InputSystem.usedRingStep, InputSystem.step, Option.ite_none_right_eq_some] at stepped
      obtain ⟨fresh, stepped⟩ := stepped
      obtain rfl := Option.some.inj stepped
      exact ⟨contained.rephase rfl (by rw [fresh]; rfl) rfl rfl, trivial⟩
  | drainEvents =>
      simp only [InputSystem.usedRingStep, InputSystem.step, Option.ite_none_right_eq_some] at stepped
      obtain ⟨outside, stepped⟩ := stepped
      obtain rfl := Option.some.inj stepped
      exact ⟨contained.rephase rfl (by rw [outside]; rfl) rfl rfl, trivial⟩
  | driver => exact ⟨contained.driver small stepped inside, contained.accesses small inside⟩
  | device used memory =>
      obtain rfl := Option.some.inj stepped
      exact ⟨contained.rephase rfl rfl rfl rfl, trivial⟩

/-- An id that is not of the queue is an index of `desc[]` all the same. -/
theorem InputSystem.popsOutside {action : UsedRingAction} {after : InputSystem}
    (outside : ¬system.PopsInside num action after) :
    ¬system.AccessesInside num action after := by
  intro accesses
  cases action with
  | driver =>
      refine outside fun popping ready => accesses.1 _ ?_
      simp only [InputSystem.descAccesses, popping, virtqPopUsedDescs, virtqPopUsed_some ready rfl]
      exact List.mem_singleton_self _
  | refillEventQueue => exact outside trivial
  | drainEvents => exact outside trivial
  | device used memory => exact outside trivial

theorem virtqSetup_positive {pagesAlloc : Nat → Option Nat} {desc : Nat → VirtqDesc}
    {avail : VirtqAvail} {used : VirtqUsed} {version : BitVec 32} {maxSize : Nat} {vq : Virtq}
    (setup : virtqSetup pagesAlloc desc avail used version virtqSize maxSize = some vq) :
    0 < queueSize virtqSize maxSize ∧ queueSize virtqSize maxSize ≤ virtqSize := by
  have present : maxSize ≠ 0 := by
    simp only [virtqSetup, virtqSetupLegacy, virtqSetupModern] at setup
    split at setup
    all_goals exact (Option.ite_none_left_eq_some.mp setup).1
  rw [queueSize]
  split
  · omega
  · exact ⟨by decide, le_refl _⟩

/-- The driver stays in `desc[]` and in `bufs[]`, and the free chain in the queue, exactly as
long as every element that it pops has an id of the queue. -/
theorem usedRing_harmless_iff {pagesAlloc : Nat → Option Nat} {desc : Nat → VirtqDesc}
    {avail : VirtqAvail} {used : VirtqUsed} {version : BitVec 32} {maxSize : Nat} {vq : Virtq}
    (setup : virtqSetup pagesAlloc desc avail used version virtqSize maxSize = some vq)
    (bufs : Word) (memory : Word → VirtioInputEvent) (actions : List UsedRingAction) :
    (Transition.EveryState (InputSystem.usedRingStep bufs)
        (InputSystem.FreeInside (queueSize virtqSize maxSize)) (.boot vq memory) actions ∧
      Transition.EveryStep (InputSystem.usedRingStep bufs)
        (InputSystem.AccessesInside (queueSize virtqSize maxSize)) (.boot vq memory) actions) ↔
    Transition.EveryStep (InputSystem.usedRingStep bufs)
      (InputSystem.PopsInside (queueSize virtqSize maxSize)) (.boot vq memory) actions := by
  obtain ⟨positive, small⟩ := virtqSetup_positive setup
  obtain ⟨layout, rfl⟩ := virtqSetup_init setup
  generalize queueSize virtqSize maxSize = num at positive small ⊢
  have start : InputSystem.Contained num
      (.boot (virtqInit layout num desc avail used) memory) := by
    have free := (virtqInit_tracked layout desc avail used positive small).free
    rw [List.range_eq_range'] at free
    exact ⟨free, fun head listed => (List.mem_range'_1.mp listed).2.trans_eq (Nat.zero_add num)⟩
  refine Transition.everyState_and_everyStep_iff (fun _ contained => contained.freeInside)
    ?_ ?_ start actions
  · exact fun system action after contained stepped inside => contained.step small stepped inside
  · exact fun system action after _ _ outside _ => InputSystem.popsOutside outside

/-- The largest queue of a device that offers no more. -/
def queueOfSixteen : Virtq := virtqInit (modernLayout 16 0) 16 (fun _ => ⟨0, 0, 0, 0⟩)
  ⟨0, 0, fun _ => 0⟩ ⟨0, 0, fun _ => ⟨0, 0⟩⟩

/-- A device that publishes one element, with this id. -/
def publishId (id : BitVec 32) : List UsedRingAction :=
  .refillEventQueue :: List.replicate 17 .driver ++
    [.device ⟨0, 1, fun _ => ⟨id, 8⟩⟩ fun _ => ⟨0, 0, 0⟩, .drainEvents, .driver]

theorem usedRing_harmless_iff_lastId :
    (Transition.EveryState (InputSystem.usedRingStep 0x1000) (InputSystem.FreeInside 16)
        (.boot queueOfSixteen fun _ => ⟨0, 0, 0⟩) (publishId 15 ++ [.driver]) ∧
      Transition.EveryStep (InputSystem.usedRingStep 0x1000) (InputSystem.AccessesInside 16)
        (.boot queueOfSixteen fun _ => ⟨0, 0, 0⟩) (publishId 15 ++ [.driver])) ↔
    Transition.EveryStep (InputSystem.usedRingStep 0x1000) (InputSystem.PopsInside 16)
      (.boot queueOfSixteen fun _ => ⟨0, 0, 0⟩) (publishId 15 ++ [.driver]) :=
  have setup : virtqSetup (fun _ => some 0) (fun _ => ⟨0, 0, 0, 0⟩) ⟨0, 0, fun _ => 0⟩
      ⟨0, 0, fun _ => ⟨0, 0⟩⟩ 2 virtqSize 16 = some queueOfSixteen := rfl
  usedRing_harmless_iff setup 0x1000 _ _

/-- The id 16 is the first that is not of the queue. -/
theorem usedRing_not_harmless :
    ¬(Transition.EveryState (InputSystem.usedRingStep 0x1000) (InputSystem.FreeInside 16)
        (.boot queueOfSixteen fun _ => ⟨0, 0, 0⟩) (publishId 16 ++ [.driver]) ∧
      Transition.EveryStep (InputSystem.usedRingStep 0x1000) (InputSystem.AccessesInside 16)
        (.boot queueOfSixteen fun _ => ⟨0, 0, 0⟩) (publishId 16 ++ [.driver])) := by
  intro harmless
  have reached : ((Transition.exec (InputSystem.usedRingStep 0x1000)
      (.boot queueOfSixteen fun _ => ⟨0, 0, 0⟩) (publishId 16)).bind fun system =>
        (system.usedRingStep 0x1000 .driver).map fun after => (after.phase, system.descAccesses)) =
      some (.popped ⟨16, 8⟩, [16]) := by decide +kernel
  obtain ⟨system, run, reached⟩ := Option.bind_eq_some_iff.mp reached
  obtain ⟨after, stepped, reached⟩ := Option.map_eq_some_iff.mp reached
  have accesses := (harmless.2.snoc run stepped).1
  rw [(Prod.mk.inj reached).2] at accesses
  exact absurd (accesses 16 (List.mem_singleton_self _)) (lt_irrefl _)

end DragoonKernel
