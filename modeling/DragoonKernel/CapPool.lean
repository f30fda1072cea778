import DragoonKernel.CapSpec

/-! The capability pool is a partial map from ids to capabilities. -/

namespace DragoonKernel

inductive CapCall where
  | capAlloc (cap : Capability)
  | capDestroy (capId : Int)
  deriving DecidableEq

def Caps.call (caps : Caps) : CapCall → Caps × Int
  | .capAlloc cap => capAlloc caps cap
  | .capDestroy capId => capDestroy caps capId

/-- What was last allocated at each id and not destroyed since, after a call with this result. -/
def recordCall (map : Int → Option Capability) : CapCall → Int → Int → Option Capability
  | .capAlloc cap, result =>
      if result = -1 then map else Function.update map result (some cap)
  | .capDestroy capId, _ => Function.update map capId none

/-- The pool together with the record of its calls. -/
structure RecordedCaps where
  caps : Caps
  map : Int → Option Capability

def RecordedCaps.init (caps : Caps) : RecordedCaps where
  caps := capInit caps
  map := fun _ => none

def RecordedCaps.call (recorded : RecordedCaps) (call : CapCall) : RecordedCaps where
  caps := (recorded.caps.call call).1
  map := recordCall recorded.map call (recorded.caps.call call).2

def Caps.InUse (caps : Caps) (capId : Int) : Prop :=
  ∃ index : Nat, capId = index ∧ index < capPoolSize ∧ caps.used index = true

/-- No caller sees a difference at the id. -/
structure SameResults (caps after : Caps) (capId : Int) : Prop where
  lookup : capLookup after capId = capLookup caps capId
  check : ∀ expectedType, capCheck after capId expectedType = capCheck caps capId expectedType
  destroy : (capDestroy after capId).2 = (capDestroy caps capId).2

structure AllocSpec (caps after : Caps) (result : Int) : Prop where
  full : result = -1 ↔ ∀ index < capPoolSize, caps.used index = true
  fresh : result ≠ -1 → 0 ≤ result ∧ result < capPoolSize ∧ ¬caps.InUse result
  others : ∀ capId, capId ≠ result → SameResults caps after capId

structure DestroySpec (caps after : Caps) (destroyed result : Int) : Prop where
  succeeds : result = 0 ↔ caps.InUse destroyed
  fails : result = -1 ↔ ¬caps.InUse destroyed
  others : ∀ capId, capId ≠ destroyed → SameResults caps after capId

/-- The flags and the counts agree, and the pool holds what the record says. -/
structure RecordedCaps.Tracks (recorded : RecordedCaps) : Prop where
  lookup : ∀ capId, capLookup recorded.caps capId =
    (recorded.map capId).map fun cap => { cap with refcount := 1 }
  unused : ∀ index < capPoolSize, recorded.caps.used index = false →
    (recorded.caps.pool index).refcount = 0

variable {caps after : Caps} {recorded : RecordedCaps}

theorem capLookup_isSome {capId : Int} : (capLookup caps capId).isSome ↔ caps.InUse capId := by
  rw [Option.isSome_iff_exists]
  constructor
  · rintro ⟨cap, found⟩
    obtain ⟨index, named, bound, used, _⟩ := capLookup_some.mp found
    exact ⟨index, named, bound, used⟩
  · rintro ⟨index, named, bound, used⟩
    exact ⟨_, capLookup_some.mpr ⟨index, named, bound, used, rfl⟩⟩

theorem capLookup_eq_none {capId : Int} : capLookup caps capId = none ↔ ¬caps.InUse capId := by
  rw [← Option.not_isSome_iff_eq_none, capLookup_isSome]

theorem capDestroy_result (caps : Caps) (capId : Int) :
    (caps.InUse capId ∧ (capDestroy caps capId).2 = 0) ∨
      (¬caps.InUse capId ∧ (capDestroy caps capId).2 = -1) := by
  by_cases inUse : caps.InUse capId
  · obtain ⟨index, rfl, bound, used⟩ := inUse
    exact Or.inl ⟨⟨index, rfl, bound, used⟩, (capDestroy_used bound used).2.2⟩
  · rw [capDestroy_unused (capLookup_eq_none.mpr inUse)]
    exact Or.inr ⟨inUse, rfl⟩

theorem sameResults_of_lookup {capId : Int}
    (lookup : capLookup after capId = capLookup caps capId) : SameResults caps after capId := by
  refine ⟨lookup, fun expectedType => ?_, ?_⟩
  · rw [capCheck, lookup, capCheck]
  · have inUse : after.InUse capId ↔ caps.InUse capId := by
      rw [← capLookup_isSome, lookup, capLookup_isSome]
    rcases capDestroy_result after capId with ⟨here, result⟩ | ⟨missing, result⟩
    · rcases capDestroy_result caps capId with ⟨_, same⟩ | ⟨absent, _⟩
      · rw [result, same]
      · exact absurd (inUse.mp here) absent
    · rcases capDestroy_result caps capId with ⟨present, _⟩ | ⟨_, same⟩
      · exact absurd (inUse.mpr present) missing
      · rw [result, same]

theorem capAlloc_spec (caps : Caps) (cap : Capability) :
    AllocSpec caps (capAlloc caps cap).1 (capAlloc caps cap).2 := by
  rcases capAlloc_cases caps cap with ⟨index, ⟨bound, free, _⟩, allocated⟩ | ⟨full, allocated⟩
  · rw [allocated]
    refine ⟨⟨fun failed => absurd failed (by omega), fun full => ?_⟩, fun _ => ?_, ?_⟩
    · rw [full index bound] at free
      cases free
    · refine ⟨Int.natCast_nonneg index, Int.ofNat_lt.mpr bound, ?_⟩
      rintro ⟨same, named, _, used⟩
      obtain rfl := Int.ofNat.inj named
      rw [free] at used
      cases used
    · intro capId other
      exact sameResults_of_lookup ((keepsOthers_update caps index _ _).lookup other)
  · rw [allocated]
    exact ⟨⟨fun _ => full, fun _ => rfl⟩, fun success => absurd rfl success,
      fun _ _ => sameResults_of_lookup rfl⟩

theorem capDestroy_spec (caps : Caps) (capId : Int) :
    DestroySpec caps (capDestroy caps capId).1 capId (capDestroy caps capId).2 := by
  have others : ∀ other, other ≠ capId → SameResults caps (capDestroy caps capId).1 other :=
    fun other different => sameResults_of_lookup (capDestroy_lookup_other (Ne.symm different))
  rcases capDestroy_result caps capId with ⟨inUse, result⟩ | ⟨missing, result⟩
  · rw [result]
    exact ⟨⟨fun _ => inUse, fun _ => rfl⟩,
      ⟨fun failed => absurd failed (by omega), fun missing => absurd inUse missing⟩, others⟩
  · rw [result]
    exact ⟨⟨fun success => absurd success (by omega), fun inUse => absurd inUse missing⟩,
      ⟨fun _ => missing, fun _ => rfl⟩, others⟩

theorem RecordedCaps.Tracks.refcount (tracks : recorded.Tracks) {index : Nat}
    (bound : index < capPoolSize) (used : recorded.caps.used index = true) :
    (recorded.caps.pool index).refcount = 1 := by
  have found : capLookup recorded.caps index = some (recorded.caps.pool index) :=
    capLookup_some.mpr ⟨index, rfl, bound, used, rfl⟩
  rw [tracks.lookup, Option.map_eq_some_iff] at found
  obtain ⟨cap, _, entry⟩ := found
  rw [← entry]

theorem init_tracks (caps : Caps) : (RecordedCaps.init caps).Tracks := by
  refine ⟨fun capId => ?_, fun index bound _ => ?_⟩
  · refine capLookup_eq_none.mpr ?_
    rintro ⟨index, _, bound, used⟩
    simp [RecordedCaps.init, capInit, bound] at used
  · simp [RecordedCaps.init, capInit, bound]

theorem RecordedCaps.Tracks.capAlloc (tracks : recorded.Tracks) (cap : Capability) :
    (recorded.call (.capAlloc cap)).Tracks := by
  rcases capAlloc_cases recorded.caps cap with ⟨index, ⟨bound, _⟩, allocated⟩ | ⟨_, allocated⟩
  · have others := keepsOthers_update recorded.caps index { cap with refcount := 1 } true
    refine ⟨fun capId => ?_, fun other inside unused => ?_⟩
    · simp only [RecordedCaps.call, Caps.call, recordCall, allocated]
      rw [if_neg (by omega)]
      by_cases here : capId = index
      · rw [here, Function.update_self, Option.map_some, capLookup_some]
        exact ⟨index, rfl, bound, Function.update_self _ _ _, Function.update_self _ _ _⟩
      · rw [others.lookup here, Function.update_of_ne here, tracks.lookup]
    · simp only [RecordedCaps.call, Caps.call, allocated] at unused ⊢
      by_cases here : other = index
      · rw [here, Function.update_self] at unused
        cases unused
      · rw [Function.update_of_ne here] at unused ⊢
        exact tracks.unused other inside unused
  · simp only [RecordedCaps.call, Caps.call, recordCall, allocated, if_true]
    exact tracks

/-- The last reference is gone, so the entry is free again. -/
theorem capDestroy_single {index : Nat} (bound : index < capPoolSize)
    (used : caps.used index = true) (single : (caps.pool index).refcount = 1) :
    (capDestroy caps index).1 =
      { pool := Function.update caps.pool index
          { caps.pool index with type := capNone, refcount := 0 }
        used := Function.update caps.used index false } := by
  have inside : ¬((index : Int) < 0 ∨ (capPoolSize : Int) ≤ index) := by omega
  rw [capDestroy, if_neg inside]
  simp [used, single]

theorem RecordedCaps.Tracks.capDestroy (tracks : recorded.Tracks) (capId : Int) :
    (recorded.call (.capDestroy capId)).Tracks := by
  by_cases inUse : recorded.caps.InUse capId
  · obtain ⟨index, rfl, bound, used⟩ := inUse
    have released := capDestroy_single bound used (tracks.refcount bound used)
    refine ⟨fun other => ?_, fun other inside unused => ?_⟩
    · by_cases here : other = index
      · simp only [RecordedCaps.call, Caps.call, recordCall, released, here, Function.update_self,
          Option.map_none]
        exact capLookup_unused (Function.update_self _ _ _)
      · simp only [RecordedCaps.call, Caps.call, recordCall]
        rw [capDestroy_lookup_other (Ne.symm here), Function.update_of_ne here, tracks.lookup]
    · simp only [RecordedCaps.call, Caps.call, released] at unused ⊢
      by_cases here : other = index
      · rw [here, Function.update_self]
      · rw [Function.update_of_ne here] at unused ⊢
        exact tracks.unused other inside unused
  · have missing := capLookup_eq_none.mpr inUse
    have unallocated : recorded.map capId = none := by
      rwa [tracks.lookup, Option.map_eq_none_iff] at missing
    simp only [RecordedCaps.call, Caps.call, recordCall, capDestroy_unused missing]
    rw [← unallocated, Function.update_eq_self]
    exact tracks

theorem RecordedCaps.Tracks.run (tracks : recorded.Tracks) (calls : List CapCall) :
    (calls.foldl RecordedCaps.call recorded).Tracks := by
  induction calls generalizing recorded with
  | nil => exact tracks
  | cons call rest ih =>
      cases call with
      | capAlloc cap => exact ih (tracks.capAlloc cap)
      | capDestroy capId => exact ih (tracks.capDestroy capId)

theorem RecordedCaps.Tracks.used_iff (tracks : recorded.Tracks) {index : Nat}
    (bound : index < capPoolSize) :
    recorded.caps.used index = true ↔ 0 < (recorded.caps.pool index).refcount := by
  constructor
  · intro used
    rw [tracks.refcount bound used]
    decide
  · intro positive
    by_contra unused
    rw [tracks.unused index bound (by simpa using unused)] at positive
    exact absurd positive (by decide)

/-- After any calls the pool holds exactly what was allocated and not destroyed, the entries
in use are those with a reference, and no decrement wraps. -/
theorem capPool_partialMap (caps : Caps) (calls : List CapCall) :
    let reached := calls.foldl RecordedCaps.call (RecordedCaps.init caps)
    (∀ capId, capLookup reached.caps capId =
      (reached.map capId).map fun cap => { cap with refcount := 1 }) ∧
    (∀ index < capPoolSize,
      (reached.caps.used index = true ↔ 0 < (reached.caps.pool index).refcount) ∧
      (reached.caps.used index = true → ((reached.caps.pool index).refcount - 1).toNat =
        (reached.caps.pool index).refcount.toNat - 1)) ∧
    (∀ cap, AllocSpec reached.caps (capAlloc reached.caps cap).1 (capAlloc reached.caps cap).2) ∧
    ∀ capId, DestroySpec reached.caps (capDestroy reached.caps capId).1 capId
      (capDestroy reached.caps capId).2 := by
  intro reached
  have tracks : reached.Tracks := (init_tracks caps).run calls
  refine ⟨tracks.lookup, fun index bound => ⟨tracks.used_iff bound, fun used => ?_⟩,
    capAlloc_spec reached.caps, capDestroy_spec reached.caps⟩
  rw [tracks.refcount bound used]
  rfl

end DragoonKernel
