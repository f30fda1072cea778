import DragoonKernel.CapCore
import DragoonKernel.TaskRunSpec

/-! What allocating, destroying and handing out capabilities changes. -/

namespace DragoonKernel

theorem capLookup_some {caps : Caps} {capId : Int} {cap : Capability} :
    capLookup caps capId = some cap ↔ ∃ index : Nat, capId = index ∧ index < capPoolSize ∧
      caps.used index = true ∧ caps.pool index = cap := by
  unfold capLookup
  constructor
  · intro found
    split at found
    next => cases found
    next inside =>
      rw [Option.ite_none_right_eq_some, Option.some.injEq] at found
      exact ⟨capId.toNat, by omega, by omega, found⟩
  · rintro ⟨index, rfl, bound, used, rfl⟩
    rw [if_neg (by omega), Int.toNat_natCast, if_pos used]

theorem capLookup_unused {caps : Caps} {index : Nat} (unused : caps.used index = false) :
    capLookup caps index = none := by
  rw [capLookup, Int.toNat_natCast, unused]
  simp

/-- The pool keeps the entry of every index but `index`. -/
structure KeepsOthers (caps after : Caps) (index : Nat) : Prop where
  used : ∀ other, other ≠ index → after.used other = caps.used other
  pool : ∀ other, other ≠ index → after.pool other = caps.pool other

theorem KeepsOthers.lookup {caps after : Caps} {index : Nat} {capId : Int}
    (keeps : KeepsOthers caps after index) (different : capId ≠ index) :
    capLookup after capId = capLookup caps capId := by
  unfold capLookup
  split
  next => rfl
  next inside =>
    have other : capId.toNat ≠ index := by omega
    rw [keeps.used _ other, keeps.pool _ other]

theorem keepsOthers_update (caps : Caps) (index : Nat) (cap : Capability) (used : Bool) :
    KeepsOthers caps
      { pool := Function.update caps.pool index cap, used := Function.update caps.used index used }
      index :=
  ⟨fun _ different => Function.update_of_ne different _ _,
    fun _ different => Function.update_of_ne different _ _⟩

/-- The entry that `cap_alloc` takes next. -/
def NextEntry (caps : Caps) (index : Nat) : Prop :=
  index < capPoolSize ∧ caps.used index = false ∧ ∀ other < index, caps.used other = true

theorem capAlloc_cases (caps : Caps) (capOut : Capability) :
    (∃ index, NextEntry caps index ∧
      capAlloc caps capOut =
        ({ pool := Function.update caps.pool index { capOut with refcount := 1 }
           used := Function.update caps.used index true }, (index : Int))) ∨
    ((∀ index < capPoolSize, caps.used index = true) ∧ capAlloc caps capOut = (caps, -1)) := by
  unfold capAlloc
  split
  next index found =>
    obtain ⟨free, bound, below⟩ := List.find?_range_eq_some.mp found
    refine Or.inl ⟨index, ⟨List.mem_range.mp bound, by simpa using free, ?_⟩, rfl⟩
    simpa using below
  next missing =>
    refine Or.inr ⟨?_, rfl⟩
    simpa using missing

theorem capDestroy_unused {caps : Caps} {capId : Int} (unused : capLookup caps capId = none) :
    capDestroy caps capId = (caps, -1) := by
  by_cases outside : capId < 0 ∨ (capPoolSize : Int) ≤ capId
  · rw [capDestroy, if_pos outside]
  · have unmarked : ¬caps.used capId.toNat = true := by
      intro used
      rw [capLookup, if_neg outside, if_pos used] at unused
      cases unused
    simp only [capDestroy, if_neg outside, if_neg unmarked]

theorem capDestroy_used {caps : Caps} {index : Nat} (bound : index < capPoolSize)
    (used : caps.used index = true) :
    (((caps.pool index).refcount = 1 ∧ (capDestroy caps index).1.used index = false) ∨
      ((caps.pool index).refcount ≠ 1 ∧ (capDestroy caps index).1 = { caps with
        pool := Function.update caps.pool index
          { caps.pool index with refcount := (caps.pool index).refcount - 1 } })) ∧
      KeepsOthers caps (capDestroy caps index).1 index ∧ (capDestroy caps index).2 = 0 := by
  have last : (caps.pool index).refcount - 1 = 0 ↔ (caps.pool index).refcount = 1 :=
    sub_eq_zero
  simp only [capDestroy, Int.toNat_natCast, used, if_true, last]
  rw [if_neg (by omega)]
  by_cases single : (caps.pool index).refcount = 1
  · rw [if_pos single]
    exact ⟨Or.inl ⟨single, Function.update_self _ _ _⟩, keepsOthers_update _ _ _ _, rfl⟩
  · rw [if_neg single]
    refine ⟨Or.inr ⟨single, rfl⟩, ⟨fun _ _ => rfl, ?_⟩, rfl⟩
    exact fun other different => Function.update_of_ne different _ _

theorem capAlloc_lookup {caps : Caps} {index : Nat} (taken : NextEntry caps index)
    (capOut : Capability) :
    capLookup (capAlloc caps capOut).1 index = some { capOut with refcount := 1 } := by
  rcases capAlloc_cases caps capOut with ⟨other, next, allocated⟩ | ⟨full, _⟩
  · have same : index = other := by
      rcases Nat.lt_trichotomy index other with below | same | above
      · exact absurd (next.2.2 index below) (by simp [taken.2.1])
      · exact same
      · exact absurd (taken.2.2 other above) (by simp [next.2.1])
    subst same
    rw [allocated]
    exact capLookup_some.mpr ⟨index, rfl, taken.1, Function.update_self _ _ _,
      Function.update_self _ _ _⟩
  · exact absurd (full index taken.1) (by simp [taken.2.1])

theorem capAlloc_lookup_other {caps : Caps} {capId : Int}
    (untaken : ∀ index, NextEntry caps index → capId ≠ index) (capOut : Capability) :
    capLookup (capAlloc caps capOut).1 capId = capLookup caps capId := by
  rcases capAlloc_cases caps capOut with ⟨index, next, allocated⟩ | ⟨_, allocated⟩
  · rw [allocated]
    exact (keepsOthers_update caps index _ _).lookup (untaken index next)
  · rw [allocated]

theorem capDestroy_lookup {caps : Caps} {capId : Int} {cap : Capability}
    (found : capLookup caps capId = some cap) :
    capLookup (capDestroy caps capId).1 capId ≠ some cap := by
  obtain ⟨index, rfl, bound, used, rfl⟩ := capLookup_some.mp found
  intro still
  obtain ⟨outcome, _, _⟩ := capDestroy_used bound used
  rcases outcome with ⟨_, released⟩ | ⟨_, counted⟩
  · rw [capLookup_unused released] at still
    cases still
  · rw [counted] at still
    obtain ⟨_, same, _, _, entry⟩ := capLookup_some.mp still
    obtain rfl := Int.ofNat.inj same
    have lower := congrArg Capability.refcount entry
    simp [sub_eq_self] at lower

theorem capDestroy_lookup_other {caps : Caps} {destroyed capId : Int}
    (other : destroyed ≠ capId) :
    capLookup (capDestroy caps destroyed).1 capId = capLookup caps capId := by
  rcases found : capLookup caps destroyed with _ | cap
  · rw [capDestroy_unused found]
  · obtain ⟨index, rfl, bound, used, _⟩ := capLookup_some.mp found
    exact (capDestroy_used bound used).2.1.lookup (Ne.symm other)

theorem taskAddCap_cases (system : TaskSystem) (taskId capId : Int) :
    system.taskAddCap taskId capId = (system, -1) ∨
    ∃ task : Nat, ∃ held, taskId = task ∧ system.population.holdings task = some held ∧
      held.numCaps < maxCapsPerTask ∧ (system.taskAddCap taskId capId).2 = 0 ∧
      SameCpus system (system.taskAddCap taskId capId).1 ∧
      (system.taskAddCap taskId capId).1.population = { system.population with
        holdings := Function.update system.population.holdings task (some { held with
          capTable := Function.update held.capTable held.numCaps capId
          numCaps := held.numCaps + 1 }) } := by
  unfold TaskSystem.taskAddCap
  split
  next => exact Or.inl rfl
  next task found =>
    obtain ⟨rfl, _, live⟩ := taskGet_some.mp found
    by_cases full : maxCapsPerTask ≤ (system.machine.smp.tasks task).numCaps
    · rw [if_pos full]
      exact Or.inl rfl
    · rw [if_neg full]
      refine Or.inr ⟨task, _, rfl, holdings_live live, Nat.lt_of_not_le full, rfl,
        ⟨rfl, rfl, rfl⟩, ?_⟩
      have holding : { system.machine.smp.tasks task with
          capTable := Function.update (system.machine.smp.tasks task).capTable
            (system.machine.smp.tasks task).numCaps capId
          numCaps := (system.machine.smp.tasks task).numCaps + 1 }.holding = some _ := if_neg live
      simp only [TaskSystem.population, TaskSystem.withSmp, setTask_holdings]
      rw [holding]

end DragoonKernel
