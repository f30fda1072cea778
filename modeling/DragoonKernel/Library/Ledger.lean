import Mathlib.Algebra.BigOperators.Group.Finset.Basic

/-!
Ledgers of exclusive ownership: an item is used exactly when somebody owns it, and then
only one owner does. Owners gain unused items and give up what they own, and the used
items of a finite stock are counted by their owners.
-/

namespace Ledger

universe u v

variable {Item : Type u} {Owner : Type v}

structure Balanced (used : Item → Prop) (owns : Owner → Item → Prop) : Prop where
  used_iff : ∀ item, used item ↔ ∃ owner, owns owner item
  unique : ∀ owner other item, owns owner item → owns other item → owner = other

variable {used after : Item → Prop} {owns later : Owner → Item → Prop}

theorem Balanced.congr (balanced : Balanced used owns)
    (sameUse : ∀ item, after item ↔ used item)
    (sameOwners : ∀ owner item, later owner item ↔ owns owner item) : Balanced after later := by
  constructor
  · intro item
    simp only [sameUse, sameOwners, balanced.used_iff]
  · intro owner other item
    simp only [sameOwners]
    exact balanced.unique owner other item

theorem Balanced.gain (balanced : Balanced used owns) (owner : Owner) (fresh : Item → Prop)
    (unused : ∀ item, fresh item → ¬used item) :
    Balanced (fun item => used item ∨ fresh item)
      (fun other item => owns other item ∨ (other = owner ∧ fresh item)) := by
  have unowned : ∀ other item, fresh item → ¬owns other item := by
    intro other item isFresh held
    exact unused item isFresh ((balanced.used_iff item).mpr ⟨other, held⟩)
  constructor
  · intro item
    rw [balanced.used_iff]
    constructor
    · rintro (⟨other, held⟩ | isFresh)
      · exact ⟨other, Or.inl held⟩
      · exact ⟨owner, Or.inr ⟨rfl, isFresh⟩⟩
    · rintro ⟨other, held | ⟨_, isFresh⟩⟩
      · exact Or.inl ⟨other, held⟩
      · exact Or.inr isFresh
  · rintro first second item (held | ⟨rfl, isFresh⟩) (also | ⟨rfl, alsoFresh⟩)
    · exact balanced.unique first second item held also
    · exact absurd held (unowned first item alsoFresh)
    · exact absurd also (unowned second item isFresh)
    · rfl

theorem Balanced.giveUp (balanced : Balanced used owns) (gone : Owner → Prop) :
    Balanced (fun item => used item ∧ ∀ owner, gone owner → ¬owns owner item)
      (fun owner item => owns owner item ∧ ¬gone owner) := by
  constructor
  · intro item
    rw [balanced.used_iff]
    constructor
    · rintro ⟨⟨owner, held⟩, kept⟩
      exact ⟨owner, held, fun left => kept owner left held⟩
    · rintro ⟨owner, held, stays⟩
      refine ⟨⟨owner, held⟩, fun other left also => ?_⟩
      exact stays (balanced.unique owner other item held also ▸ left)
  · exact fun first second item held also =>
      balanced.unique first second item held.1 also.1

theorem Balanced.card_used [DecidableEq Item] [DecidablePred used]
    [∀ owner, DecidablePred (owns owner)] (balanced : Balanced used owns)
    (items : Finset Item) (owners : Finset Owner)
    (listed : ∀ owner item, item ∈ items → owns owner item → owner ∈ owners) :
    (items.filter used).card = ∑ owner ∈ owners, (items.filter (owns owner)).card := by
  have parts : items.filter used = owners.biUnion fun owner => items.filter (owns owner) := by
    ext item
    simp only [Finset.mem_filter, Finset.mem_biUnion, balanced.used_iff]
    constructor
    · rintro ⟨inside, owner, held⟩
      exact ⟨owner, listed owner item inside held, inside, held⟩
    · rintro ⟨owner, _, inside, held⟩
      exact ⟨inside, owner, held⟩
  rw [parts, Finset.card_biUnion]
  intro first _ second _ different
  rw [Function.onFun, Finset.disjoint_left]
  intro item held also
  exact different (balanced.unique first second item (Finset.mem_filter.mp held).2
    (Finset.mem_filter.mp also).2)

end Ledger
