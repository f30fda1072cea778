import Mathlib.Data.List.Induction
import Mathlib.Data.List.Nodup
import Mathlib.Data.Set.Basic

/-!
Trees of tables linked by pointers in table entries, several of which may share
subtrees. `child table index` is the table that an entry points to, if any. Depth
is bounded by the length of a path, not by the entries, so the entries of the
deepest tables are never followed.
-/

namespace TableTree

universe u v

variable {Table : Type u} {Index : Type v}

def descend (child : Table → Index → Option Table) : Table → List Index → Option Table
  | table, [] => some table
  | table, index :: rest => (child table index).bind fun next => descend child next rest

variable {child after : Table → Index → Option Table}

@[simp] theorem descend_nil (table : Table) : descend child table [] = some table := rfl

theorem descend_append (table : Table) (first second : List Index) :
    descend child table (first ++ second) =
      (descend child table first).bind fun next => descend child next second := by
  induction first generalizing table with
  | nil => rfl
  | cons index rest ih =>
      simp only [List.cons_append, descend]
      cases child table index with
      | none => rfl
      | some next => exact ih next

theorem descend_snoc (table : Table) (path : List Index) (index : Index) :
    descend child table (path ++ [index]) =
      (descend child table path).bind fun next => child next index := by
  rw [descend_append]
  congr 1
  funext next
  simp [descend]

theorem descend_snoc_some {root table next : Table} {path : List Index} {index : Index}
    (located : descend child root path = some table) (pointer : child table index = some next) :
    descend child root (path ++ [index]) = some next := by
  rw [descend_snoc, located, Option.bind_some, pointer]

theorem descend_congr {root : Table} {depth : Nat}
    (agree : ∀ path table, path.length < depth → descend child root path = some table →
      ∀ index, after table index = child table index) :
    ∀ path, path.length ≤ depth → descend after root path = descend child root path := by
  intro path
  induction path using List.reverseRecOn with
  | nil => intro _; rfl
  | append_singleton path index ih =>
      intro short
      simp only [List.length_append, List.length_singleton] at short
      rw [descend_snoc, descend_snoc, ih (by omega)]
      cases located : descend child root path with
      | none => rfl
      | some table => exact agree path table (by omega) located index

/-- Every table is reached by one path only; only tables whose path is `shared`
are reached from several roots. -/
def Partitioned (child : Table → Index → Option Table) (depth : Nat) (roots : Set Table)
    (shared : List Index → Prop) : Prop :=
  ∀ first ∈ roots, ∀ second ∈ roots, ∀ path other : List Index, ∀ table,
    path.length ≤ depth → other.length ≤ depth →
    descend child first path = some table → descend child second other = some table →
    path = other ∧ (first = second ∨ shared path)

/-- `fresh`, a new table without children, is linked at an empty entry of `parent`. -/
structure Links (child after : Table → Index → Option Table) (old : Table → Prop)
    (parent : Table) (slot : Index) (fresh : Table) : Prop where
  vacant : child parent slot = none
  pointer : after parent slot = some fresh
  childless : ∀ index, after fresh index = none
  isNew : ¬old fresh
  frame : ∀ table index, old table → ¬(table = parent ∧ index = slot) →
    after table index = child table index

theorem Links.descend_kept {old : Table → Prop} {parent fresh root : Table} {slot : Index}
    {depth : Nat} (links : Links child after old parent slot fresh)
    (reached : ∀ path table, path.length ≤ depth → descend child root path = some table →
      old table) :
    ∀ path table, path.length ≤ depth → descend child root path = some table →
      descend after root path = some table := by
  intro path
  induction path using List.reverseRecOn with
  | nil => intro table _ found; exact found
  | append_singleton path index ih =>
      intro table short found
      simp only [List.length_append, List.length_singleton] at short
      rw [descend_snoc, Option.bind_eq_some_iff] at found
      obtain ⟨middle, located, pointer⟩ := found
      apply descend_snoc_some (ih middle (by omega) located)
      rw [links.frame middle index (reached path middle (by omega) located)]
      · exact pointer
      · rintro ⟨rfl, rfl⟩
        rw [links.vacant] at pointer
        simp at pointer

theorem descend_link {old : Table → Prop} {parent fresh root : Table} {slot : Index}
    {place : List Index} {depth : Nat} (links : Links child after old parent slot fresh)
    (located : descend child root place = some parent)
    (unique : ∀ path, path.length ≤ depth → descend child root path = some parent → path = place)
    (reached : ∀ path table, path.length ≤ depth → descend child root path = some table →
      old table)
    (shallow : place.length < depth) [DecidableEq (List Index)] :
    ∀ path, path.length ≤ depth → descend after root path =
      if path = place ++ [slot] then some fresh else descend child root path := by
  intro path
  induction path using List.reverseRecOn with
  | nil => intro _; simp
  | append_singleton path index ih =>
      intro short
      simp only [List.length_append, List.length_singleton] at short
      rw [descend_snoc, descend_snoc, ih (by omega)]
      by_cases linked : path = place ++ [slot]
      · subst linked
        have longer : ¬(place ++ [slot] ++ [index] = place ++ [slot]) := by simp
        rw [if_pos rfl, if_neg longer, Option.bind_some, links.childless, descend_snoc, located]
        simp [links.vacant]
      · rw [if_neg linked]
        cases found : descend child root path with
        | none =>
            rw [if_neg]
            · rfl
            · intro same
              obtain ⟨rfl, _⟩ := List.append_inj' same rfl
              rw [located] at found
              simp at found
        | some table =>
            by_cases here : table = parent ∧ index = slot
            · obtain ⟨rfl, rfl⟩ := here
              rw [unique path (by omega) found, if_pos rfl, Option.bind_some, links.pointer]
            · rw [if_neg, Option.bind_some, Option.bind_some,
                links.frame table index (reached path table (by omega) found) here]
              intro same
              obtain ⟨rfl, sameIndex⟩ := List.append_inj' same rfl
              rw [located, Option.some.injEq] at found
              exact here ⟨found.symm, by simpa using sameIndex⟩

theorem descend_link_any {roots : Set Table} {shared : List Index → Prop} {depth : Nat}
    (partitioned : Partitioned child depth roots shared)
    {old : Table → Prop} {parent fresh owner root : Table} {slot : Index} {place : List Index}
    (links : Links child after old parent slot fresh) (shallow : place.length < depth)
    (isRoot : owner ∈ roots) (located : descend child owner place = some parent)
    (member : root ∈ roots)
    (reached : ∀ path table, path.length ≤ depth → descend child root path = some table →
      old table)
    (path : List Index) (short : path.length ≤ depth) :
    descend after root path = descend child root path ∨
      (descend after root path = some fresh ∧ path = place ++ [slot] ∧
        (owner = root ∨ shared place)) := by
  classical
  by_cases contains : descend child root place = some parent
  · have unique : ∀ other, other.length ≤ depth → descend child root other = some parent →
        other = place := by
      intro other bound found
      exact (partitioned root member root member other place parent bound (by omega)
        found contains).1
    rw [descend_link links contains unique reached shallow path short]
    by_cases linked : path = place ++ [slot]
    · right
      rw [if_pos linked]
      exact ⟨rfl, linked, (partitioned owner isRoot root member place place parent (by omega)
        (by omega) located contains).2⟩
    · left
      rw [if_neg linked]
  · left
    apply descend_congr _ path short
    intro other table bound found index
    apply links.frame table index (reached other table (by omega) found)
    rintro ⟨rfl, _⟩
    have same := (partitioned owner isRoot root member place other table (by omega) (by omega)
      located found).1
    exact contains (same ▸ found)

theorem Partitioned.link {roots : Set Table} {shared : List Index → Prop} {depth : Nat}
    (partitioned : Partitioned child depth roots shared)
    (sharedBelow : ∀ path index, shared path → shared (path ++ [index]))
    {old : Table → Prop} {parent fresh owner : Table} {slot : Index} {place : List Index}
    (links : Links child after old parent slot fresh) (shallow : place.length < depth)
    (isRoot : owner ∈ roots) (located : descend child owner place = some parent)
    (reached : ∀ root ∈ roots, ∀ path table, path.length ≤ depth →
      descend child root path = some table → old table) :
    Partitioned after depth roots shared := by
  intro first firstRoot second secondRoot path other table short bound found same
  have left := descend_link_any partitioned links shallow isRoot located firstRoot
    (reached first firstRoot) path short
  have right := descend_link_any partitioned links shallow isRoot located secondRoot
    (reached second secondRoot) other bound
  rcases left with left | ⟨left, atPath, leftShared⟩ <;>
    rcases right with right | ⟨right, atOther, rightShared⟩
  · rw [left] at found
    rw [right] at same
    exact partitioned first firstRoot second secondRoot path other table short bound found same
  · rw [right] at same
    rw [left, ← same] at found
    exact absurd (reached first firstRoot path fresh short found) links.isNew
  · rw [left] at found
    rw [right, ← found] at same
    exact absurd (reached second secondRoot other fresh bound same) links.isNew
  · refine ⟨atPath.trans atOther.symm, ?_⟩
    rcases leftShared with rfl | isShared
    · rcases rightShared with same | isShared
      · exact Or.inl same
      · exact Or.inr (atPath ▸ sharedBelow _ _ isShared)
    · exact Or.inr (atPath ▸ sharedBelow _ _ isShared)

/-- `fresh`, a new root, takes over the entry `slot` of `model` and has no other child. -/
structure Joins (child after : Table → Index → Option Table) (old : Table → Prop)
    (model : Table) (slot : Index) (fresh : Table) : Prop where
  pointer : after fresh slot = child model slot
  others : ∀ index, index ≠ slot → after fresh index = none
  isNew : ¬old fresh
  frame : ∀ table index, old table → after table index = child table index

theorem Joins.descend_old {old : Table → Prop} {model fresh root : Table} {slot : Index}
    {depth : Nat} (joins : Joins child after old model slot fresh)
    (reached : ∀ path table, path.length ≤ depth → descend child root path = some table →
      old table) :
    ∀ path, path.length ≤ depth → descend after root path = descend child root path :=
  descend_congr fun path table short found index =>
    joins.frame table index (reached path table (by omega) found)

theorem Joins.descend_fresh {old : Table → Prop} {model fresh : Table} {slot : Index}
    {depth : Nat} (joins : Joins child after old model slot fresh)
    (reached : ∀ path table, path.length ≤ depth → descend child model path = some table →
      old table)
    {path : List Index} {table : Table} (short : path.length ≤ depth)
    (found : descend after fresh path = some table) :
    (path = [] ∧ table = fresh) ∨
      (path.head? = some slot ∧ descend child model path = some table) := by
  cases path with
  | nil => exact Or.inl ⟨rfl, by simpa using found.symm⟩
  | cons index rest =>
      right
      by_cases atSlot : index = slot
      · subst index
        refine ⟨rfl, ?_⟩
        rw [← joins.descend_old reached _ short]
        have oldModel : old model := reached [] model (by simp) rfl
        rw [descend, joins.frame model slot oldModel, ← joins.pointer]
        exact found
      · rw [descend, joins.others index atSlot] at found
        simp at found

theorem Partitioned.join {roots : Set Table} {shared : List Index → Prop} {depth : Nat}
    (partitioned : Partitioned child depth roots shared) {slot : Index}
    (sharedSlot : ∀ path, path.head? = some slot → shared path)
    {old : Table → Prop} {model fresh : Table} (joins : Joins child after old model slot fresh)
    (isRoot : model ∈ roots)
    (reached : ∀ root ∈ roots, ∀ path table, path.length ≤ depth →
      descend child root path = some table → old table) :
    Partitioned after depth (insert fresh roots) shared := by
  have trace : ∀ root ∈ insert fresh roots, ∀ path table, path.length ≤ depth →
      descend after root path = some table → (root = fresh ∧ path = [] ∧ table = fresh) ∨
        ∃ origin ∈ roots, descend child origin path = some table ∧
          (root = origin ∨ shared path) := by
    intro root member path table short found
    rcases member with rfl | member
    · rcases joins.descend_fresh (reached model isRoot) short found with ⟨atRoot, same⟩ | ⟨head, inside⟩
      · exact Or.inl ⟨rfl, atRoot, same⟩
      · exact Or.inr ⟨model, isRoot, inside, Or.inr (sharedSlot path head)⟩
    · rw [joins.descend_old (reached root member) path short] at found
      exact Or.inr ⟨root, member, found, Or.inl rfl⟩
  intro first firstRoot second secondRoot path other table short bound found same
  rcases trace first firstRoot path table short found with
    ⟨atFirst, nilPath, isFresh⟩ | ⟨origin, member, inside, toFirst⟩ <;>
    rcases trace second secondRoot other table bound same with
      ⟨atSecond, nilOther, also⟩ | ⟨source, secondMember, alsoInside, toSecond⟩
  · exact ⟨nilPath.trans nilOther.symm, Or.inl (atFirst.trans atSecond.symm)⟩
  · exact absurd (reached source secondMember other table bound alsoInside) (isFresh ▸ joins.isNew)
  · exact absurd (reached origin member path table short inside) (also ▸ joins.isNew)
  · obtain ⟨samePath, sameRoot⟩ := partitioned origin member source secondMember path other table
      short bound inside alsoInside
    refine ⟨samePath, ?_⟩
    rcases toFirst with rfl | isShared
    · rcases toSecond with rfl | isShared
      · exact sameRoot
      · exact Or.inr (samePath ▸ isShared)
    · exact Or.inr isShared

def branch (child : Table → Index → Option Table) (visit : Table → List Table)
    (indices : List Index) (table : Table) : List Table :=
  indices.flatMap fun index => match child table index with
    | some next => visit next
    | none => []

def tables (child : Table → Index → Option Table) (indices : List Index) : Nat → Table → List Table
  | 0, table => [table]
  | height + 1, table => branch child (tables child indices height) indices table ++ [table]

theorem mem_branch {visit : Table → List Table} {indices : List Index} {table query : Table} :
    query ∈ branch child visit indices table ↔
      ∃ index ∈ indices, ∃ next, child table index = some next ∧ query ∈ visit next := by
  simp only [branch, List.mem_flatMap]
  constructor
  · rintro ⟨index, listed, inside⟩
    cases pointer : child table index with
    | none => simp [pointer] at inside
    | some next =>
        simp only [pointer] at inside
        exact ⟨index, listed, next, pointer, inside⟩
  · rintro ⟨index, listed, next, pointer, inside⟩
    exact ⟨index, listed, by simpa only [pointer] using inside⟩

theorem mem_tables {indices : List Index} (complete : ∀ index, index ∈ indices) (height : Nat) :
    ∀ table query, query ∈ tables child indices height table ↔
      ∃ path : List Index, path.length ≤ height ∧ descend child table path = some query := by
  induction height with
  | zero =>
      intro table query
      simp only [tables, List.mem_singleton, Nat.le_zero_eq, List.length_eq_zero_iff]
      constructor
      · rintro rfl
        exact ⟨[], rfl, rfl⟩
      · rintro ⟨path, rfl, found⟩
        simpa using found.symm
  | succ height ih =>
      intro table query
      simp only [tables, List.mem_append, mem_branch, List.mem_singleton, ih]
      constructor
      · rintro (⟨index, _, next, pointer, path, short, found⟩ | rfl)
        · exact ⟨index :: path, by simpa using short, by simpa [descend, pointer] using found⟩
        · exact ⟨[], by simp, rfl⟩
      · rintro ⟨path, short, found⟩
        cases path with
        | nil => exact Or.inr (by simpa using found.symm)
        | cons index rest =>
            simp only [descend, Option.bind_eq_some_iff] at found
            obtain ⟨next, pointer, found⟩ := found
            exact Or.inl ⟨index, complete index, next, pointer, rest, by simpa using short, found⟩

theorem mem_branch_tables {indices : List Index} (complete : ∀ index, index ∈ indices)
    {selected : List Index} {height : Nat} {table query : Table} :
    query ∈ branch child (tables child indices height) selected table ↔
      ∃ index ∈ selected, ∃ path : List Index, path.length ≤ height ∧
        descend child table (index :: path) = some query := by
  simp only [mem_branch, mem_tables complete, descend, Option.bind_eq_some_iff]
  constructor
  · rintro ⟨index, listed, next, pointer, path, short, found⟩
    exact ⟨index, listed, path, short, next, pointer, found⟩
  · rintro ⟨index, listed, path, short, next, pointer, found⟩
    exact ⟨index, listed, next, pointer, path, short, found⟩

/-- Paths of bounded length from a table are determined by their end. -/
def UniquePaths (child : Table → Index → Option Table) (depth : Nat) (table : Table) : Prop :=
  ∀ path other : List Index, ∀ query, path.length ≤ depth → other.length ≤ depth →
    descend child table path = some query → descend child table other = some query → path = other

theorem UniquePaths.below {depth : Nat} {table next : Table} {index : Index}
    (unique : UniquePaths child (depth + 1) table) (pointer : child table index = some next) :
    UniquePaths child depth next := by
  intro path other query short bound found same
  have both := unique (index :: path) (index :: other) query (by simpa using short)
    (by simpa using bound) (by simpa [descend, pointer] using found)
    (by simpa [descend, pointer] using same)
  simpa using both

theorem nodup_branch {indices selected : List Index} (complete : ∀ index, index ∈ indices)
    (distinct : selected.Nodup) {height : Nat} {table : Table}
    (unique : UniquePaths child (height + 1) table)
    (below : ∀ index next, child table index = some next →
      (tables child indices height next).Nodup) :
    (branch child (tables child indices height) selected table).Nodup := by
  rw [branch, List.nodup_flatMap]
  constructor
  · intro index _
    cases pointer : child table index with
    | none => simp
    | some next => exact below index next pointer
  · apply distinct.imp
    intro first second different query inFirst inSecond
    have single : ∀ index, query ∈ (match child table index with
        | some next => tables child indices height next
        | none => []) →
        ∃ path, path.length ≤ height ∧ descend child table (index :: path) = some query := by
      intro index inside
      have listed : query ∈ branch child (tables child indices height) [index] table := by
        simpa [branch] using inside
      obtain ⟨_, atIndex, path, short, found⟩ := (mem_branch_tables complete).mp listed
      rw [List.mem_singleton.mp atIndex] at found
      exact ⟨path, short, found⟩
    obtain ⟨path, short, found⟩ := single first inFirst
    obtain ⟨rest, bound, same⟩ := single second inSecond
    have both := unique _ _ query (by simpa using short) (by simpa using bound) found same
    simp only [List.cons.injEq] at both
    exact different both.1

theorem nodup_tables {indices : List Index} (complete : ∀ index, index ∈ indices)
    (distinct : indices.Nodup) (height : Nat) :
    ∀ table, UniquePaths child height table → (tables child indices height table).Nodup := by
  induction height with
  | zero =>
      intro table _
      simp [tables]
  | succ height ih =>
      intro table unique
      rw [tables, List.nodup_append]
      refine ⟨nodup_branch complete distinct unique fun index next pointer =>
        ih next (unique.below pointer), by simp, ?_⟩
      intro query inside root atRoot same
      obtain ⟨index, _, path, short, found⟩ := (mem_branch_tables complete).mp inside
      have both := unique (index :: path) [] query (by simpa using short) (by simp) found
        (by rw [same, List.mem_singleton.mp atRoot]; rfl)
      simp at both

end TableTree
