import DragoonKernel.FwCfgCore
import Mathlib.Data.List.Infix
import Mathlib.Tactic.IntervalCases

/-!
A lookup in a directory of `fw_cfg` files: which entry it finds, and when it is the one asked
for.
-/

namespace DragoonKernel

def bigEndian16 (v : BitVec 16) : List (BitVec 8) := [v.extractLsb' 8 8, v.extractLsb' 0 8]

def bigEndian32 (v : BitVec 32) : List (BitVec 8) :=
  [v.extractLsb' 24 8, v.extractLsb' 16 8, v.extractLsb' 8 8, v.extractLsb' 0 8]

/-- An entry of the directory. Its name is terminated, and whatever follows fills the field. -/
structure FwCfgFile where
  size : BitVec 32
  select : BitVec 16
  reserved : BitVec 16
  name : List (BitVec 8)
  padding : List (BitVec 8)
  visible : ∀ c ∈ name, c ≠ 0
  fills : name.length + 1 + padding.length = 56

def FwCfgFile.bytes (file : FwCfgFile) : List (BitVec 8) :=
  bigEndian32 file.size ++ bigEndian16 file.select ++ bigEndian16 file.reserved ++
    (file.name ++ 0 :: file.padding)

structure FwCfgDir where
  files : List FwCfgFile
  counted : files.length < 2 ^ 32

def FwCfgDir.bytes (dir : FwCfgDir) : List (BitVec 8) :=
  bigEndian32 (BitVec.ofNat 32 dir.files.length) ++ dir.files.flatMap FwCfgFile.bytes

/-- What is read from the device. Nothing is known about the bytes after the directory. -/
def FwCfgDir.stream (dir : FwCfgDir) (beyond : Nat → BitVec 8) (offset : Nat) : BitVec 8 :=
  dir.bytes.getD offset (beyond offset)

/-- A name that fits the field of an entry. -/
structure FileName where
  text : List (BitVec 8)
  visible : ∀ c ∈ text, c ≠ 0
  short : text.length ≤ 55

/-- The selector of the first file of that name, or -1. -/
def FwCfgDir.selectorOf (dir : FwCfgDir) (name : FileName) : Int :=
  match dir.files.find? fun file => file.name = name.text with
  | some file => file.select.toNat
  | none => -1

/-- The first file whose name starts with `name` has no longer name, or else has the selector of
the first file that is named so. -/
def FwCfgDir.Unshadowed (dir : FwCfgDir) (name : FileName) : Prop :=
  ∀ first, (dir.files.find? fun file => name.text <+: file.name) = some first →
    first.name = name.text ∨
      ∃ exact, (dir.files.find? fun file => file.name = name.text) = some exact ∧
        exact.select = first.select

section Words

/-- The machine loads the bytes the wrong way round, and the swap puts them right. -/
theorem bswap16_loadU16 (v : BitVec 16) (rest : List (BitVec 8)) :
    bswap16 (loadU16 (bigEndian16 v ++ rest)) = v := by
  change bswap16 (v.extractLsb' 0 8 ++ v.extractLsb' 8 8) = v
  apply BitVec.eq_of_getLsbD_eq
  intro i below
  simp only [bswap16, BitVec.getLsbD_or, BitVec.getLsbD_ushiftRight, BitVec.getLsbD_shiftLeft,
    BitVec.getLsbD_append, BitVec.getLsbD_extractLsb']
  interval_cases i <;> simp

theorem bswap32_loadU32 (v : BitVec 32) : bswap32 (loadU32 (bigEndian32 v)) = v := by
  change bswap32 (v.extractLsb' 0 8 ++ v.extractLsb' 8 8 ++ v.extractLsb' 16 8 ++
    v.extractLsb' 24 8) = v
  apply BitVec.eq_of_getLsbD_eq
  intro i below
  simp only [bswap32, BitVec.getLsbD_or, BitVec.getLsbD_and, BitVec.getLsbD_ushiftRight,
    BitVec.getLsbD_shiftLeft, BitVec.getLsbD_append, BitVec.getLsbD_extractLsb']
  interval_cases i <;> simp

end Words

section Stream

variable {stream : Nat → BitVec 8} {offset : Nat} {bytes first second : List (BitVec 8)}

/-- The stream has the bytes from the offset on. -/
def Streams (stream : Nat → BitVec 8) (offset : Nat) : List (BitVec 8) → Prop
  | [] => True
  | c :: rest => stream offset = c ∧ Streams stream (offset + 1) rest

theorem streams_append :
    Streams stream offset (first ++ second) ↔
      Streams stream offset first ∧ Streams stream (offset + first.length) second := by
  induction first generalizing offset with
  | nil => simp [Streams]
  | cons c rest ih =>
      rw [List.cons_append, Streams, Streams, ih, and_assoc, List.length_cons, Nat.add_assoc,
        Nat.add_comm 1]

theorem fwCfgRead_eq (streams : Streams stream offset bytes) :
    fwCfgRead stream offset bytes.length = bytes := by
  induction bytes generalizing offset with
  | nil => rfl
  | cons c rest ih =>
      have later := ih streams.2
      rw [fwCfgRead] at later ⊢
      rw [List.length_cons, List.range_succ_eq_map, List.map_cons, List.map_map, Nat.add_zero,
        streams.1]
      congr 1
      conv_rhs => rw [← later]
      exact List.map_congr_left fun i _ => congrArg stream (Nat.add_right_comm offset i 1)

theorem streams_getD (before bytes : List (BitVec 8)) (beyond : Nat → BitVec 8) :
    Streams (fun offset => (before ++ bytes).getD offset (beyond offset)) before.length bytes := by
  induction bytes generalizing before with
  | nil => trivial
  | cons c rest ih =>
      have later := ih (before ++ [c])
      rw [List.append_assoc, List.length_append] at later
      exact ⟨by simp, later⟩

end Stream

section Search

variable {file : FwCfgFile} {name : FileName}

theorem FwCfgFile.length_bytes (file : FwCfgFile) : file.bytes.length = fwCfgFileSize := by
  have fills := file.fills
  simp only [FwCfgFile.bytes, bigEndian16, bigEndian32, List.length_append, List.length_cons,
    List.length_nil, fwCfgFileSize]
  omega

theorem sameName_eq {text name padding : List (BitVec 8)} (visible : ∀ c ∈ name, c ≠ 0) :
    sameName (text ++ 0 :: padding) name = some (decide (name <+: text)) := by
  induction name generalizing text with
  | nil => simp [sameName]
  | cons c name ih =>
      have here : c ≠ 0 := visible c List.mem_cons_self
      have rest : ∀ c ∈ name, c ≠ 0 := fun c listed => visible c (List.mem_cons_of_mem _ listed)
      cases text with
      | nil =>
          rw [List.nil_append, sameName, if_pos here.symm]
          simp
      | cons e text =>
          rw [List.cons_append, sameName]
          by_cases same : e = c
          · rw [if_neg (not_not_intro same), ih rest]
            simp [List.cons_prefix_cons, same]
          · simp [List.cons_prefix_cons, same, Ne.symm same]

/-- The comparison stops at the end of `name`, so it accepts every longer name as well. -/
theorem findEntry_eq {files : List FwCfgFile} {stream : Nat → BitVec 8} {offset : Nat}
    (streams : Streams stream offset (files.flatMap FwCfgFile.bytes)) :
    findEntry stream name.text files.length offset =
      some (match files.find? fun file => name.text <+: file.name with
        | some file => file.select.toNat
        | none => -1) := by
  induction files generalizing offset with
  | nil => rfl
  | cons file rest ih =>
      rw [List.flatMap_cons, streams_append] at streams
      obtain ⟨here, later⟩ := streams
      have entry := fwCfgRead_eq here
      rw [file.length_bytes] at entry later
      have loaded : file.bytes.drop 4 = bigEndian16 file.select ++ (bigEndian16 file.reserved ++
        (file.name ++ 0 :: file.padding)) := rfl
      have named : file.bytes.drop 8 = file.name ++ 0 :: file.padding := rfl
      rw [List.length_cons, findEntry, entry]
      simp only [loaded, named, bswap16_loadU16, sameName_eq name.visible, ih later]
      by_cases starts : name.text <+: file.name
      · simp [starts]
      · simp [starts]

theorem fwCfgFindFile_eq (dir : FwCfgDir) (beyond : Nat → BitVec 8) (name : FileName) :
    fwCfgFindFile (dir.stream beyond) name.text =
      some (match dir.files.find? fun file => name.text <+: file.name with
        | some file => file.select.toNat
        | none => -1) := by
  have streams : Streams (dir.stream beyond) 0 dir.bytes := streams_getD [] dir.bytes beyond
  rw [FwCfgDir.bytes, streams_append] at streams
  have count := fwCfgRead_eq streams.1
  have bound : (BitVec.ofNat 32 dir.files.length).toNat = dir.files.length :=
    Nat.mod_eq_of_lt dir.counted
  rw [fwCfgFindFile,
    show 4 = (bigEndian32 (BitVec.ofNat 32 dir.files.length)).length from rfl, count,
    bswap32_loadU32, bound]
  exact findEntry_eq (by simpa using streams.2)

/-- A file of the very name that is first to start with it is the first of that name. -/
theorem find?_name_of_prefix {files : List FwCfgFile} {name : List (BitVec 8)}
    (found : (files.find? fun file => name <+: file.name) = some file) (same : file.name = name) :
    (files.find? fun file => file.name = name) = some file := by
  obtain ⟨_, before, after, split, others⟩ := List.find?_eq_some_iff_append.mp found
  refine List.find?_eq_some_iff_append.mpr ⟨decide_eq_true same, before, after, split, ?_⟩
  intro earlier listed
  have longer : ¬name <+: earlier.name := by simpa using others earlier listed
  have other : earlier.name ≠ name := fun equal => longer (equal ▸ List.prefix_rfl)
  simpa using other

theorem fwCfgFindFile_iff (dir : FwCfgDir) (beyond : Nat → BitVec 8) (name : FileName) :
    fwCfgFindFile (dir.stream beyond) name.text = some (dir.selectorOf name) ↔
      dir.Unshadowed name := by
  rw [fwCfgFindFile_eq, Option.some_inj, FwCfgDir.selectorOf, FwCfgDir.Unshadowed]
  cases first : dir.files.find? fun file => name.text <+: file.name with
  | none =>
      have unnamed : (dir.files.find? fun file => file.name = name.text) = none := by
        refine List.find?_eq_none.mpr fun file listed same => ?_
        have equal : file.name = name.text := of_decide_eq_true same
        exact List.find?_eq_none.mp first file listed (decide_eq_true (equal ▸ List.prefix_rfl))
      simp [unnamed]
  | some file =>
      have own := find?_name_of_prefix first
      cases exact : dir.files.find? fun file => file.name = name.text with
      | none =>
          refine iff_of_false (fun same => ?_) fun unshadowed => ?_
          · change (file.select.toNat : Int) = -1 at same
            omega
          · rcases unshadowed file rfl with same | ⟨other, found, _⟩
            · cases exact.symm.trans (own same)
            · cases found
      | some other =>
          have selectors : (file.select.toNat : Int) = other.select.toNat ↔
              other.select = file.select := by
            rw [Int.natCast_inj, BitVec.toNat_inj, eq_comm]
          dsimp only
          rw [selectors]
          constructor
          · rintro same _ ⟨⟩
            exact .inr ⟨other, rfl, same⟩
          · intro unshadowed
            rcases unshadowed file rfl with same | ⟨_, ⟨⟩, same⟩
            · rw [Option.some.inj (exact.symm.trans (own same))]
            · exact same

end Search

/-- `etc/ramfb-rom` comes before `etc/ramfb`. -/
def romFirst : FwCfgDir where
  files :=
    [{ size := 0, select := 0x20, reserved := 0, name := cString "etc/ramfb-rom",
       padding := List.replicate 42 0, visible := by decide, fills := rfl },
     { size := 28, select := 0x21, reserved := 0, name := cString "etc/ramfb",
       padding := List.replicate 46 0, visible := by decide, fills := rfl }]
  counted := by decide

theorem fwCfgFindFile_longerName :
    fwCfgFindFile (romFirst.stream fun _ => 0) (cString "etc/ramfb") ≠
      some (romFirst.selectorOf ⟨cString "etc/ramfb", by decide, by decide⟩) := by decide

end DragoonKernel
