import DragoonKernel.PrintfCore

/-!
Executable model of `fw_cfg_find_file` in `kernel/fb.c`. `stream` has the bytes of the selected
entry by their offset, and a read past the end of a name is a fault.
-/

namespace DragoonKernel

def bswap16 (v : BitVec 16) : BitVec 16 := (v >>> 8) ||| (v <<< 8)

def bswap32 (v : BitVec 32) : BitVec 32 :=
  ((v &&& 0xFF000000) >>> 24) ||| ((v &&& 0x00FF0000) >>> 8) |||
    ((v &&& 0x0000FF00) <<< 8) ||| ((v &&& 0x000000FF) <<< 24)

def fwCfgRead (stream : Nat → BitVec 8) (offset n : Nat) : List (BitVec 8) :=
  (List.range n).map fun i => stream (offset + i)

/-- A `u16` and a `u32` in memory, on a little-endian machine. -/
def loadU16 (bytes : List (BitVec 8)) : BitVec 16 := bytes.getD 1 0 ++ bytes.getD 0 0

def loadU32 (bytes : List (BitVec 8)) : BitVec 32 :=
  bytes.getD 3 0 ++ bytes.getD 2 0 ++ bytes.getD 1 0 ++ bytes.getD 0 0

/-- `sizeof(struct fw_cfg_file)`. -/
def fwCfgFileSize : Nat := 64

/-- The loop over `name`, on the entry's name from `j` on. -/
def sameName : List (BitVec 8) → List (BitVec 8) → Option Bool
  | _, [] => some true
  | [], _ :: _ => none
  | e :: entry, c :: name => if e ≠ c then some false else sameName entry name

/-- The loop over the entries, as many as are left. -/
def findEntry (stream : Nat → BitVec 8) (name : List (BitVec 8)) : Nat → Nat → Option Int
  | 0, _ => some (-1)
  | left + 1, offset =>
      let entry := fwCfgRead stream offset fwCfgFileSize
      match sameName (entry.drop 8) name with
      | none => none
      | some true => some (bswap16 (loadU16 (entry.drop 4))).toNat
      | some false => findEntry stream name left (offset + fwCfgFileSize)

def fwCfgFindFile (stream : Nat → BitVec 8) (name : List (BitVec 8)) : Option Int :=
  let count := bswap32 (loadU32 (fwCfgRead stream 0 4))
  findEntry stream name count.toNat 4

end DragoonKernel
