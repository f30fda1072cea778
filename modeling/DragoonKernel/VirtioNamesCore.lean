import DragoonKernel.PrintfCore

/-!
Executable model of the loop of `virtio_input_init` in `kernel/virtio_input.c` that tells the
keyboard from the pointer. A read past the end of the name buffer is a fault.
-/

namespace DragoonKernel

/-- What the config space of a device shows while `VIRTIO_INPUT_CFG_ID_NAME` is selected. -/
structure InputDevice where
  size : BitVec 8
  data : Nat → BitVec 8

/-- `sizeof(name)`. -/
def nameSize : Nat := 64

/-- The buffer `out` after the query, and the length that is returned. -/
def queryInputName (dev : InputDevice) (out : List (BitVec 8)) (maxLen : Nat) :
    List (BitVec 8) × Nat :=
  let size := dev.size.toNat
  if size = 0 ∨ size > 128 then (out, 0)
  else
    let n := if size < maxLen - 1 then size else maxLen - 1
    let out := (List.range n).foldl (fun out i => out.set i (dev.data i)) out
    (out.set n 0, n)

def lowercase (c : BitVec 8) : BitVec 8 := if byte 'A' ≤ c ∧ c ≤ byte 'Z' then c + 32 else c

/-- The loop over the needle, on the haystack from `i` on. -/
def matchHere : List (BitVec 8) → List (BitVec 8) → Option Bool
  | _, [] => some true
  | [], _ :: _ => none
  | h :: haystack, n :: needle =>
      if h = 0 then some false
      else if lowercase h ≠ lowercase n then some false
      else matchHere haystack needle

def strContains : List (BitVec 8) → List (BitVec 8) → Option Bool
  | [], _ => none
  | h :: haystack, needle =>
      if h = 0 then some false
      else
        match matchHere (h :: haystack) needle with
        | none => none
        | some true => some true
        | some false => strContains haystack needle

def namesKeyboard (name : List (BitVec 8)) : Option Bool :=
  match strContains name (cString "keyboard") with
  | some false => strContains name (cString "Keyboard")
  | found => found

/-- The loop with the devices it has seen. Devices go by their index, and `name` stays on the
stack from one turn to the next. -/
structure InputProbe where
  name : List (BitVec 8)
  kbdDev : Option Nat
  tabletDev : Option Nat
  seen : List InputDevice

def InputProbe.start (leftover : Fin nameSize → BitVec 8) : InputProbe :=
  ⟨List.ofFn leftover, none, none, []⟩

def InputProbe.step (probe : InputProbe) (dev : InputDevice) : Option InputProbe :=
  let name := (queryInputName dev probe.name nameSize).1
  (namesKeyboard name).map fun keyboard =>
    { name := name
      kbdDev := if keyboard then some probe.seen.length else probe.kbdDev
      tabletDev := if keyboard then probe.tabletDev else some probe.seen.length
      seen := probe.seen ++ [dev] }

end DragoonKernel
