import DragoonKernel.PageAllocatorCore

/-!
Executable model of `kernel/printf.c`, and of `printk` on top of it. `text` is the memory from
the start of the format on, `args` are the slots of the argument list, and `strings` has the
string at each pointer. A write past the end of the digit buffer is a fault.
-/

namespace DragoonKernel

def cString (text : String) : List (BitVec 8) := text.toList.map fun c => BitVec.ofNat 8 c.toNat

def byte (c : Char) : BitVec 8 := BitVec.ofNat 8 c.toNat

/-- What reaches the UART. -/
def printChar (c : BitVec 8) : List (BitVec 8) := if c = 10 then [13, c] else [c]

def printString (s : List (BitVec 8)) : List (BitVec 8) := s.flatMap printChar

/-- `sizeof(buf)` in `print_unsigned`. -/
def digitBufSize : Nat := 64

def digitSymbol (isUpper : Bool) (digit : Nat) : BitVec 8 :=
  (if isUpper then cString "0123456789ABCDEF" else cString "0123456789abcdef").getD digit 0

/-- The loop `while (val > 0)`. A `u64` takes fewer than 64 turns. -/
def putDigits (isUpper : Bool) (base : Nat) : Nat → Nat → List (BitVec 8) → List (BitVec 8)
  | 0, _, buf => buf
  | turns + 1, val, buf =>
      if val > 0 then
        putDigits isUpper base turns (val / base) (buf ++ [digitSymbol isUpper (val % base)])
      else buf

/-- `none` is a fault. -/
def printUnsigned (val : Word) (base : Nat) (width : BitVec 32) (pad : BitVec 8)
    (isUpper : Bool) : Option (List (BitVec 8)) :=
  let buf := if val = 0 then [byte '0'] else putDigits isUpper base 64 val.toNat []
  let buf := buf ++ List.replicate (width.toInt - buf.length).toNat pad
  if buf.length ≤ digitBufSize then some (buf.reverse.flatMap printChar) else none

def printSigned (val : Word) (width : BitVec 32) (pad : BitVec 8) : Option (List (BitVec 8)) :=
  if val.toInt < 0 then
    let width := if width.toInt > 0 then width - 1 else width
    (printUnsigned (-val) 10 width pad false).map fun out => printChar (byte '-') ++ out
  else printUnsigned val 10 width pad false

/-- `is_long` and `is_longlong`. -/
inductive LengthModifier where
  | int
  | long
  | longlong
deriving DecidableEq

/-- `va_arg` with the signed type of the modifier. -/
def LengthModifier.signed : LengthModifier → Word → Word
  | .int, slot => (slot.setWidth 32).signExtend 64
  | .long, slot => slot
  | .longlong, slot => slot

def LengthModifier.unsigned : LengthModifier → Word → Word
  | .int, slot => (slot.setWidth 32).setWidth 64
  | .long, slot => slot
  | .longlong, slot => slot

/-- How many slots of the argument list the conversion takes. -/
def slotsTaken (conversion : BitVec 8) : Nat :=
  if conversion ∈ cString "diuxXpsc" then 1 else 0

/-- The `switch` on the conversion, over the next slot of the argument list. -/
def printConversion (strings : Word → List (BitVec 8)) (conversion : BitVec 8) (pad : BitVec 8)
    (width : BitVec 32) (length : LengthModifier) (slot : Word) : Option (List (BitVec 8)) :=
  if conversion = byte 'd' ∨ conversion = byte 'i' then printSigned (length.signed slot) width pad
  else if conversion = byte 'u' then printUnsigned (length.unsigned slot) 10 width pad false
  else if conversion = byte 'x' then printUnsigned (length.unsigned slot) 16 width pad false
  else if conversion = byte 'X' then printUnsigned (length.unsigned slot) 16 width pad true
  else if conversion = byte 'p' then
    (printUnsigned slot 16 0 (byte '0') false).map fun out => printString (cString "0x") ++ out
  else if conversion = byte 's' then
    some (printString (if slot = 0 then cString "(null)" else strings slot))
  else if conversion = byte 'c' then some (printChar (slot.setWidth 8))
  else if conversion = byte '%' then some (printChar (byte '%'))
  else some (printChar (byte '%') ++ printChar conversion)

/-- `fmt` is the place in the format, `reads` are the places that have been read, and `ap`
slots of the argument list have been taken. -/
structure Printer where
  fmt : Nat
  ap : Nat
  out : List (BitVec 8)
  reads : List Nat
deriving DecidableEq

def Printer.start : Printer := ⟨0, 0, [], []⟩

/-- An evaluation of `*fmt`. -/
def Printer.read (printer : Printer) : Printer :=
  { printer with reads := printer.reads ++ [printer.fmt] }

/-- `fmt++`. -/
def Printer.advance (printer : Printer) : Printer := { printer with fmt := printer.fmt + 1 }

def Printer.print (printer : Printer) (out : List (BitVec 8)) : Printer :=
  { printer with out := printer.out ++ out }

def isDigit (c : BitVec 8) : Bool := byte '0' ≤ c ∧ c ≤ byte '9'

section Scan

variable (text : Nat → BitVec 8)

def parseFlag (printer : Printer) : Printer × BitVec 8 :=
  let printer := printer.read
  if text printer.fmt = byte '0' then (printer.advance, byte '0') else (printer, byte ' ')

/-- The loop over the digits of the width, in at most so many turns. -/
def parseWidth : Nat → Printer → BitVec 32 → Option (Printer × BitVec 32)
  | 0, _, _ => none
  | turns + 1, printer, width =>
      let printer := printer.read
      let c := text printer.fmt
      if isDigit c then
        parseWidth turns printer.advance (width * 10 + (c - byte '0').setWidth 32)
      else some (printer, width)

def parseLength (printer : Printer) : Printer × LengthModifier :=
  let printer := printer.read
  if text printer.fmt = byte 'l' then
    let printer := printer.advance.read
    if text printer.fmt = byte 'l' then (printer.advance, .longlong) else (printer, .long)
  else (printer, .int)

variable (args : Nat → Word) (strings : Word → List (BitVec 8))

/-- A turn of the loop after `fmt++` has skipped the `%`. -/
def convert (turns : Nat) (printer : Printer) : Option Printer :=
  let (printer, pad) := parseFlag text printer
  (parseWidth text turns printer 0).bind fun (printer, width) =>
    let (printer, length) := parseLength text printer
    let printer := printer.read
    let conversion := text printer.fmt
    (printConversion strings conversion pad width length (args printer.ap)).map fun out =>
      { (printer.print out).advance with ap := printer.ap + slotsTaken conversion }

/-- The loop `while (*fmt)`, in at most so many turns. -/
def kvprintf : Nat → Printer → Option Printer
  | 0, _ => none
  | turns + 1, printer =>
      let printer := printer.read
      let c := text printer.fmt
      if c = 0 then some printer
      else if c ≠ byte '%' then kvprintf turns (printer.print (printChar c)).advance
      else (convert text args strings turns printer.advance).bind (kvprintf turns)

/-- The log level prefix of `printk`, such as `<6>`. The tests stop at the first that fails. -/
def stripLevel (printer : Printer) : Printer :=
  let first := printer.read
  let second := { first with reads := first.reads ++ [printer.fmt + 1] }
  let third := { second with reads := second.reads ++ [printer.fmt + 2] }
  if text printer.fmt = byte '<' then
    if text (printer.fmt + 1) ≥ byte '0' ∧ text (printer.fmt + 1) ≤ byte '7' then
      if text (printer.fmt + 2) = byte '>' then { third with fmt := printer.fmt + 3 } else third
    else second
  else first

def printk (turns : Nat) : Option Printer :=
  kvprintf text args strings turns
    ((stripLevel text .start).print (printString (cString "[linux] ")))

end Scan

end DragoonKernel
