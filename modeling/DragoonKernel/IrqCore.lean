import DragoonKernel.PageAllocatorCore
import Mathlib.Logic.Function.Basic

/-!
Executable model of the handler table of `kernel/irq.c`, and of `request_irq` and `free_irq` in
`linux/compat.c` on top of it. `writes` has the writes to the registers of the interrupt
controller.
-/

namespace DragoonKernel

def maxIrq : Nat := 256

/-- The registers, at `GICD_BASE` and `GICC_BASE`. -/
def gicdIsenabler : Word := 0x08000000 + 0x100

def gicdIcenabler : Word := 0x08000000 + 0x180

def giccEoir : Word := 0x08010000 + 0x010

variable {Handler : Type}

structure Irqs (Handler : Type) where
  irqHandlers : Nat → Option Handler
  writes : List (Word × BitVec 32)

def Irqs.gicWrite (irqs : Irqs Handler) (addr : Word) (val : BitVec 32) : Irqs Handler :=
  { irqs with writes := irqs.writes ++ [(addr, val)] }

def Irqs.irqRegister (irqs : Irqs Handler) (irq : BitVec 32) (handler : Option Handler) :
    Irqs Handler :=
  if irq.toNat < maxIrq then
    { irqs with irqHandlers := Function.update irqs.irqHandlers irq.toNat handler }
  else irqs

def Irqs.irqEnable (irqs : Irqs Handler) (irq : BitVec 32) : Irqs Handler :=
  let reg := irq / 32
  let bit := irq % 32
  irqs.gicWrite (gicdIsenabler + (reg * 4).setWidth 64) ((1 : BitVec 32) <<< bit)

def Irqs.irqDisable (irqs : Irqs Handler) (irq : BitVec 32) : Irqs Handler :=
  let reg := irq / 32
  let bit := irq % 32
  irqs.gicWrite (gicdIcenabler + (reg * 4).setWidth 64) ((1 : BitVec 32) <<< bit)

/-- The number that an acknowledged interrupt carries in `GICC_IAR`. -/
def irqNumber (iar : BitVec 32) : BitVec 32 := iar &&& 0x3FF

/-- The interrupts from here on are spurious. -/
def spuriousIrq : Nat := 1020

/-- With the handlers that are called. -/
def Irqs.irqHandle (irqs : Irqs Handler) (iar : BitVec 32) : Irqs Handler × List Handler :=
  let irq := irqNumber iar
  if irq.toNat ≥ spuriousIrq then (irqs, [])
  else
    let calls := if irq.toNat < maxIrq then (irqs.irqHandlers irq.toNat).toList else []
    (irqs.gicWrite giccEoir iar, calls)

def Irqs.requestIrq (irqs : Irqs Handler) (irqNum : BitVec 32) (handler : Option Handler) :
    Irqs Handler × Int :=
  ((irqs.irqRegister irqNum handler).irqEnable irqNum, 0)

def Irqs.freeIrq (irqs : Irqs Handler) (irqNum : BitVec 32) : Irqs Handler :=
  irqs.irqDisable irqNum

inductive IrqCall (Handler : Type) where
  | requestIrq (irqNum : BitVec 32) (handler : Option Handler)
  | freeIrq (irqNum : BitVec 32)
  | irqHandle (iar : BitVec 32)

inductive IrqEvent (Handler : Type) where
  | requested (irq : BitVec 32) (handler : Option Handler) (returned : Int)
  | freed (irq : BitVec 32)
  | handled (irq : BitVec 32) (calls : List Handler)

/-- The interrupts with what has happened to them, the last event first. -/
structure IrqHistory (Handler : Type) where
  irqs : Irqs Handler
  past : List (IrqEvent Handler)

def IrqHistory.step (history : IrqHistory Handler) :
    IrqCall Handler → Option (IrqHistory Handler)
  | .requestIrq irqNum handler =>
      let (irqs, returned) := history.irqs.requestIrq irqNum handler
      some ⟨irqs, .requested irqNum handler returned :: history.past⟩
  | .freeIrq irqNum => some ⟨history.irqs.freeIrq irqNum, .freed irqNum :: history.past⟩
  | .irqHandle iar =>
      let (irqs, calls) := history.irqs.irqHandle iar
      some ⟨irqs, .handled (irqNumber iar) calls :: history.past⟩

end DragoonKernel
