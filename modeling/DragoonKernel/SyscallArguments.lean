import DragoonKernel.CapConfinement
import DragoonKernel.CapPool

/-!
The identifiers that system calls take. They are of type `int`, so the handler reads the low
half of the register and nothing of the high half.
-/

namespace DragoonKernel

/-- The number is one that the call accepts as its identifier. -/
def Kernel.Identifies (kernel : Kernel) (call : Syscall) (id : Nat) : Prop :=
  match call with
  | .send | .recv => id < maxEndpoints ∧ (kernel.endpoints id).active = true
  | .capCreate => id = capMemory.toNat ∨ id = capIo.toNat
  | .capDestroy => kernel.caps.InUse id
  | .yield | .mapPage | .debugPrint | .exit => True

theorem intArg_natCast {arg : Word} {id : Nat} (same : intArg arg = id) :
    arg.toNat % 2 ^ 32 = id := by
  rw [intArg, BitVec.toInt_eq_toNat_cond, BitVec.toNat_setWidth] at same
  omega

variable {kernel : Kernel}

theorem activeEndpoint_identified {arg : Word} {ep : Nat}
    (found : kernel.ipc.activeEndpoint (intArg arg) = some ep) :
    kernel.Identifies .send (arg.toNat % 2 ^ 32) := by
  unfold Ipc.activeEndpoint at found
  split at found
  next => cases found
  next inside =>
    obtain ⟨active, _⟩ := Option.ite_none_right_eq_some.mp found
    have same : arg.toNat % 2 ^ 32 = (intArg arg).toNat := intArg_natCast (by omega)
    rw [same]
    exact ⟨by omega, active⟩

theorem inUse_identified {arg : Word} (inUse : kernel.caps.InUse (intArg arg)) :
    kernel.Identifies .capDestroy (arg.toNat % 2 ^ 32) := by
  obtain ⟨index, named, bound, used⟩ := inUse
  rw [intArg_natCast named]
  exact ⟨index, rfl, bound, used⟩

theorem ipcSend_unidentified {arg : Word} (invalid : ¬kernel.Identifies .send (arg.toNat % 2 ^ 32))
    (current : Nat) (msg : IpcMessage) :
    ipcSend kernel.ipc current (intArg arg) msg = (kernel.ipc, .returned (-1)) := by
  unfold ipcSend
  split
  next => rfl
  next ep found => exact absurd (activeEndpoint_identified found) invalid

theorem ipcRecv_unidentified {arg : Word} (invalid : ¬kernel.Identifies .recv (arg.toNat % 2 ^ 32))
    (current : Nat) :
    ipcRecv kernel.ipc current (intArg arg) = (kernel.ipc, none, .returned (-1)) := by
  unfold ipcRecv
  split
  next => rfl
  next ep found => exact absurd (activeEndpoint_identified found) invalid

/-- A call whose identifier, the low half of its first argument, is not valid returns -1 and
changes nothing. -/
theorem syscall_rejects_invalid (kernel : Kernel) (cpu : Nat) (num a0 a1 a2 a3 : Word)
    (call : Syscall) (called : syscallOf num = some call)
    (invalid : ¬kernel.Identifies call (a0.toNat % 2 ^ 32)) :
    syscallHandler kernel cpu num a0 a1 a2 a3 = (kernel, .returned (-1)) := by
  unfold syscallHandler
  rw [called]
  cases call with
  | send =>
      simp only [ipcSend_unidentified invalid]
      rfl
  | recv =>
      simp only [ipcRecv_unidentified invalid]
      rfl
  | capCreate =>
      have width : ∀ type : BitVec 32, a0.setWidth 32 = type → a0.toNat % 2 ^ 32 = type.toNat := by
        rintro _ rfl
        rw [BitVec.toNat_setWidth]
      refine if_neg fun type => invalid ?_
      exact type.imp (width capMemory) (width capIo)
  | capDestroy =>
      have missing := capLookup_eq_none.mpr fun inUse => invalid (inUse_identified inUse)
      simp only [capDestroy_unused missing]
      rfl
  | yield | mapPage | debugPrint | exit => exact absurd trivial invalid

def closedKernel : Kernel := ⟨TaskSystem.boot smallTables smallMm, closedEndpoints, capInit noCaps⟩

theorem syscall_rejects_invalid_closed :
    syscallOf 1 = some .send ∧ ¬closedKernel.Identifies .send ((5 : Word).toNat % 2 ^ 32) ∧
      syscallHandler closedKernel 0 1 5 0 0 0 = (closedKernel, .returned (-1)) := by
  have invalid : ¬closedKernel.Identifies .send ((5 : Word).toNat % 2 ^ 32) :=
    fun valid => by cases valid.2
  exact ⟨rfl, invalid, syscall_rejects_invalid closedKernel 0 1 5 0 0 0 .send rfl invalid⟩

/-- The register holds 2 ^ 32, and the call destroys capability 0. -/
theorem capDestroy_accepts_high_half :
    ¬∀ (kernel : Kernel) (cpu : Nat) (num a0 a1 a2 a3 : Word) (call : Syscall),
      syscallOf num = some call → ¬kernel.Identifies call a0.toNat →
        (syscallHandler kernel cpu num a0 a1 a2 a3).2 = .returned (-1) := by
  intro all
  have invalid : ¬{ closedKernel with caps := (capAlloc closedKernel.caps smallCap).1 }.Identifies
      .capDestroy (0x100000000#64).toNat := by
    rintro ⟨index, named, bound, _⟩
    obtain rfl := Int.ofNat.inj named
    exact absurd bound (by decide)
  have rejected := all _ 0 4 0x100000000#64 0 0 0 .capDestroy rfl invalid
  exact absurd rejected (by decide +kernel)

end DragoonKernel
