import DragoonKernel.PageAllocatorCore

/-!
Executable model of the platform devices and drivers of `linux/compat.c`. Strings are without
their terminators, and `probes` records the calls of the probe functions.
-/

namespace DragoonKernel

def maxPlatformDevices : Nat := 8

def maxPlatformDrivers : Nat := 8

/-- A `struct platform_device` at its address. -/
structure PlatformDevice where
  address : Word
  name : List (BitVec 8)
deriving DecidableEq

/-- A `struct platform_driver` at its address. -/
structure PlatformDriver where
  address : Word
  name : List (BitVec 8)
  probe : Word
deriving DecidableEq

structure CompatPlatformDevice where
  name : List (BitVec 8)
  platformDevicePtr : PlatformDevice
  active : Bool

structure CompatPlatformDriver where
  name : List (BitVec 8)
  probe : Word
  active : Bool

structure Platform where
  pdevices : List CompatPlatformDevice
  pdrivers : List CompatPlatformDriver
  probes : List (PlatformDriver × PlatformDevice)

def Platform.boot : Platform := ⟨[], [], []⟩

def Platform.compatRegisterPlatformDevice (platform : Platform) (pdev : PlatformDevice) :
    Platform × Int :=
  if platform.pdevices.length ≥ maxPlatformDevices then (platform, -1)
  else ({ platform with pdevices := platform.pdevices ++ [⟨pdev.name, pdev, true⟩] }, 0)

def streq : List (BitVec 8) → List (BitVec 8) → Bool
  | a :: rest, b :: others => if a ≠ b then false else streq rest others
  | [], [] => true
  | _, _ => false

def Platform.platformDriverRegister (platform : Platform) (drv : PlatformDriver) :
    Platform × Int :=
  if platform.pdrivers.length ≥ maxPlatformDrivers then (platform, -1)
  else
    let d : CompatPlatformDriver := ⟨drv.name, drv.probe, true⟩
    let probes := platform.pdevices.foldl (fun probes device =>
      if device.active && streq device.name d.name then
        probes ++ [(drv, device.platformDevicePtr)]
      else probes) platform.probes
    ({ platform with pdrivers := platform.pdrivers ++ [d], probes := probes }, 0)

inductive Registration where
  | device (pdev : PlatformDevice)
  | driver (drv : PlatformDriver)

def Platform.register (platform : Platform) : Registration → Platform
  | .device pdev => (platform.compatRegisterPlatformDevice pdev).1
  | .driver drv => (platform.platformDriverRegister drv).1

end DragoonKernel
