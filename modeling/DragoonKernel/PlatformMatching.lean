import DragoonKernel.PlatformCore
import Mathlib.Data.List.Perm.Basic

/-!
Which pairs of a driver and a device are probed, and the orders of registration in which none
is missed.
-/

namespace DragoonKernel

def registeredDevices (regs : List Registration) : List PlatformDevice :=
  regs.filterMap fun
    | .device pdev => some pdev
    | .driver _ => none

def registeredDrivers (regs : List Registration) : List PlatformDriver :=
  regs.filterMap fun
    | .device _ => none
    | .driver drv => some drv

/-- Registrations for which the tables have room. -/
structure Registrations where
  list : List Registration
  fewDevices : (registeredDevices list).length ≤ maxPlatformDevices
  fewDrivers : (registeredDrivers list).length ≤ maxPlatformDrivers

/-- A driver with each of the devices of its name. -/
def namesakes (devices : List PlatformDevice) (drv : PlatformDriver) :
    List (PlatformDriver × PlatformDevice) :=
  (devices.filter fun pdev => pdev.name = drv.name).map (drv, ·)

/-- Each driver with each device of its name, once for each registration of the two. -/
def matchingPairs (regs : List Registration) : List (PlatformDriver × PlatformDevice) :=
  (registeredDrivers regs).flatMap (namesakes (registeredDevices regs))

/-- The probes, in whatever order, are the matching pairs. -/
def Platform.ProbesMatches (platform : Platform) (regs : List Registration) : Prop :=
  platform.probes.Perm (matchingPairs regs)

/-- No device comes after a driver of its name. -/
def DevicesFirst : List Registration → Prop
  | [] => True
  | .device _ :: rest => DevicesFirst rest
  | .driver drv :: rest =>
      (∀ pdev ∈ registeredDevices rest, pdev.name ≠ drv.name) ∧ DevicesFirst rest

/-- The pairs of a driver and a device that comes after it. -/
def missedPairs : List Registration → List (PlatformDriver × PlatformDevice)
  | [] => []
  | .device _ :: rest => missedPairs rest
  | .driver drv :: rest => namesakes (registeredDevices rest) drv ++ missedPairs rest

/-- The pairs that are probed when some devices are known already. -/
def probedPairs : List PlatformDevice → List Registration → List (PlatformDriver × PlatformDevice)
  | _, [] => []
  | known, .device pdev :: rest => probedPairs (known ++ [pdev]) rest
  | known, .driver drv :: rest => namesakes known drv ++ probedPairs known rest

theorem streq_iff (a b : List (BitVec 8)) : streq a b = true ↔ a = b := by
  fun_induction streq a b with
  | case1 a rest b others apart => simp [apart]
  | case2 a rest b others same ih =>
      have equal : a = b := not_not.mp same
      rw [ih, equal, List.cons_inj_right]
  | case3 => simp
  | case4 a b notBoth notEmpty =>
      refine iff_of_false Bool.false_ne_true ?_
      rintro rfl
      cases a with
      | nil => exact notEmpty rfl rfl
      | cons c rest => exact notBoth c rest c rest rfl rfl

theorem namesakes_append (first second : List PlatformDevice) (drv : PlatformDriver) :
    namesakes (first ++ second) drv = namesakes first drv ++ namesakes second drv := by
  simp only [namesakes, List.filter_append, List.map_append]

theorem namesakes_eq_nil_iff {devices : List PlatformDevice} {drv : PlatformDriver} :
    namesakes devices drv = [] ↔ ∀ pdev ∈ devices, pdev.name ≠ drv.name := by
  simp only [namesakes, List.map_eq_nil_iff, List.filter_eq_nil_iff, decide_eq_true_eq, ne_eq]

theorem missedPairs_eq_nil_iff {regs : List Registration} :
    missedPairs regs = [] ↔ DevicesFirst regs := by
  induction regs with
  | nil => exact iff_of_true rfl trivial
  | cons reg rest ih =>
      cases reg with
      | device pdev => exact ih
      | driver drv =>
          rw [missedPairs, List.append_eq_nil_iff, namesakes_eq_nil_iff, ih, DevicesFirst]

/-- What is probed and what is missed make up all the matching pairs. -/
theorem probed_missed_perm (known : List PlatformDevice) (regs : List Registration) :
    (probedPairs known regs ++ missedPairs regs).Perm
      ((registeredDrivers regs).flatMap (namesakes (known ++ registeredDevices regs))) := by
  induction regs generalizing known with
  | nil => exact .refl _
  | cons reg rest ih =>
      cases reg with
      | device pdev =>
          have known' : known ++ registeredDevices (.device pdev :: rest) =
              known ++ [pdev] ++ registeredDevices rest :=
            (List.append_assoc known [pdev] (registeredDevices rest)).symm
          rw [known']
          exact ih (known ++ [pdev])
      | driver drv =>
          change ((namesakes known drv ++ probedPairs known rest) ++
            (namesakes (registeredDevices rest) drv ++ missedPairs rest)).Perm
              (namesakes (known ++ registeredDevices rest) drv ++
                (registeredDrivers rest).flatMap (namesakes (known ++ registeredDevices rest)))
          rw [namesakes_append, List.append_assoc, List.append_assoc]
          refine .append_left _ (.trans ?_ (.append_left _ (ih known)))
          rw [← List.append_assoc, ← List.append_assoc]
          exact .append_right _ List.perm_append_comm

variable {platform : Platform}

/-- The devices in the table, in the order of their registration. -/
structure Platform.Knows (platform : Platform) (known : List PlatformDevice) : Prop where
  devices : platform.pdevices = known.map fun pdev => ⟨pdev.name, pdev, true⟩

theorem Platform.Knows.device {known : List PlatformDevice} (knows : platform.Knows known)
    (room : known.length < maxPlatformDevices) (pdev : PlatformDevice) :
    (platform.register (.device pdev)).Knows (known ++ [pdev]) ∧
      (platform.register (.device pdev)).pdrivers = platform.pdrivers ∧
      (platform.register (.device pdev)).probes = platform.probes := by
  have count : ¬platform.pdevices.length ≥ maxPlatformDevices := by
    rw [knows.devices, List.length_map]
    exact Nat.not_le.mpr room
  rw [Platform.register, Platform.compatRegisterPlatformDevice, if_neg count]
  exact ⟨⟨by rw [knows.devices, List.map_append]; rfl⟩, rfl, rfl⟩

theorem foldl_probes (drv : PlatformDriver) (known : List PlatformDevice)
    (probes : List (PlatformDriver × PlatformDevice)) :
    (known.map fun pdev => (⟨pdev.name, pdev, true⟩ : CompatPlatformDevice)).foldl
      (fun probes device => if device.active && streq device.name drv.name then
        probes ++ [(drv, device.platformDevicePtr)] else probes) probes =
      probes ++ namesakes known drv := by
  induction known generalizing probes with
  | nil => exact (List.append_nil probes).symm
  | cons pdev rest ih =>
      rw [List.map_cons, List.foldl_cons, ih]
      by_cases same : pdev.name = drv.name
      · simp [namesakes, same, (streq_iff _ _).mpr]
      · simp [namesakes, same, streq_iff]

theorem Platform.Knows.driver {known : List PlatformDevice} (knows : platform.Knows known)
    (room : platform.pdrivers.length < maxPlatformDrivers) (drv : PlatformDriver) :
    (platform.register (.driver drv)).Knows known ∧
      (platform.register (.driver drv)).pdrivers.length = platform.pdrivers.length + 1 ∧
      (platform.register (.driver drv)).probes = platform.probes ++ namesakes known drv := by
  rw [Platform.register, Platform.platformDriverRegister, if_neg (Nat.not_le.mpr room)]
  refine ⟨⟨knows.devices⟩, List.length_append, ?_⟩
  simp only [knows.devices]
  exact foldl_probes drv known platform.probes

theorem Platform.Knows.run {known : List PlatformDevice} (knows : platform.Knows known)
    {regs : List Registration}
    (fewDevices : known.length + (registeredDevices regs).length ≤ maxPlatformDevices)
    (fewDrivers : platform.pdrivers.length + (registeredDrivers regs).length ≤
      maxPlatformDrivers) :
    (regs.foldl Platform.register platform).probes = platform.probes ++ probedPairs known regs := by
  induction regs generalizing platform known with
  | nil => exact (List.append_nil _).symm
  | cons reg rest ih =>
      rw [List.foldl_cons]
      cases reg with
      | device pdev =>
          change known.length + ((registeredDevices rest).length + 1) ≤ _ at fewDevices
          obtain ⟨later, drivers, probes⟩ := knows.device (by omega) pdev
          rw [ih later (by rw [List.length_append, List.length_singleton]; omega)
            (drivers ▸ fewDrivers), probes]
          rfl
      | driver drv =>
          change platform.pdrivers.length + ((registeredDrivers rest).length + 1) ≤ _ at fewDrivers
          obtain ⟨later, drivers, probes⟩ := knows.driver (by omega) drv
          rw [ih later fewDevices (by omega), probes, List.append_assoc]
          rfl

theorem platform_probes (regs : Registrations) :
    (regs.list.foldl Platform.register .boot).probes = probedPairs [] regs.list := by
  have knows : Platform.boot.Knows [] := ⟨rfl⟩
  have run := knows.run (by simpa using regs.fewDevices)
    (by simpa [Platform.boot] using regs.fewDrivers)
  exact run.trans (List.nil_append _)

theorem platform_probes_missed (regs : Registrations) :
    ((regs.list.foldl Platform.register .boot).probes ++ missedPairs regs.list).Perm
      (matchingPairs regs.list) := by
  rw [platform_probes]
  exact probed_missed_perm [] regs.list

theorem DevicesFirst.probes {regs : Registrations} (first : DevicesFirst regs.list) :
    (regs.list.foldl Platform.register .boot).ProbesMatches regs.list := by
  have all := platform_probes_missed regs
  rwa [missedPairs_eq_nil_iff.mpr first, List.append_nil] at all

theorem platform_probesMatches_iff (regs : Registrations) :
    (regs.list.foldl Platform.register .boot).ProbesMatches regs.list ↔ DevicesFirst regs.list := by
  constructor
  · intro probed
    have lengths := ((platform_probes_missed regs).trans probed.symm).length_eq
    rw [List.length_append] at lengths
    apply missedPairs_eq_nil_iff.mp
    apply List.length_eq_zero_iff.mp
    omega
  · exact DevicesFirst.probes

theorem matchingPairs_perm {regs others : List Registration} (same : regs.Perm others) :
    (matchingPairs regs).Perm (matchingPairs others) := by
  have devices : (registeredDevices regs).Perm (registeredDevices others) := same.filterMap _
  have pairs (drv : PlatformDriver) :
      (namesakes (registeredDevices regs) drv).Perm (namesakes (registeredDevices others) drv) :=
    (devices.filter _).map _
  exact (same.filterMap _).flatMap fun drv _ => pairs drv

/-- Two orders of the same registrations probe the same pairs, if none of them has a device after
a driver of its name. -/
theorem platform_orderIndependent {regs others : Registrations} (same : regs.list.Perm others.list)
    (first : DevicesFirst regs.list) (also : DevicesFirst others.list) :
    (regs.list.foldl Platform.register .boot).probes.Perm
      (others.list.foldl Platform.register .boot).probes :=
  (first.probes.trans (matchingPairs_perm same)).trans also.probes.symm

/-- A driver, and then a device of its name. -/
def driverFirst : Registrations where
  list := [.driver ⟨0x40100000, [104, 105], 0x40080000⟩, .device ⟨0x40100020, [104, 105]⟩]
  fewDevices := by decide
  fewDrivers := by decide

theorem platform_not_probesMatches :
    ¬(driverFirst.list.foldl Platform.register .boot).ProbesMatches driverFirst.list := by
  intro probed
  cases probed.length_eq

end DragoonKernel
