import Libhs.LinuxSpec

/-!
# Linux interface numbers

The kernel names a USB interface after its device, the active configuration and the
interface number: `<parent>:<configuration>.<interface>`. `fill_device_details` reads
the last character of that path only, so it keeps the last digit of the number.
-/

namespace Libhs

/-! ## The kernel's naming -/

theorem repr_noNul (c : Nat) : (0 : UInt8) ∉ ascii c.repr := by
  intro hm
  obtain ⟨d, hd, hz⟩ := List.mem_map.mp hm
  rw [Nat.toList_repr] at hd
  have hten : 10 ≤ 10 := Nat.le_refl 10
  have hdigit := Char.isDigit_iff_toNat.mp (Nat.isDigit_of_mem_toDigits (by decide) hten hd)
  have hlow : '0'.toNat = 48 := rfl
  have hhigh : '9'.toNat = 57 := rfl
  have hzero : d.toNat % 256 = 0 := congrArg UInt8.toNat hz
  omega

/-- The devpath of interface `n` in configuration `c` of the device at `parent`. -/
def interfacePath (parent : CStr) (c : Nat) (n : UInt8) : Devpath where
  str := {
    bytes := parent.bytes ++ ascii ":" ++ ascii c.repr ++ ascii "." ++ decimal n
    noNul := by
      have hcolon : (0 : UInt8) ∉ ascii ":" := by decide
      have hdot : (0 : UInt8) ∉ ascii "." := by decide
      simp only [List.mem_append, not_or]
      exact ⟨⟨⟨⟨parent.noNul, hcolon⟩, repr_noNul c⟩, hdot⟩, decimal_noNul n⟩ }
  nonempty := by simp [ascii]

/-! ## What is read back -/

theorem decimal_ne_nil : ∀ n : UInt8, decimal n ≠ [] :=
  forall_uint8 (by decide +kernel)

theorem decimal_last : ∀ n : UInt8, (decimal n).getLast? = some (0x30 + n % 10) :=
  forall_uint8 (by decide +kernel)

theorem strtoul_digit : ∀ n : UInt8, (strtoul [0x30 + n % 10] 10).1 = (n % 10).toNat :=
  forall_uint8 (by decide +kernel)

theorem mod_ten_eq_self : ∀ n : UInt8, n % 10 = n ↔ n ≤ 9 :=
  forall_uint8 (by decide +kernel)

theorem interfacePath_last (parent : CStr) (c : Nat) (n : UInt8) :
    (interfacePath parent c n).str.bytes.getLast (interfacePath parent c n).nonempty =
      0x30 + n % 10 := by
  have h := decimal_last n
  rw [List.getLast?_eq_some_getLast (decimal_ne_nil n)] at h
  have hlast := Option.some.inj h
  simp only [interfacePath]
  rwa [List.getLast_append_of_ne_nil _ (decimal_ne_nil n)]

variable {os os' : ReadOs} {dev dev' D D' : HsDevice} {agg agg' : UdevAggregate} {parent : CStr}
  {c : Nat} {n n' : UInt8}

/-- The stored interface number is the last digit of the kernel's. -/
theorem fillDeviceDetails_iface (hpath : agg.iface = interfacePath parent c n)
    (h : fillDeviceDetails os dev agg = .ok D) : D.iface = n % 10 := by
  have hfilled : FilledFrom dev agg D := by
    have hy := fillDeviceDetails_fills os dev agg
    rwa [h] at hy
  have hiface := hfilled.iface
  simp only [hpath] at hiface
  rw [hiface, interfacePath_last, strtoul_digit, UInt8.ofNat_toNat]

/-- Two interfaces of one device keep their numbers exactly when both have one digit, and can be
told apart exactly when the last digits differ. -/
theorem interface_numbers (hpath : agg.iface = interfacePath parent c n)
    (hpath' : agg'.iface = interfacePath parent c n')
    (h : fillDeviceDetails os dev agg = .ok D) (h' : fillDeviceDetails os' dev' agg' = .ok D') :
    (D.iface = n ↔ n ≤ 9) ∧
      (D.iface = n ∧ D'.iface = n' ↔ n ≤ 9 ∧ n' ≤ 9) ∧
      ((n ≠ n' → D.iface ≠ D'.iface) ↔ n = n' ∨ n % 10 ≠ n' % 10) := by
  rw [fillDeviceDetails_iface hpath h, fillDeviceDetails_iface hpath' h', mod_ten_eq_self,
    mod_ten_eq_self]
  refine ⟨Iff.rfl, Iff.rfl, ?_⟩
  rw [or_iff_not_imp_left]

/-! ## A device with thirteen interfaces -/

/-- A HID interface of the device at `3-4`, whose node can be accessed. -/
def hidInterface (n : UInt8) : UdevAggregate where
  dev := {
    action := CStr.lit "bind"
    devpath := CStr.lit "/devices/usb3/3-4/hidraw/hidraw0"
    subsystem := some (CStr.lit "hidraw")
    devnode := some (CStr.lit "/dev/hidraw0")
    accessOk := true
    usb := none
    iface := none }
  usb := {
    busnum := some (CStr.lit "3")
    devpath := some (CStr.lit "4")
    idVendor := some (CStr.lit "046d")
    idProduct := some (CStr.lit "c52b")
    manufacturer := none
    product := none
    serial := none }
  iface := interfacePath (CStr.lit "/devices/usb3/3-4") 1 n

/-- Interfaces 2 and 12 of one device are both read as interface 2. -/
theorem interface_numbers_collide :
    ∃ D D', fillDeviceDetails .ok blankDevice (hidInterface 2) = .ok D ∧
      fillDeviceDetails .ok blankDevice (hidInterface 12) = .ok D' ∧
      (hidInterface 2).iface = interfacePath (CStr.lit "/devices/usb3/3-4") 1 2 ∧
      (hidInterface 12).iface = interfacePath (CStr.lit "/devices/usb3/3-4") 1 12 ∧
      D.iface = 2 ∧ D'.iface = 2 :=
  ⟨_, _, rfl, rfl, rfl, rfl, rfl, rfl⟩

theorem interface_numbers_two_twelve :
    ∃ D D', fillDeviceDetails .ok blankDevice (hidInterface 2) = .ok D ∧
      fillDeviceDetails .ok blankDevice (hidInterface 12) = .ok D' ∧
      (D.iface = 2 ↔ (2 : UInt8) ≤ 9) ∧
      (D.iface = 2 ∧ D'.iface = 12 ↔ (2 : UInt8) ≤ 9 ∧ (12 : UInt8) ≤ 9) ∧
      (((2 : UInt8) ≠ 12 → D.iface ≠ D'.iface) ↔
        (2 : UInt8) = 12 ∨ (2 : UInt8) % 10 ≠ 12 % 10) := by
  have hpath (n : UInt8) :
      (hidInterface n).iface = interfacePath (CStr.lit "/devices/usb3/3-4") 1 n := rfl
  obtain ⟨D, hD⟩ : ∃ D, fillDeviceDetails .ok blankDevice (hidInterface 2) = .ok D := ⟨_, rfl⟩
  obtain ⟨D', hD'⟩ : ∃ D, fillDeviceDetails .ok blankDevice (hidInterface 12) = .ok D := ⟨_, rfl⟩
  exact ⟨D, D', hD, hD', interface_numbers (hpath 2) (hpath 12) hD hD'⟩

end Libhs
