import Libhs.Monitor
import Mathlib.Data.Nat.Digits.Lemmas

/-!
# `monitor_darwin.c`: enumerating devices

`process_darwin_device` and the enumeration of the two service classes. What the
registry of IOKit and the allocator answer is input: the helper functions that read
a property or walk up the registry appear as their results.
-/

namespace Libhs.Darwin

/-! ## Keys -/

/-- A digit of `%x`. -/
def hexDigit (d : Nat) : UInt8 := UInt8.ofNat (if d < 10 then 0x30 + d else 0x57 + d)

/-- `%x`. -/
def hexadecimal (n : Nat) : List UInt8 :=
  if n = 0 then [0x30] else ((Nat.digits 16 n).map hexDigit).reverse

theorem hexDigit_ne_zero {d : Nat} (hd : d < 16) : hexDigit d ≠ 0 := by
  have hall : ∀ k : Fin 16, hexDigit k.val ≠ 0 := by decide
  exact hall ⟨d, hd⟩

theorem hexadecimal_noNul (n : Nat) : (0 : UInt8) ∉ hexadecimal n := by
  unfold hexadecimal
  split
  · decide
  · intro hm
    obtain ⟨d, hd, h⟩ := List.mem_map.mp (List.mem_reverse.mp hm)
    exact hexDigit_ne_zero (Nat.digits_lt_base (by decide) hd) h

/-- `%"PRIx64"` of a session, the key of a device. -/
def sessionKey (session : UInt64) : CStr :=
  ⟨hexadecimal session.toNat, hexadecimal_noNul session.toNat⟩

/-- The key that `snprintf` leaves in a `char key[16]`. -/
def removalKey (session : UInt64) : CStr where
  bytes := (hexadecimal session.toNat).take 15
  noNul := fun hm => hexadecimal_noNul session.toNat (List.mem_of_mem_take hm)

/-- A key of up to 15 digits is not cut. -/
theorem removalKey_eq {session : UInt64} (h : session.toNat < 2 ^ 60) :
    removalKey session = sessionKey session := by
  have hlen : (hexadecimal session.toNat).length ≤ 15 := by
    unfold hexadecimal
    split
    · decide
    · rw [List.length_reverse, List.length_map]
      exact (Nat.digits_length_le_iff (by decide) _).mpr h
  unfold removalKey sessionKey
  congr 1
  exact List.take_of_length_le hlen

/-- The value of a digit of `%x`. -/
def hexValue (b : UInt8) : Nat := if b < 0x3A then b.toNat - 0x30 else b.toNat - 0x57

theorem hexValue_hexDigit {d : Nat} (hd : d < 16) : hexValue (hexDigit d) = d := by
  have hall : ∀ k : Fin 16, hexValue (hexDigit k.val) = k.val := by decide
  exact hall ⟨d, hd⟩

/-- The digits tell the number. -/
theorem ofDigits_hexadecimal (n : Nat) :
    Nat.ofDigits 16 ((hexadecimal n).reverse.map hexValue) = n := by
  unfold hexadecimal
  split
  next hn =>
    rw [hn]
    decide
  next hn =>
    have hmap : (Nat.digits 16 n).map (hexValue ∘ hexDigit) = (Nat.digits 16 n).map id :=
      List.map_congr_left fun d hd => hexValue_hexDigit (Nat.digits_lt_base (by decide) hd)
    rw [List.reverse_reverse, List.map_map, hmap, List.map_id, Nat.ofDigits_digits]

theorem sessionKey_inj {s t : UInt64} (h : sessionKey s = sessionKey t) : s = t := by
  have hb : hexadecimal s.toNat = hexadecimal t.toNat := congrArg CStr.bytes h
  refine UInt64.toNat_inj.mp ?_
  rw [← ofDigits_hexadecimal s.toNat, hb, ofDigits_hexadecimal]

/-! ## Reading a device -/

/-- What `get_ioregistry_value_string` returns: 1 with a string, 0 without one, or an error. -/
abbrev StringProperty := Except HsErrorCode (Option CStr)

/-- The class of a service, with the answer to the property its path comes from. -/
inductive Node
  | serial (calloutDevice : StringProperty)
  | hid (path : Except HsErrorCode CStr)
  | other

/-- What the system answers while a device is read: whether the parents are found, the properties
of these names, the `ports` on the way up to a controller with its index, or 0, and the
allocations. A number has the width of its USB descriptor. -/
structure ReadOs where
  iface : Bool
  device : Bool
  callocOk : Bool
  sessionID : Option UInt64
  idVendor : Option UInt16
  idProduct : Option UInt16
  interfaceNumber : Option UInt8
  keyOk : Bool
  vendorName : StringProperty
  productName : StringProperty
  serialNumber : StringProperty
  ports : List UInt8
  controller : UInt8
  locationOk : Bool
  node : Node

/-- `GET_PROPERTY_STRING`, which leaves a missing string NULL. -/
def getPropertyString : StringProperty → Except Int (Option CStr)
  | .ok s => .ok s
  | .error err => .error (hsError err none)

/-- `resolve_device_location`. -/
def resolveDeviceLocation (os : ReadOs) : Except Int CStr := do
  orReturn 0 (os.ports.length < 16)
  orReturn 0 (os.ports ≠ [])
  orReturn 0 (os.controller ≠ 0)
  orReturn (hsError .memory none) os.locationOk
  return locationString (os.controller :: os.ports.reverse)

/-- `find_device_node`: the type, the driver and the path. -/
def findDeviceNode : Node → Except Int (HsDeviceType × Vtable × CStr)
  | .serial calloutDevice => do
    let path ← getPropertyString calloutDevice
    let path ← someOrReturn 0 path
    return (.serial, .posix, path)
  | .hid (.ok path) => .ok (.hid, .darwinHid, path)
  | .hid (.error err) => .error (hsError err none)
  | .other => .error 0

/-- `process_darwin_device` on the new device. When it returns 0 or less, the device is dropped with
what was filled in so far, so an error keeps the returned value only. -/
def fillDarwinDevice (os : ReadOs) (dev : HsDevice) : Except Int HsDevice := do
  let session ← someOrReturn 0 os.sessionID
  let vid ← someOrReturn 0 os.idVendor
  let pid ← someOrReturn 0 os.idProduct
  let iface ← someOrReturn 0 os.interfaceNumber
  orReturn (hsError .memory none) os.keyOk
  let manufacturer ← getPropertyString os.vendorName
  let product ← getPropertyString os.productName
  let serial ← getPropertyString os.serialNumber
  let location ← resolveDeviceLocation os
  let node ← findDeviceNode os.node
  return { dev with
    vid := vid
    pid := pid
    iface := iface
    key := some (sessionKey session)
    manufacturer := manufacturer
    product := product
    serial := serial
    location := some location
    type := node.1
    vtable := some node.2.1
    path := some node.2.2 }

/-- `process_darwin_device`: its result, and `*rdev`. -/
def processDarwinDevice (os : ReadOs) (w : World) : Option ((Int × Option Nat) × World) :=
  if os.iface && os.device then
    if os.callocOk then w.makeDevice (fillDarwinDevice os)
    else some ((hsError .memory none, none), w)
  else some ((0, none), w)

/-! ## Enumeration -/

/-- The service classes that are enumerated. -/
inductive DeviceClass
  | hid
  | serial
deriving DecidableEq, Repr

/-- `device_classes`. -/
def deviceClasses : List DeviceClass := [.hid, .serial]

/-- `process_iterator_devices` on one service; it goes on when the value is 0. -/
def processService (f : EnumCallback) (os : ReadOs) : World → Option (Int × World) :=
  handOver (processDarwinDevice os) f

/-- `process_iterator_devices` on an iterator that holds the given services. -/
def processIteratorDevices (f : EnumCallback) : List ReadOs → World → Option (Int × World)
  | [], w => some (0, w)
  | os :: it, w => do
    let (r, w) ← processService f os w
    if r ≠ 0 then some (r, w) else processIteratorDevices f it w

/-- What the system answers to an enumeration; `controllers` is the error `populate_controllers`
fails with, and no iterator stands for a failure of `IOServiceGetMatchingServices`. -/
structure EnumOs where
  controllers : Option HsErrorCode
  matching : DeviceClass → Option (List ReadOs)

/-- The loop of `hs_enumerate`. -/
def enumerateClasses (f : EnumCallback) (os : EnumOs) : List DeviceClass → World →
    Option (Int × World)
  | [], w => some (0, w)
  | c :: classes, w =>
    match os.matching c with
    | none => some (hsError .system (some "IOServiceGetMatchingServices('%s') failed"), w)
    | some it => do
      let (r, w) ← processIteratorDevices f it w
      if r ≠ 0 then some (r, w) else enumerateClasses f os classes w

/-- `hs_enumerate`. -/
def hsEnumerate (f : EnumCallback) (os : EnumOs) (w : World) : Option (Int × World) :=
  match os.controllers with
  | some err => some (hsError err none, w)
  | none => enumerateClasses f os deviceClasses w

end Libhs.Darwin
