import Libhs.Monitor

/-!
# `monitor_linux.c`: the udev back-end

How devices are read from udev, enumerated, and how the monitor follows the event
queue of udev. What udev, `access()` and the allocator answer is input. A received
event is a udev device with its action; `hsMonitorRefresh` returns the events it
left in the queue.
-/

namespace Libhs
open Pointer

/-! ## Strings -/

/-- Replace each `.` of a location by `-`. -/
def CStr.dotsToDashes (s : CStr) : CStr where
  bytes := s.bytes.map fun b => if b = 0x2E then 0x2D else b
  noNul := by
    intro hm
    obtain ⟨b, hb, h⟩ := List.mem_map.mp hm
    split at h
    · exact absurd h (by decide)
    · subst h
      exact s.noNul hb

/-- `isspace` in the C locale. -/
def isSpace (b : UInt8) : Bool := b = 0x20 ∨ (0x09 ≤ b ∧ b ≤ 0x0D)

/-- The value of a digit or a letter, as `strtoul` counts. -/
def digitValue (b : UInt8) : Nat :=
  if 0x30 ≤ b ∧ b ≤ 0x39 then b.toNat - 0x30
  else if 0x61 ≤ b ∧ b ≤ 0x7A then b.toNat - 0x61 + 10
  else if 0x41 ≤ b ∧ b ≤ 0x5A then b.toNat - 0x41 + 10
  else 36

def isDigit (base : Nat) (b : UInt8) : Bool := digitValue b < base

/-- The optional `0x` of a hexadecimal number. -/
def skipHexPrefix (base : Nat) : List UInt8 → List UInt8
  | z :: x :: d :: s =>
    if base = 16 ∧ z = 0x30 ∧ (x = 0x78 ∨ x = 0x58) ∧ isDigit 16 d then d :: s else z :: x :: d :: s
  | s => s

/-- `strtoul(s, NULL, base)` with a 64-bit `unsigned long`: the value, and whether `errno` is set. -/
def strtoul (s : List UInt8) (base : Nat) : Nat × Bool :=
  let s := s.dropWhile isSpace
  let neg := s.head? = some 0x2D
  let s := if neg ∨ s.head? = some 0x2B then s.tail else s
  let digits := (skipHexPrefix base s).takeWhile (isDigit base)
  let v := digits.foldl (fun v b => v * base + digitValue b) 0
  if 2 ^ 64 ≤ v then (2 ^ 64 - 1, true)
  else if neg then ((2 ^ 64 - v) % 2 ^ 64, false)
  else (v, false)

/-! ## udev devices -/

/-- The attributes of a `usb_device` that the library asks for. -/
structure UsbAttrs where
  busnum : Option CStr
  devpath : Option CStr
  idVendor : Option CStr
  idProduct : Option CStr
  manufacturer : Option CStr
  product : Option CStr
  serial : Option CStr

/-- The path of a device under `/sys`, which is never empty. -/
structure Devpath where
  str : CStr
  nonempty : str.bytes ≠ []

/-- A `udev_device`, with the parents the library looks for. `accessOk` is the answer of `access()`
for its device node. -/
structure UdevDevice where
  action : CStr
  devpath : CStr
  subsystem : Option CStr
  devnode : Option CStr
  accessOk : Bool
  usb : Option UsbAttrs
  iface : Option Devpath

/-- `struct udev_aggregate`. -/
structure UdevAggregate where
  dev : UdevDevice
  usb : UsbAttrs
  iface : Devpath

/-- Which allocations succeed while a device is read. -/
structure ReadOs where
  callocOk : Bool
  pathOk : Bool
  keyOk : Bool
  locationOk : Bool
  manufacturerOk : Bool
  productOk : Bool
  serialOk : Bool

def ReadOs.ok : ReadOs := ⟨true, true, true, true, true, true, true⟩

/-! ## Reading a device -/

/-- `compute_device_location`; an error is the value it returns without a location. -/
def computeDeviceLocation (os : ReadOs) (dev : UsbAttrs) : Except Int CStr := do
  let busnum ← someOrReturn 0 dev.busnum
  let devpath ← someOrReturn 0 dev.devpath
  orReturn (hsError .memory none) os.locationOk
  return (((CStr.lit "usb-").append (busnum.append ((CStr.lit "-").append devpath))).dotsToDashes)

/-- `strdup` of an attribute that may be missing. -/
def strdupAttr (ok : Bool) : Option CStr → Except Int (Option CStr)
  | none => .ok none
  | some buf => if ok then .ok (some buf) else .error (hsError .memory none)

/-- `strtoul` of a string in which an overflow makes the device useless. -/
def numberOrSkip (s : List UInt8) (base : Nat) : Except Int Nat :=
  let (v, err) := strtoul s base
  if err then .error 0 else .ok v

/-- The type and the driver of a subsystem, if the library handles it. -/
def driverOf (subsystem : CStr) : Option (HsDeviceType × Vtable) :=
  if subsystem.is "hidraw" then some (.hid, .linuxHid)
  else if subsystem.is "tty" then some (.serial, .posix)
  else none

/-- `fill_device_details`. When it returns 0 or less, the caller drops the device with what was
filled in so far, so an error keeps the returned value only. -/
def fillDeviceDetails (os : ReadOs) (dev : HsDevice) (agg : UdevAggregate) : Except Int HsDevice := do
  let subsystem ← someOrReturn 0 agg.dev.subsystem
  let driver ← someOrReturn 0 (driverOf subsystem)
  let devnode ← someOrReturn 0 agg.dev.devnode
  orReturn 0 agg.dev.accessOk
  orReturn (hsError .memory none) os.pathOk
  orReturn (hsError .memory none) os.keyOk
  let location ← computeDeviceLocation os agg.usb
  let idVendor ← someOrReturn 0 agg.usb.idVendor
  let vid ← numberOrSkip idVendor.bytes 16
  let idProduct ← someOrReturn 0 agg.usb.idProduct
  let pid ← numberOrSkip idProduct.bytes 16
  let manufacturer ← strdupAttr os.manufacturerOk agg.usb.manufacturer
  let product ← strdupAttr os.productOk agg.usb.product
  let serial ← strdupAttr os.serialOk agg.usb.serial
  -- only the last character of the path is read as the interface number
  let iface ← numberOrSkip [agg.iface.str.bytes.getLast agg.iface.nonempty] 10
  return { dev with
    type := driver.1
    vtable := some driver.2
    path := some devnode
    key := some agg.dev.devpath
    location := some location
    vid := UInt16.ofNat vid
    pid := UInt16.ofNat pid
    manufacturer := manufacturer
    product := product
    serial := serial
    iface := UInt8.ofNat iface }

/-- `read_device_information`: its result, and `*rdev`. -/
def readDeviceInformation (os : ReadOs) (udevDev : UdevDevice) (w : World) :
    Option ((Int × Option Nat) × World) :=
  match udevDev.usb, udevDev.iface with
  | some usb, some iface =>
    if os.callocOk then w.makeDevice fun dev => fillDeviceDetails os dev ⟨udevDev, usb, iface⟩
    else some ((hsError .memory none, none), w)
  | _, _ => some ((0, none), w)

/-! ## Enumeration -/

/-- One entry of the udev list: `udev_device_new_from_syspath` fails, with or without `ENOMEM`, or
gives a device. -/
inductive EnumEntry
  | nomem
  | gone
  | device (dev : UdevDevice) (os : ReadOs)

/-- What udev answers to an enumeration. -/
structure EnumOs where
  udevOk : Bool
  newOk : Bool
  matchOk : Bool
  scanOk : Bool
  entries : List EnumEntry

/-- `init_udev`; `udevOk` says whether there is a udev context, old or new. -/
def initUdev (udevOk : Bool) : Int :=
  if udevOk then 0 else hsError .system (some "udev_new() failed")

/-- The loop of `hs_enumerate`. -/
def enumerateLoop (f : EnumCallback) : List EnumEntry → World → Option (Int × World)
  | [], w => some (0, w)
  | .nomem :: _, w => some (hsError .memory none, w)
  | .gone :: es, w => enumerateLoop f es w
  | .device udevDev os :: es, w => do
    let ((r, dev), w) ← readDeviceInformation os udevDev w
    if r < 0 then some (r, w)
    else if r = 0 then enumerateLoop f es w
    else do
      let d ← dev
      let (r, w) ← f d w
      let w ← w.unrefBusy (some d)
      if r ≠ 0 then some (r, w) else enumerateLoop f es w

/-- `hs_enumerate`. -/
def hsEnumerate (f : EnumCallback) (os : EnumOs) (w : World) : Option (Int × World) :=
  let r := initUdev os.udevOk
  if r < 0 then some (r, w)
  else if !os.newOk then some (hsError .memory none, w)
  else if !os.matchOk then some (hsError .memory none, w)
  else if !os.scanOk then some (hsError .system (some "udev_enumerate_scan_devices() failed"), w)
  else enumerateLoop f os.entries w

/-! ## The monitor -/

/-- `hs_monitor_free`. -/
def hsMonitorFree (w : World) : Option World :=
  match w.monitor with
  | none => some w
  | some _ => do
    let w ← hsMonitorRelease w
    some w.freeMonitor

/-- What the system answers while a monitor is made. -/
structure NewOs where
  udevOk : Bool
  callocOk : Bool
  netlinkOk : Bool
  filterOk : Bool
  receivingOk : Bool
  mallocOk : Bool
  enumerate : EnumOs

/-- `hs_monitor_new`, when there is no monitor yet: `*rmonitor` is the monitor of the new world. -/
def hsMonitorNew (u : User) (os : NewOs) (w : World) : Option (Int × World) :=
  let error (r : Int) (w : World) : Option (Int × World) := do
    let w ← hsMonitorFree w
    some (r, w)
  let r := initUdev os.udevOk
  if r < 0 then error r w
  else if !os.callocOk then error (hsError .memory none) w
  else
    let w := w.allocMonitor
    if !os.netlinkOk then
      error (hsError .system (some "udev_monitor_new_from_netlink() failed")) w
    else if !os.filterOk then
      error (hsError .system
        (some "udev_monitor_filter_add_match_subsystem_devtype() failed")) w
    else if !os.receivingOk then
      error (hsError .system (some "udev_monitor_enable_receiving() failed")) w
    else do
      let (r, w) ← hsMonitorInit w os.mallocOk
      if r < 0 then error r w
      else do
        let (r, w) ← hsEnumerate (monitorEnumerateCallback u) os.enumerate w
        if r < 0 then error r w else some (0, w)

/-- What `hs_monitor_refresh` does with one event. -/
def refreshOne (u : User) (udevDev : UdevDevice) (os : ReadOs) (w : World) : Option (Int × World) :=
  if udevDev.action.is "add" then do
    let ((r, dev), w) ← readDeviceInformation os udevDev w
    let (r, w) ←
      if r > 0 then do
        let d ← dev
        hsMonitorAdd u w d
      else some (r, w)
    let w ← w.unrefBusy dev
    some (r, w)
  else if udevDev.action.is "remove" then do
    let w ← hsMonitorRemove u w udevDev.devpath
    some (0, w)
  else some (0, w)

/-- `hs_monitor_refresh` on the events of the queue: the value it returns, and what is left. `nomem`
says that the `receive` behind the last event failed with `ENOMEM`. -/
def hsMonitorRefresh (u : User) : List (UdevDevice × ReadOs) → Bool → World →
    Option ((Int × List (UdevDevice × ReadOs)) × World)
  | [], nomem, w =>
    some ((if nomem then hsError .memory none else 0, []), w.emit (.receive false))
  | (udevDev, os) :: queue, nomem, w => do
    let (r, w) ← refreshOne u udevDev os (w.emit (.receive true))
    if r < 0 then some ((r, queue), w) else hsMonitorRefresh u queue nomem w

end Libhs
