import Libhs.Monitor

/-!
# `monitor_win32.c`: enumerating devices

`process_win32_device` and the enumeration of the two device classes. What the
device tree, the registry, the hubs and the allocator answer is input: the helper
functions that walk the tree appear as their results.
-/

namespace Libhs.Win32

/-! ## Reading a device -/

/-- What a helper returns: 1 with a value, 0 when the device is to be ignored, or an error. -/
inductive Outcome (α : Type)
  | found (a : α)
  | ignored
  | failed (err : HsErrorCode)

/-- `if (r <= 0) goto cleanup;` -/
def Outcome.orCleanup {α : Type} : Outcome α → Except Int α
  | .found a => .ok a
  | .ignored => .error 0
  | .failed err => .error (hsError err none)

/-- The `depth` first elements of `ports` in `process_win32_device`. -/
structure Ports where
  list : List UInt8
  nonempty : list ≠ []

/-- The fields that `read_device_properties` writes. -/
structure Properties where
  vid : UInt16
  pid : UInt16
  iface : UInt8
  manufacturer : Option CStr
  product : Option CStr
  serial : Option CStr

/-- What the system answers while a device is read: `deviceId` to `CM_Get_Device_ID`, `comport`,
`ports` and `properties` to the helpers of these names. -/
structure ReadOs where
  callocOk : Bool
  deviceId : Option CStr
  keyOk : Bool
  comport : Outcome CStr
  devicePath : Option CStr
  ports : Outcome Ports
  properties : UInt8 → Outcome Properties
  locationOk : Bool

/-- `strncmp(key, "HID\\", 4) == 0`, and a collection other than the first one. -/
def isExtraCollection (key : CStr) : Bool :=
  (ascii "HID\\").isPrefixOf key.bytes &&
    match strstr (ascii "&COL") key.bytes with
    | some ptr => !(ascii "&COL01\\").isPrefixOf ptr
    | none => false

/-- `find_device_node`: the type and the path. -/
def findDeviceNode (os : ReadOs) (key : CStr) : Except Int (HsDeviceType × CStr) :=
  if (ascii "USB\\").isPrefixOf key.bytes then do
    let path ← os.comport.orCleanup
    return (.serial, path)
  else if (ascii "HID\\").isPrefixOf key.bytes then do
    let path ← someOrReturn (hsError .memory none) os.devicePath
    return (.hid, path)
  else .error 0

/-- `process_win32_device` on the new device. When it returns 0 or less, the device is dropped with
what was filled in so far, so an error keeps the returned value only. -/
def fillWin32Device (os : ReadOs) (id : Option CStr) (dev : HsDevice) : Except Int HsDevice := do
  let key ← someOrReturn 0 (id.or os.deviceId)
  orReturn (hsError .memory none) os.keyOk
  -- HID devices can have multiple collections for each interface
  orReturn 0 (!isExtraCollection key)
  let node ← findDeviceNode os key
  let ports ← os.ports.orCleanup
  let properties ← (os.properties (ports.list.getLast ports.nonempty)).orCleanup
  orReturn (hsError .memory none) os.locationOk
  return { dev with
    key := some key
    type := node.1
    path := some node.2
    vid := properties.vid
    pid := properties.pid
    iface := properties.iface
    manufacturer := properties.manufacturer
    product := properties.product
    serial := properties.serial
    location := some (locationString ports.list)
    vtable := some .win32 }

/-- `process_win32_device`: its result, and `*rdev`. -/
def processWin32Device (os : ReadOs) (id : Option CStr) (w : World) :
    Option ((Int × Option Nat) × World) :=
  if os.callocOk then w.makeDevice (fillWin32Device os id)
  else some ((hsError .memory none, none), w)

/-! ## Enumeration -/

/-- The device interface classes that are enumerated. -/
inductive DeviceClass
  | usb
  | hid
deriving DecidableEq, Repr

/-- `device_classes`. -/
def deviceClasses : List DeviceClass := [.usb, .hid]

/-- One round of the loop of `enumerate_class`; it goes on when the value is 0. -/
def enumerateDevice (f : EnumCallback) (os : ReadOs) : World → Option (Int × World) :=
  handOver (processWin32Device os none) f

/-- The loop of `enumerate_class`. -/
def enumerateSet (f : EnumCallback) : List ReadOs → World → Option (Int × World)
  | [], w => some (0, w)
  | os :: set, w => do
    let (r, w) ← enumerateDevice f os w
    if r ≠ 0 then some (r, w) else enumerateSet f set w

/-- `enumerate_class`; no set stands for a failure of `SetupDiGetClassDevs`. -/
def enumerateClass (f : EnumCallback) (set : Option (List ReadOs)) (w : World) :
    Option (Int × World) :=
  match set with
  | none => some (hsError .system (some "SetupDiGetClassDevs() failed: %s"), w)
  | some set => enumerateSet f set w

/-- What the system answers to an enumeration; `controllers` is the error `populate_controllers`
fails with. -/
structure EnumOs where
  controllers : Option HsErrorCode
  set : DeviceClass → Option (List ReadOs)

/-- The loop of `hs_enumerate`. -/
def enumerateClasses (f : EnumCallback) (os : EnumOs) : List DeviceClass → World →
    Option (Int × World)
  | [], w => some (0, w)
  | c :: classes, w => do
    let (r, w) ← enumerateClass f (os.set c) w
    if r ≠ 0 then some (r, w) else enumerateClasses f os classes w

/-- `hs_enumerate`. -/
def hsEnumerate (f : EnumCallback) (os : EnumOs) (w : World) : Option (Int × World) :=
  match os.controllers with
  | some err => some (hsError err none, w)
  | none => enumerateClasses f os deviceClasses w

end Libhs.Win32
