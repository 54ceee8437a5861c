import Libhs.Lib.Heap
import Libhs.HTable
import Libhs.List
import Libhs.HidDescriptor

/-!
# The state of the library

One monitor at a time, its device objects, its registered callbacks, and the
handles opened on devices. Records live in heaps, so a function that follows a
dangling pointer or frees something twice fails. The embedded list nodes are kept
beside the records that contain them: `table.nodes` for `hs_device.hnode`, `links`
for `callback.list`. A record and its node are allocated and freed together.

Three fields are ghost state, which no function of the library reads: `log`,
`views` and `busy`. User code is a function of what it was told so far (`User`).
-/

namespace Libhs
open Pointer

/-! ## Records -/

/-- `hs_device_status`. -/
inductive HsDeviceStatus
  | disconnected
  | online
deriving DecidableEq, Repr

/-- `hs_device_type`. -/
inductive HsDeviceType
  | hid
  | serial
deriving DecidableEq, Repr

/-- The `struct _hs_device_vtable` objects of the back-ends. -/
inductive Vtable
  | posix
  | linuxHid
  | darwinHid
  | win32
deriving DecidableEq, Repr

/-- `struct hs_device`, less its table node. A NULL pointer is `none`; `monitor` is an address. -/
structure HsDevice where
  monitor : Option Nat
  refcount : Nat
  key : Option CStr
  type : HsDeviceType
  vtable : Option Vtable
  state : HsDeviceStatus
  location : Option CStr
  path : Option CStr
  vid : UInt16
  pid : UInt16
  manufacturer : Option CStr
  product : Option CStr
  serial : Option CStr
  iface : UInt8
deriving DecidableEq

/-- A device fresh from `calloc`: all its bytes are zero. -/
def HsDevice.zero : HsDevice where
  monitor := none
  refcount := 0
  key := none
  type := .hid
  vtable := none
  state := .disconnected
  location := none
  path := none
  vid := 0
  pid := 0
  manufacturer := none
  product := none
  serial := none
  iface := 0

/-- `struct callback`, less its list node; `f` stands for the code pointer and its `udata`. -/
structure Callback where
  id : Nat
  f : Nat
deriving DecidableEq, Repr

/-- A pointer to a list node of the callback list: its head in the monitor, or a record. -/
inductive CbRef
  | head
  | record (a : Nat)
deriving DecidableEq, Repr

/-- `struct hs_handle` of the POSIX back-ends. -/
structure HsHandle where
  id : Nat
  dev : Nat
  fd : Int
  hid : HidInfo
deriving DecidableEq, Repr

/-! ## What user code sees -/

/-- The device a callback is handed, with the fields it may look at. -/
structure Notice where
  dev : Nat
  key : Option CStr
  iface : UInt8
  status : HsDeviceStatus
  monitor : Option Nat
deriving DecidableEq

/-- What the library did that matters to its user, in order.

* `notify`: an event callback was called and returned `ret`.
* `visit`, `found`: the callback of `hs_monitor_list`, or that of a plain `hs_enumerate`, was called
  and returned `ret`.
* `receive`: the monitor asked its event queue for the next event.
* `inserted`, `gone`: a device went into the table; it was marked as disconnected.
* `removal`, `removed`: the removal of a key began; it ended.
* `released`: the monitor gave up its devices. -/
inductive Event
  | notify (id : Nat) (n : Notice) (ret : Int)
  | visit (n : Notice) (ret : Int)
  | found (n : Notice) (ret : Int)
  | receive (got : Bool)
  | inserted (dev : Nat) (key : CStr)
  | gone (dev : Nat)
  | removal (key : CStr)
  | removed (key : CStr)
  | released
deriving DecidableEq

/-- `errno` of `open()`. -/
inductive Errno
  | eintr
  | eacces
  | eio
  | enxio
  | enodev
  | enoent
  | enotdir
  | other
deriving DecidableEq, Repr

/-- The answers of the system to one attempt to open a device: `open()` is interrupted `eintr`
times before it gives `fd`, then come the two `ioctl` calls of the hidraw driver. -/
structure OpenOs where
  callocOk : Bool
  eintr : Nat
  fd : Except Errno Nat
  settled : fd ≠ .error .eintr
  descSizeOk : Bool
  desc : Option (List UInt8)

/-- What user code may do with devices. -/
inductive UserAct
  | ref (dev : Nat)
  | unref (dev : Nat)
  | «open» (dev : Nat) (os : OpenOs)
  | close (handle : Nat)

/-- What user code does when it is called: some device operations, then it returns `ret`. -/
structure Reaction where
  acts : List UserAct
  ret : Int

/-- User code: how the callback `f` reacts to a device, given everything logged so far. The user
does not raise a reference counter that stands at `limit - 1`. -/
structure User where
  react : List Event → Nat → Notice → Reaction
  limit : Nat

/-- User code that does not let a 32-bit reference counter run over. -/
def User.careful (react : List Event → Nat → Notice → Reaction) : User := ⟨react, 2 ^ 32⟩

/-- Callbacks that only return a value. -/
def User.returning (ret : List Event → Nat → Notice → Int) : User :=
  .careful fun log f n => ⟨[], ret log f n⟩

/-! ## The state -/

/-- The device objects and who refers to them. `busy` lists the references that library calls in
progress hold. -/
structure Store where
  devs : Heap HsDevice
  table : HTable Nat
  userRefs : Nat → Nat
  handles : List HsHandle
  nextHandle : Nat
  busy : List Nat

/-- What user code could look at when it was called on the device `dev`. -/
structure View where
  log : List Event
  dev : Nat
  store : Store

/-- The whole state. `views` collects what each callback found. -/
structure World extends Store where
  monitor : Option Nat
  monitors : Nat
  links : Links CbRef
  callbackId : Nat
  cbs : Heap Callback
  log : List Event
  views : List View

/-- Nothing was allocated yet. -/
def World.start : World where
  devs := Heap.empty
  table := ⟨0, fun _ => none, fun _ => none⟩
  userRefs _ := 0
  handles := []
  nextHandle := 0
  busy := []
  monitor := none
  monitors := 0
  links _ := none
  callbackId := 0
  cbs := Heap.empty
  log := []
  views := []

namespace World

/-- Write through a device pointer. -/
def setDev (w : World) (d : Nat) (D : HsDevice) : Option World := do
  let devs ← w.devs.set d D
  some { w with devs := devs }

/-- `calloc` of a device object. -/
def allocDev (w : World) (D : HsDevice) : Nat × World :=
  (w.devs.brk, { w with
    devs := (w.devs.alloc D).2
    table := { w.table with
      nodes := Function.update w.table.nodes w.devs.brk (some ⟨none, 0⟩) } })

/-- `free` of a device object. -/
def freeDev (w : World) (d : Nat) : Option World := do
  let devs ← w.devs.free d
  some { w with
    devs := devs
    table := { w.table with nodes := Function.update w.table.nodes d none } }

/-- Append to the log. -/
def emit (w : World) (e : Event) : World := { w with log := w.log ++ [e] }

/-- How many pointers a traversal can follow before it must have gone in circles. -/
def tableFuel (w : World) : Nat := w.devs.brk + 1

def listFuel (w : World) : Nat := w.cbs.brk + 1

end World

/-- What a callback sees of the device `d`. -/
def HsDevice.notice (D : HsDevice) (d : Nat) : Notice :=
  ⟨d, D.key, D.iface, D.state, D.monitor⟩

end Libhs
