import Libhs.World

/-!
# `device.c`, `device_posix.c` and `hid_linux.c`: references and handles

Reference counting of device objects, and opening and closing handles with the
drivers of the POSIX back-ends. `userAct` is what a user does with devices, with
the rule of the API that only references the user holds are dropped.
-/

namespace Libhs
open Pointer

/-- `refcount` is an `unsigned int`. -/
def uintMod : Nat := 2 ^ 32

/-! ## Reference counting -/

/-- `hs_device_ref`. -/
def hsDeviceRef (w : World) (d : Nat) : Option World := do
  let D ← w.devs.get d
  w.setDev d { D with refcount := (D.refcount + 1) % uintMod }

/-- `hs_device_unref`; `none` is the NULL pointer. -/
def hsDeviceUnref (w : World) : Option Nat → Option World
  | none => some w
  | some d => do
    let D ← w.devs.get d
    if D.refcount > 1 then
      w.setDev d { D with refcount := D.refcount - 1 }
    else
      w.freeDev d

/-- A library call drops the reference it holds to `d`, which may be NULL. -/
def World.unrefBusy (w : World) (d : Option Nat) : Option World := do
  let w ← hsDeviceUnref w d
  some { w with busy := match d with | none => w.busy | some d => w.busy.erase d }

/-! ## New devices -/

/-- The device that every back-end starts from. -/
def blankDevice : HsDevice := { HsDevice.zero with refcount := 1 }

/-- How the back-ends make a device: from `calloc`, filled in by `fill`, and dropped by the
`goto cleanup` of a failure. The value to return, and the device to hand back. -/
def World.makeDevice (w : World) (fill : HsDevice → Except Int HsDevice) :
    Option ((Int × Option Nat) × World) :=
  let (d, w) := w.allocDev blankDevice
  let w := { w with busy := d :: w.busy }
  match fill blankDevice with
  | .ok dev => do
    let w ← w.setDev d dev
    some ((1, some d), w)
  | .error r => do
    let w ← w.unrefBusy (some d)
    some ((r, none), w)

/-! ## Handles -/

/-- The `switch (errno)` of the open functions. -/
def openError : Errno → Int
  | .eacces => hsError .access (some "Permission denied for device '%s'")
  | .eio | .enxio | .enodev => hsError .io (some "I/O error while opening device '%s'")
  | .enoent | .enotdir => hsError .notFound (some "Device '%s' not found")
  | .eintr | .other => hsError .system (some "open('%s') failed: %s")

/-- `restart: h->fd = open(…)`, with `goto restart` on `EINTR`. -/
def openRestart (fd : Except Errno Nat) : Nat → Except Errno Nat
  | 0 => fd
  | n + 1 => openRestart fd n

/-- `calloc` of a handle that refers to the device `d`. -/
def World.allocHandle (w : World) (d : Nat) : HsHandle × World :=
  let h : HsHandle := ⟨w.nextHandle, d, 0, HidInfo.zero⟩
  (h, { w with handles := h :: w.handles, nextHandle := w.nextHandle + 1 })

/-- Write to the fields of an open handle. -/
def World.setHandle (w : World) (h : HsHandle) : World :=
  { w with handles := w.handles.map fun g => if g.id = h.id then h else g }

/-- `free` of a handle. -/
def World.freeHandle (w : World) (h : HsHandle) : World :=
  { w with handles := w.handles.filter fun g => g.id ≠ h.id }

/-- `close_posix_device`. -/
def closePosixDevice (w : World) (h : HsHandle) : Option World := do
  let w ← hsDeviceUnref w (some h.dev)
  some (w.freeHandle h)

/-- `close_hidraw_device`. -/
def closeHidrawDevice (w : World) (h : HsHandle) : Option World := do
  let w ← hsDeviceUnref w (some h.dev)
  some (w.freeHandle h)

/-- `hs_handle_close`, dispatching through the vtable of the handle's device. -/
def hsHandleClose (w : World) (handle : Option Nat) : Option World :=
  match handle with
  | none => some w
  | some id => do
    let h ← w.handles.find? fun g => g.id = id
    let D ← w.devs.get h.dev
    let vtable ← D.vtable
    match vtable with
    | .posix => closePosixDevice w h
    | .linuxHid => closeHidrawDevice w h
    | .darwinHid | .win32 => none

/-- What an open function hands back: its result, and `*rh` when it was written. -/
structure Opened where
  r : Int
  rh : Option Nat
deriving DecidableEq, Repr

/-- `open_posix_device`. -/
def openPosixDevice (os : OpenOs) (w : World) (d : Nat) : Option (Opened × World) :=
  if os.callocOk then do
    let w ← hsDeviceRef w d
    let (h, w) := w.allocHandle d
    match openRestart os.fd os.eintr with
    | .error e => do
      let r := openError e
      let w ← hsHandleClose w (some h.id)
      some (⟨r, none⟩, w)
    | .ok fd => some (⟨0, some h.id⟩, w.setHandle { h with fd := fd })
  else
    -- `goto error` with a NULL handle
    some (⟨hsError .memory none, none⟩, w)

/-- `open_hidraw_device`. -/
def openHidrawDevice (os : OpenOs) (w : World) (d : Nat) : Option (Opened × World) :=
  if os.callocOk then do
    let w ← hsDeviceRef w d
    let (h, w) := w.allocHandle d
    let error (r : Int) : Option (Opened × World) := do
      let w ← hsHandleClose w (some h.id)
      some (⟨r, none⟩, w)
    match openRestart os.fd os.eintr with
    | .error e => error (openError e)
    | .ok fd =>
      if os.descSizeOk then
        match os.desc with
        | some report => do
          let hid ← parseDescriptor h.hid report
          some (⟨0, some h.id⟩, w.setHandle { h with fd := fd, hid := hid })
        | none => error (hsError .system (some "ioctl('%s', HIDIOCGRDESC) failed: %s"))
      else
        error (hsError .system (some "ioctl('%s', HIDIOCGRDESCSIZE) failed: %s"))
  else
    some (⟨hsError .memory none, none⟩, w)

/-- The open functions of the back-ends. -/
abbrev Drivers := Vtable → OpenOs → World → Nat → Option (Opened × World)

/-- `hs_device_open`, with the vtables of all back-ends as a parameter. -/
def hsDeviceOpenWith (drivers : Drivers) (os : OpenOs) (w : World) (d : Nat) :
    Option (Opened × World) := do
  let D ← w.devs.get d
  if D.state ≠ .online then
    some (⟨hsError .notFound (some "Device '%s' is not connected"), none⟩, w)
  else do
    let vtable ← D.vtable
    drivers vtable os w d

/-- The drivers a Linux build links. -/
def linuxDrivers : Drivers
  | .posix => openPosixDevice
  | .linuxHid => openHidrawDevice
  | .darwinHid | .win32 => fun _ _ _ => none

/-- `hs_device_open` on Linux. -/
def hsDeviceOpen (os : OpenOs) (w : World) (d : Nat) : Option (Opened × World) :=
  hsDeviceOpenWith linuxDrivers os w d

/-! ## What a user does with devices -/

/-- Whether the user may add a reference to `d`: the object exists and its counter has not
reached the user's limit. -/
def mayRef (limit : Nat) (w : World) (d : Nat) : Bool :=
  match w.devs.get d with
  | none => false
  | some D => D.refcount + 1 < limit

/-- Whether the drivers of this platform serve the device. -/
def servedByPosix (w : World) (d : Nat) : Bool :=
  match w.devs.get d with
  | none => false
  | some D => D.vtable = some .posix ∨ D.vtable = some .linuxHid

/-- One operation of the user. One that breaks the rules of the API is not made: the user only
refers to objects that exist, and drops only references and handles the user holds. -/
def userAct (limit : Nat) (w : World) : UserAct → Option World
  | .ref d =>
    if mayRef limit w d then do
      let w ← hsDeviceRef w d
      some { w with userRefs := Function.update w.userRefs d (w.userRefs d + 1) }
    else some w
  | .unref d =>
    if 0 < w.userRefs d then do
      let w ← hsDeviceUnref w (some d)
      some { w with userRefs := Function.update w.userRefs d (w.userRefs d - 1) }
    else some w
  | .open d os =>
    if mayRef limit w d && servedByPosix w d then do
      let (_, w) ← hsDeviceOpen os w d
      some w
    else some w
  | .close id =>
    if w.handles.any fun g => g.id = id then hsHandleClose w (some id) else some w

def userActs (limit : Nat) : World → List UserAct → Option World
  | w, [] => some w
  | w, a :: acts => do
    let w ← userAct limit w a
    userActs limit w acts

end Libhs
