import Libhs.Handles
import Libhs.Darwin.HidReports

/-!
# `hid_darwin.c` and `device_posix.c` on macOS: opening and closing

`open_hid_device` ends with the start of the thread of the device, and waits for it.
When it wakes up, the thread may have run the first callbacks. Serial devices are
opened by `open_posix_device`, which on macOS tries again when the device is busy.
-/

namespace Libhs.Darwin.Device
open Pointer Run

/-! ## Handles -/

/-- The fields of the two kinds of handles: the file of a serial device, or what reading reports works
on. What else a handle owns goes with it. -/
inductive Fields
  | posix (fd : Nat)
  | hid (io : Darwin.State)

structure Handle where
  dev : Nat
  fields : Fields

/-- The driver that made the handle. -/
def Handle.vtable (h : Handle) : Vtable :=
  match h.fields with
  | .posix _ => .posix
  | .hid _ => .darwinHid

instance : HandleType Handle := ⟨fun h => some h.dev, Handle.vtable⟩

/-! ## Serial devices -/

/-- A reason to call `open()` again. -/
inductive Interruption
  | eintr
  | ebusy
deriving DecidableEq, Repr

/-- `restart: h->fd = open(…)`: what happens before `open()` gives `fd`, with `retry` tries left for a
busy device. -/
def openRestart (fd : Except Errno Nat) : Nat → List Interruption → Except Errno Nat
  | _, [] => fd
  | retry, .eintr :: rest => openRestart fd retry rest
  | retry + 1, .ebusy :: rest => openRestart fd retry rest
  | 0, .ebusy :: _ => .error .other

/-- The answers of the system to an attempt to open a serial device. -/
structure PosixOs where
  callocOk : Bool
  interruptions : List Interruption
  fd : Except Errno Nat
  settled : fd ≠ .error .eintr

/-- `open_posix_device` on the new handle. -/
def fillPosixHandle (os : PosixOs) (h : Handle) : Int × Handle :=
  match openRestart os.fd 4 os.interruptions with
  | .error e => (openError e, h)
  | .ok fd => (0, { h with fields := .posix fd })

/-! ## HID devices -/

/-- A callback that runs in the thread of the device, or its write to the pipe. -/
inductive Callback
  | report (reportType : ReportType) (reportId : UInt32) (reportData : List UInt8)
      (callocOk : Bool)
  | removal
  | fire

def Callback.action : Callback → Darwin.Action
  | .report type id data callocOk => .report type id data callocOk
  | .removal => .removal
  | .fire => .fire

/-- The answers of the system to an attempt to open a HID device. The functions of the `pthread`
library return 0 or a positive error; `early` runs before `open_hid_device` wakes up. -/
structure HidOs where
  callocOk : Bool
  serviceOk : Bool
  createOk : Bool
  deviceOpenOk : Bool
  size : Option Nat
  mallocOk : Bool
  pipeOk : Bool
  pipeSize : Nat
  mutexInit : Nat
  condInit : Nat
  threadCreate : Nat
  sourceOk : Bool
  early : List Callback

/-- `device_thread` while `open_hid_device` waits for it. A callback that cannot run is left out. -/
def deviceThread (os : HidOs) (size : Nat) : Darwin.State :=
  let io := State.start size os.pipeSize
  if os.sourceOk then os.early.foldl (fun io c => (step io c.action).getD io) io
  else
    let r := hsError .system (some "CFRunLoopSourceCreate() failed")
    { io with handle := { io.handle with threadRet := r } }

/-- `open_hid_device` on the new handle. -/
def fillHidHandle (os : HidOs) (h : Handle) : Int × Handle :=
  if !os.serviceOk then (hsError .notFound (some "Device '%s' not found"), h)
  else if !os.createOk then (hsError .notFound (some "Device '%s' not found"), h)
  else if !os.deviceOpenOk then (hsError .system (some "Failed to open HID device '%s'"), h)
  else
    match os.size with
    | none => (hsError .system (some "HID device '%s' has no valid report size key"), h)
    | some size =>
      if !os.mallocOk then (hsError .memory none, h)
      else if !os.pipeOk then (hsError .system (some "pipe() failed: %s"), h)
      -- the two checks of the source look for negative errors
      else if (os.mutexInit : Int) < 0 then
        (hsError .system (some "pthread_mutex_init() failed: %s"), h)
      else if (os.condInit : Int) < 0 then
        (hsError .system (some "pthread_cond_init() failed: %s"), h)
      else if os.threadCreate ≠ 0 then
        (hsError .system (some "pthread_create() failed: %s"), h)
      else
        let io := deviceThread os size
        let r := io.handle.threadRet
        let io := { io with handle := { io.handle with threadRet := 0 } }
        if r < 0 then (r, { h with fields := .hid io })
        else (0, { h with fields := .hid { io with opened := true } })

/-- A HID handle before its thread was started. -/
def zeroIo : Darwin.State := ⟨⟨false, 0, 0, 0, 0, noReports, Heap.empty, 0⟩, false, false, [], []⟩

/-! ## Opening and closing -/

/-- Drop the reference to the device, and free the handle. -/
def closeDevice (s : Handles Handle) (id : Nat) (h : Handle) : Option (Handles Handle) := do
  let w ← hsDeviceUnref s.world (some h.dev)
  let handles ← s.handles.free id
  some { s with world := w, handles := handles }

/-- `close_posix_device`. -/
def closePosixDevice (s : Handles Handle) (id : Nat) : Option (Handles Handle) := do
  let h ← s.handles.get id
  match h.fields with
  | .posix _ => closeDevice s id h
  | .hid _ => none

/-- `close_hid_device`, which first stops the thread, if it got to its run loop. -/
def closeHidDevice (s : Handles Handle) (id : Nat) : Option (Handles Handle) := do
  let h ← s.handles.get id
  match h.fields with
  | .hid _ => closeDevice s id h
  | .posix _ => none

/-- The drivers a macOS build links. -/
def closeDrivers : Vtable → Handles Handle → Nat → Option (Handles Handle)
  | .posix => closePosixDevice
  | .darwinHid => closeHidDevice
  | .linuxHid | .win32 => fun _ _ => none

/-- `hs_handle_close` on macOS. -/
def hsHandleClose : Handles Handle → Nat → Option (Handles Handle) := handleClose closeDrivers

/-- `open_posix_device`. -/
def openPosixDevice (os : PosixOs) (s : Handles Handle) (d : Nat) :
    Option (Opened × Handles Handle) :=
  openHandle hsHandleClose os.callocOk ⟨d, .posix 0⟩ (fillPosixHandle os) s d

/-- `open_hid_device`. -/
def openHidDevice (os : HidOs) (s : Handles Handle) (d : Nat) : Option (Opened × Handles Handle) :=
  openHandle hsHandleClose os.callocOk ⟨d, .hid zeroIo⟩ (fillHidHandle os) s d

/-- The answers to an attempt to open a device of either kind. -/
structure OpenOs where
  posix : PosixOs
  hid : HidOs

def openDrivers (os : OpenOs) : Vtable → Handles Handle → Nat → Option (Opened × Handles Handle)
  | .posix => openPosixDevice os.posix
  | .darwinHid => openHidDevice os.hid
  | .linuxHid | .win32 => fun _ _ => none

/-- `hs_device_open` on macOS. -/
def hsDeviceOpen (os : OpenOs) : Handles Handle → Nat → Option (Opened × Handles Handle) :=
  deviceOpen (openDrivers os)

/-! ## The system -/

/-- What happens to the handles: calls of the user, and the work of the device threads. -/
inductive Action
  | elsewhere (e : Elsewhere)
  | «open» (d : Nat) (os : OpenOs)
  | read (id : Nat) (size : Nat) (timeout : Int) (poll : Poll)
  | callback (id : Nat) (c : Callback)
  | close (id : Nat)

/-- A step of reading on the handle at `id`. -/
def ioStep (s : Handles Handle) (id : Nat) (a : Darwin.Action) : Option (Handles Handle) := do
  let h ← s.handles.get id
  match h.fields with
  | .posix _ => none
  | .hid io => do
    let io ← step io a
    let handles ← s.handles.set id { h with fields := .hid io }
    some { s with handles := handles }

/-- One step, if it can be taken. The user lets no counter run over. -/
def handleStep (s : Handles Handle) : Action → Option (Handles Handle)
  | .elsewhere e => do
    let w ← s.world.elsewhere e
    some { s with world := w }
  | .open d os =>
    if mayRef uintMod s.world d then do
      let (_, s) ← hsDeviceOpen os s d
      some s
    else none
  | .read id size timeout poll => ioStep s id (.read size timeout poll)
  | .callback id c => ioStep s id c.action
  | .close id => hsHandleClose s id

/-! ## The functions -/

variable {s s' : Handles Handle} {h : Handle} {d id : Nat} {D : HsDevice} {a : Action}

theorem closeDevice_spec (hs : s.Counted) (hg : s.handles.get id = some h) :
    ∃ s', closeDevice s id h = some s' ∧ s'.Counted ∧ Lowered s.world s'.world h.dev ∧
      s.Apart s' id ∧ ∀ d, ¬ s'.IsOpen d id := by
  obtain ⟨w, e, hlow, hput⟩ := drop_spec hs hg rfl
  obtain ⟨handles', e', hb, hget⟩ := Heap.free_some hg
  refine ⟨⟨w, handles', s.cleaners⟩, ?_, hput hb hget nofun, hlow, ⟨rfl, fun x hx => ?_⟩, ?_⟩
  · simp [closeDevice, e, e']
  · dsimp only
    rw [hget, if_neg hx]
  · rintro d ⟨g, hg', -⟩
    have hg' : handles'.get id = some g := hg'
    rw [hget, if_pos rfl] at hg'
    cases hg'

/-- `hs_handle_close` gets to the driver of the handle. -/
theorem handleClose_driver (hs : s.Counted) (hg : s.handles.get id = some h) :
    hsHandleClose s id = closeDevice s id h := by
  rw [hsHandleClose, handleClose_eq hs hg rfl]
  show closeDrivers h.vtable s id = closeDevice s id h
  unfold Handle.vtable
  cases hf : h.fields with
  | posix fd => simp [closeDrivers, closePosixDevice, hg, hf]
  | hid io => simp [closeDrivers, closeHidDevice, hg, hf]

theorem close_spec (hs : s.Counted) (hg : s.handles.get id = some h) :
    ∃ s', hsHandleClose s id = some s' ∧ s'.Counted ∧ Lowered s.world s'.world h.dev ∧
      s.Apart s' id ∧ ∀ d, ¬ s'.IsOpen d id := by
  rw [handleClose_driver hs hg]
  exact closeDevice_spec hs hg

theorem fillPosixHandle_same (os : PosixOs) (d : Nat) :
    (fillPosixHandle os ⟨d, .posix 0⟩).2.dev = d ∧
      (fillPosixHandle os ⟨d, .posix 0⟩).2.vtable = .posix := by
  unfold fillPosixHandle
  cases openRestart os.fd 4 os.interruptions <;> exact ⟨rfl, rfl⟩

theorem fillHidHandle_same (os : HidOs) (d : Nat) :
    (fillHidHandle os ⟨d, .hid zeroIo⟩).2.dev = d ∧
      (fillHidHandle os ⟨d, .hid zeroIo⟩).2.vtable = .darwinHid := by
  unfold fillHidHandle
  cases os.serviceOk with
  | false => exact ⟨rfl, rfl⟩
  | true =>
    cases os.createOk with
    | false => exact ⟨rfl, rfl⟩
    | true =>
      cases os.deviceOpenOk with
      | false => exact ⟨rfl, rfl⟩
      | true =>
        cases os.size with
        | none => exact ⟨rfl, rfl⟩
        | some size =>
          dsimp only
          repeat' split
          all_goals exact ⟨rfl, rfl⟩

theorem open_spec (hs : s.Counted) (hD : s.world.devs.get d = some D) (hon : D.state = .online)
    (hv : D.vtable = some .posix ∨ D.vtable = some .darwinHid) (hb : D.refcount + 1 < uintMod)
    (os : OpenOs) : ∃ o s', hsDeviceOpen os s d = some (o, s') ∧ s'.Counted ∧
      OpenAtomic s.world s'.world (s'.IsOpen d) d o := by
  have hclose : ∀ {h : Handle}, h.dev = d → ∀ {s₁ : Handles Handle} {id : Nat}, s₁.Counted →
      s₁.handles.get id = some h → ∃ s₂, hsHandleClose s₁ id = some s₂ ∧ s₂.Counted ∧
        Lowered s₁.world s₂.world d ∧ s₁.Apart s₂ id := by
    rintro h rfl s₁ id hc hg
    obtain ⟨s₂, e, hc₂, hlow, ha, -⟩ := close_spec hc hg
    exact ⟨s₂, e, hc₂, hlow, ha⟩
  rcases hv with hv | hv
  · obtain ⟨hdev, hvt⟩ := fillPosixHandle_same os.posix d
    obtain ⟨o, s', e, hc, -, hatomic⟩ := openHandle_spec hsHandleClose
      os.posix.callocOk hs hD hb (congrArg some hdev) (hv.trans (congrArg some hvt.symm))
      fun _ => hclose hdev
    exact ⟨o, s', (deviceOpen_eq hD hon hv).trans e, hc, hatomic⟩
  · obtain ⟨hdev, hvt⟩ := fillHidHandle_same os.hid d
    obtain ⟨o, s', e, hc, -, hatomic⟩ := openHandle_spec hsHandleClose
      os.hid.callocOk hs hD hb (congrArg some hdev) (hv.trans (congrArg some hvt.symm))
      fun _ => hclose hdev
    exact ⟨o, s', (deviceOpen_eq hD hon hv).trans e, hc, hatomic⟩

/-! ## Runs -/

theorem open_counted {os : OpenOs} {o : Opened} (hs : s.Counted)
    (hm : mayRef uintMod s.world d = true) (h : hsDeviceOpen os s d = some (o, s')) :
    s'.Counted := by
  rcases deviceOpen_cases h with rfl | ⟨D, vtable, hD, hon, hv, e⟩
  · exact hs
  · simp only [mayRef, hD, decide_eq_true_eq] at hm
    have hserved : D.vtable = some .posix ∨ D.vtable = some .darwinHid → s'.Counted := by
      intro hv
      obtain ⟨o', s₁, e, hc, -⟩ := open_spec hs hD hon hv hm os
      rw [e] at h
      cases h
      exact hc
    cases vtable with
    | posix => exact hserved (Or.inl hv)
    | darwinHid => exact hserved (Or.inr hv)
    | linuxHid | win32 => cases e

theorem ioStep_counted {act : Darwin.Action} (hs : s.Counted) (h : ioStep s id act = some s') :
    s'.Counted := by
  obtain ⟨g, hg, h⟩ := Option.bind_eq_some_iff.mp h
  cases hf : g.fields with
  | posix fd => simp [hf] at h
  | hid io =>
    simp only [hf] at h
    obtain ⟨io', -, h⟩ := Option.bind_eq_some_iff.mp h
    obtain ⟨handles', e, h⟩ := Option.bind_eq_some_iff.mp h
    cases h
    have hsame : HandleType.vtable { g with fields := .hid io' } = HandleType.vtable g := by
      show Vtable.darwinHid = g.vtable
      rw [Handle.vtable, hf]
    obtain ⟨handles₁, e₁, -, hc⟩ := set_spec hs hg { g with fields := .hid io' } rfl hsame
    rw [e] at e₁
    cases e₁
    exact hc

theorem step_counted (hs : s.Counted) (h : handleStep s a = some s') : s'.Counted := by
  cases a with
  | elsewhere e =>
    obtain ⟨w, hw, h⟩ := Option.bind_eq_some_iff.mp h
    cases h
    exact elsewhere_counted hs hw
  | «open» d os =>
    simp only [handleStep, Option.ite_none_right_eq_some] at h
    obtain ⟨hm, h⟩ := h
    obtain ⟨⟨o, s₁⟩, e, h⟩ := Option.bind_eq_some_iff.mp h
    cases h
    exact open_counted hs hm e
  | read id size timeout poll => exact ioStep_counted hs h
  | callback id c => exact ioStep_counted hs h
  | close id =>
    obtain ⟨g, hg, -⟩ := Option.bind_eq_some_iff.mp h
    obtain ⟨s₁, e, hc, -⟩ := close_spec hs hg
    rw [show hsHandleClose s id = some s' from h] at e
    cases e
    exact hc

theorem run_counted {actions : List Action}
    (h : run handleStep (.start Handle) actions = some s) : s.Counted :=
  run_rule_always (fun _ _ _ hs e => step_counted hs e) (counted_start Handle) h

end Libhs.Darwin.Device
