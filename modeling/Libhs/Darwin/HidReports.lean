import Libhs.Basic
import Libhs.Lib.Heap
import Libhs.Lib.Run
import Libhs.List

/-!
# `hid_darwin.c`: input reports

The thread of an open HID device queues the reports that arrive, and `hs_hid_read`
hands them out. Both work on the lists of the handle under its mutex; a pipe tells
the user that there is something to read. The write to the pipe comes behind the
critical section of the thread (`State.firing`).

The list nodes are kept beside the reports that contain them, as in the monitor.
-/

namespace Libhs.Darwin
open Pointer

/-! ## The handle -/

/-- A pointer to a list node: the two heads in the handle, or a report. -/
inductive ReportRef
  | reports
  | freeReports
  | report (a : Nat)
deriving DecidableEq, Repr

/-- `struct hid_report`, less its list node. `data` is the whole array, of which the first `size`
bytes are the report. -/
structure HidReport where
  size : Nat
  data : List UInt8
deriving DecidableEq, Repr

/-- What the report functions use of `struct hs_handle`: `hid` tells whether the device is still
there, `pipe` is the number of bytes in the pipe, which holds `pipeSize` of them. -/
structure Handle where
  hid : Bool
  size : Nat
  pipe : Nat
  pipeSize : Nat
  threadRet : Int
  links : Links ReportRef
  records : Heap HidReport
  allocatedReports : Nat

/-- `fire_device_event`. The pipe does not block, so a byte too many is dropped. -/
def fireDeviceEvent (h : Handle) : Handle :=
  if h.pipe < h.pipeSize then { h with pipe := h.pipe + 1 } else h

/-- `reset_device_event`. The pipe does not block, so reading from an empty one does nothing. -/
def resetDeviceEvent (h : Handle) : Handle := { h with pipe := h.pipe - 1 }

/-- `hid_removal_callback`, up to its `fire_device_event`. -/
def hidRemovalCallback (h : Handle) : Handle := { h with hid := false }

/-! ## Reports that arrive -/

/-- `IOHIDReportType`. -/
inductive ReportType
  | input
  | output
  | feature
deriving DecidableEq, Repr

/-- `_hs_list_get_first` on a list of reports; the inner `none` is NULL. -/
def firstReport (links : Links ReportRef) (list : ReportRef) : Option (Option Nat) := do
  if ← hsListIsEmpty links list then some none
  else
    let k ← links list
    match k.next with
    | some (.report a) => some (some a)
    | _ => none

/-- `memcpy` to the beginning of an array; fails when the bytes do not fit. -/
def memcpy (dest src : List UInt8) : Option (List UInt8) :=
  if src.length ≤ dest.length then some (src ++ dest.drop src.length) else none

/-- `calloc` of a report with room for the leading report ID. -/
def Handle.allocReport (h : Handle) : Nat × Handle :=
  (h.records.brk, { h with
    records := (h.records.alloc ⟨0, List.replicate (h.size + 1) 0⟩).2
    links := Function.update h.links (.report h.records.brk) (some ⟨none, none⟩)
    allocatedReports := h.allocatedReports + 1 })

/-- The first half of `hid_report_callback`: find a report to fill, or the `r` of `goto cleanup`. -/
def claimReport (h : Handle) (callocOk : Bool) : Option (Except Int Nat × Handle) := do
  match ← firstReport h.links .freeReports with
  | some a => do
    let links ← hsListRemove h.links (.report a)
    some (.ok a, { h with links := links })
  | none =>
    if h.allocatedReports = 64 then some (.error 0, h)
    else if callocOk then
      let (a, h) := h.allocReport
      some (.ok a, h)
    else some (.error (hsError .memory none), h)

/-- The second half: fill the report and queue it. -/
def queueReport (h : Handle) (a : Nat) (reportId : UInt32) (reportData : List UInt8) :
    Option Handle := do
  let report ← h.records.get a
  let reportData := reportData.take h.size
  let data ← memcpy report.data (reportId.toUInt8 :: reportData)
  let records ← h.records.set a ⟨reportData.length + 1, data⟩
  let links ← hsListAddTail h.links .reports (.report a)
  some { h with records := records, links := links }

/-- The critical section of `hid_report_callback`: whether to fire, and what happened to the
report. -/
def hidReportCallback (h : Handle) (reportType : ReportType) (reportId : UInt32)
    (reportData : List UInt8) (callocOk : Bool) : Option ((Bool × Except Int Nat) × Handle) :=
  if reportType ≠ .input then some ((false, .error 0), h)
  else do
    let fire ← hsListIsEmpty h.links .reports
    let (report, h) ← claimReport h callocOk
    match report with
    | .ok a => do
      let h ← queueReport h a reportId reportData
      some ((fire, .ok a), h)
    | .error r => some ((fire, .error r), if r < 0 then { h with threadRet := r } else h)

/-! ## Reports that are read -/

/-- The result of `poll`, which is called again after `EINTR`. -/
inductive Poll
  | ready
  | timedOut
  | failed
deriving DecidableEq, Repr

/-- The value of `hs_hid_read`, and the bytes it wrote to `buf`. -/
structure ReadResult where
  r : Int
  buf : List UInt8
deriving DecidableEq, Repr

/-- The label `reset` of `hs_hid_read`. -/
def resetIfEmpty (h : Handle) : Option Handle := do
  if ← hsListIsEmpty h.links .reports then some (resetDeviceEvent h) else some h

/-- The critical section of `hs_hid_read`. -/
def hsHidReadLocked (h : Handle) (size : Nat) : Option (ReadResult × Handle) :=
  if h.threadRet < 0 then do
    let r := h.threadRet
    let h ← resetIfEmpty { h with threadRet := 0 }
    some (⟨r, []⟩, h)
  else do
    match ← firstReport h.links .reports with
    | none => some (⟨0, []⟩, h)
    | some a => do
      let report ← h.records.get a
      let size := if size > report.size then report.size else size
      let buf := report.data.take size
      let links ← hsListRemove h.links (.report a)
      let links ← hsListAdd links .freeReports (.report a)
      let h ← resetIfEmpty { h with links := links }
      some (⟨size, buf⟩, h)

/-- Whether `hs_hid_read` gets past its checks to the critical section. -/
def reachesLock (h : Handle) (timeout : Int) (poll : Poll) : Bool :=
  h.hid && (timeout = 0 || poll = .ready)

/-- `hs_hid_read`. -/
def hsHidRead (h : Handle) (size : Nat) (timeout : Int) (poll : Poll) :
    Option (ReadResult × Handle) :=
  if reachesLock h timeout poll then hsHidReadLocked h size
  else if !h.hid then some (⟨hsError .io (some "Device '%s' was removed"), []⟩, h)
  else if poll = .failed then some (⟨hsError .system (some "poll('%s') failed: %s"), []⟩, h)
  else some (⟨0, []⟩, h)

/-! ## The system -/

/-- A handle, the thread of the device, and the user. `firing` says that the thread has left its
critical section and is about to write to the pipe, `opened` that `open_hid_device` has returned.
`accepted` (ID and data) and `returned` (size asked for and bytes) are what happened so far. -/
structure State where
  handle : Handle
  opened : Bool
  firing : Bool
  accepted : List (UInt32 × List UInt8)
  returned : List (Nat × List UInt8)

/-- The heads of two lists fresh from `_hs_list_init`. -/
def noReports : Links ReportRef
  | .reports => some ⟨some .reports, some .reports⟩
  | .freeReports => some ⟨some .freeReports, some .freeReports⟩
  | .report _ => none

/-- The thread has set `thread_ret` to 1, and `open_hid_device` waits for that. -/
def State.start (size pipeSize : Nat) : State where
  handle := ⟨true, size, 0, pipeSize, 1, noReports, Heap.empty, 0⟩
  opened := false
  firing := false
  accepted := []
  returned := []

/-- The steps: `opened` is the end of `open_hid_device`, the others are the critical sections of the
two callbacks, the write to the pipe behind them, and a call of `hs_hid_read`. -/
inductive Action
  | opened
  | report (reportType : ReportType) (reportId : UInt32) (reportData : List UInt8)
      (callocOk : Bool)
  | removal
  | fire
  | read (size : Nat) (timeout : Int) (poll : Poll)

/-- One step, if it can be taken. With a negative `thread_ret` there is no handle to return. -/
def step (s : State) : Action → Option State
  | .opened =>
    if !s.opened && ¬ s.handle.threadRet < 0 then
      some { s with opened := true, handle := { s.handle with threadRet := 0 } }
    else none
  | .report type id data callocOk =>
    if s.firing then none
    else do
      let ((fire, report), h) ← hidReportCallback s.handle type id data callocOk
      match report with
      | .ok _ => some { s with handle := h, firing := fire, accepted := s.accepted ++ [(id, data)] }
      | .error _ => some { s with handle := h, firing := fire }
  | .removal =>
    if s.firing then none
    else some { s with handle := hidRemovalCallback s.handle, firing := true }
  | .fire =>
    if s.firing then some { s with handle := fireDeviceEvent s.handle, firing := false } else none
  | .read size timeout poll =>
    if s.opened && 0 < size then do
      let (result, h) ← hsHidRead s.handle size timeout poll
      if result.r > 0 then
        some { s with handle := h, returned := s.returned ++ [(size, result.buf)] }
      else some { s with handle := h }
    else none

end Libhs.Darwin
