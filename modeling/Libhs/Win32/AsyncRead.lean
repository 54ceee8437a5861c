import Libhs.World
import Libhs.Lib.Run

/-!
# `device_win32.c`, `serial_win32.c` and `hid_win32.c`: reading

An open handle reads ahead: one overlapped `ReadFile` into `h->buf` is started when
the device is opened, and again when what it brought was handed out. `h->len` is
what is unread, 0 while a read is in flight, or the error of a read that could not
be started or has failed.

The kernel finishes a started read at any time. `unconsumed`, `starts` and
`finalized` are ghost state, which no function reads.
-/

namespace Libhs.Win32.AsyncRead

/-- `READ_BUFFER_SIZE`. -/
def readBufferSize : Nat := 1024

/-! ## The kernel -/

/-- How a read ends: with some bytes, or with an error. -/
inductive Completion
  | chunk (bytes : List UInt8) (fits : bytes.length ≤ readBufferSize)
  | error

/-- The state of the last started read. An `OVERLAPPED` that was not used yet, all of its bytes 0,
reads as a finished request of 0 bytes. -/
inductive Request
  | pending
  | complete (bytes : List UInt8)
  | failed
deriving DecidableEq, Repr

/-- `h->buf`, `h->ptr`, `h->len`, `h->pending_thread` and the request behind `h->ov`. `starts` lists
for each started read whether one was in flight, and `h->len`. -/
structure Handle where
  buf : List UInt8
  ptr : Nat
  len : Int
  pendingThread : Nat
  request : Request
  unconsumed : Bool
  starts : List (Bool × Int)
  finalized : List (List UInt8)

/-- The kernel finishes the read that is in flight. -/
def Handle.complete (h : Handle) (c : Completion) : Handle :=
  match h.request with
  | .pending =>
    match c with
    | .chunk bytes _ =>
      { h with buf := bytes ++ h.buf.drop bytes.length, request := .complete bytes }
    | .error => { h with request := .failed }
  | _ => h

/-- What the kernel does during a wait: it finishes the read, or not. -/
def Handle.arrive (h : Handle) : Option Completion → Handle
  | none => h
  | some c => h.complete c

/-- `ReadFile` on `h->buf`. -/
def readFile (h : Handle) (ok : Bool) : Bool × Handle :=
  if ok then
    (true, { h with
      request := .pending
      unconsumed := true
      starts := h.starts ++ [(h.unconsumed, h.len)] })
  else (false, h)

/-- The result of `GetOverlappedResult`. -/
inductive OverlappedResult
  | incomplete
  | done (len : Nat)
  | error
deriving DecidableEq, Repr

/-- `GetOverlappedResult`; waiting for a read that is in flight does not return. -/
def getOverlappedResult (h : Handle) (wait : Bool) : Option (OverlappedResult × Handle) :=
  match h.request with
  | .pending => if wait then none else some (.incomplete, h)
  | .complete bytes =>
    some (.done bytes.length, { h with
      unconsumed := false
      finalized := h.finalized ++ [bytes] })
  | .failed => some (.error, { h with unconsumed := false })

/-! ## `device_win32.c` -/

/-- `_hs_win32_start_async_read`. -/
def startAsyncRead (h : Handle) (thread : Nat) (ok : Bool) : Int × Handle :=
  let (ret, h) := readFile h ok
  if !ret then (hsError .io (some "I/O error while reading from '%s'"), h)
  else (0, { h with pendingThread := thread })

/-- `_hs_win32_finalize_async_read`; `arrival` is what the kernel does while it waits. -/
def finalizeAsyncRead (h : Handle) (timeout : Int) (arrival : Option Completion) :
    Option (Int × Handle) := do
  let (ret, h) ← getOverlappedResult (h.arrive arrival) (timeout < 0)
  match ret with
  | .incomplete => some (0, h)
  | .error =>
    some (hsError .io (some "I/O error while reading from '%s'"), { h with pendingThread := 0 })
  | .done len => some (len, { h with pendingThread := 0 })

/-- The handle at the end of `open_win32_device`, which ignores whether the first read starts. -/
def openedHandle (thread : Nat) (startOk : Bool) : Handle :=
  (startAsyncRead ⟨List.replicate readBufferSize 0, 0, 0, 0, .complete [], false, [], []⟩ thread
    startOk).2

/-! ## The read functions -/

/-- A call of a read function: its arguments, the thread that makes it, and the answers of the
system: whether a failed read can be restarted, what happens during the wait, and whether the next
read can be started. -/
structure Call where
  size : Nat
  timeout : Int
  thread : Nat
  restartOk : Bool
  arrival : Option Completion
  startOk : Bool

/-- The value of a read function, and the bytes it wrote to `buf`. -/
structure ReadResult where
  r : Int
  buf : List UInt8
deriving DecidableEq, Repr

/-- `if (h->len < 0)`: try to start a failed read again. -/
def restart (h : Handle) (call : Call) : Handle :=
  if h.len < 0 then
    let (r, h) := startAsyncRead h call.thread call.restartOk
    { h with len := r }
  else h

/-- The end of `hs_serial_read`: hand out unread bytes, and read again when there are none left. -/
def handOut (h : Handle) (call : Call) : ReadResult × Handle :=
  let size := if call.size > h.len.toNat then h.len.toNat else call.size
  let buf := (h.buf.drop h.ptr).take size
  let h := { h with ptr := h.ptr + size, len := h.len - size }
  if h.len = 0 then
    let (r, h) := startAsyncRead h call.thread call.startOk
    (⟨size, buf⟩, { h with len := r })
  else (⟨size, buf⟩, h)

/-- `hs_serial_read`. -/
def hsSerialRead (h : Handle) (call : Call) : Option (ReadResult × Handle) :=
  let h := restart h call
  if h.len < 0 then some (⟨h.len, []⟩, h)
  else if h.len = 0 then do
    let (r, h) ← finalizeAsyncRead h call.timeout call.arrival
    let h := { h with len := r }
    if h.len ≤ 0 then some (⟨h.len, []⟩, h)
    else some (handOut { h with ptr := 0 } call)
  else some (handOut h call)

/-- `hs_hid_read`. -/
def hsHidRead (h : Handle) (call : Call) : Option (ReadResult × Handle) :=
  let h := restart h call
  if h.len < 0 then some (⟨h.len, []⟩, h)
  else do
    let (r, h) ← finalizeAsyncRead h call.timeout call.arrival
    let h := { h with len := r }
    if h.len ≤ 0 then some (⟨h.len, []⟩, h)
    else
      let size := if call.size > h.len.toNat then h.len.toNat else call.size
      let buf := h.buf.take size
      let (r, h) := startAsyncRead h call.thread call.startOk
      some (⟨size, buf⟩, { h with len := r })

/-- The read function for a type of device. -/
def hsRead : HsDeviceType → Handle → Call → Option (ReadResult × Handle)
  | .serial => hsSerialRead
  | .hid => hsHidRead

/-! ## The system -/

/-- An open handle, and all the bytes that were read from it. -/
structure State where
  handle : Handle
  returned : List UInt8

def State.start (thread : Nat) (startOk : Bool) : State := ⟨openedHandle thread startOk, []⟩

/-- The kernel finishes a read between two calls, or the user calls the read function. -/
inductive Action
  | complete (c : Completion)
  | read (call : Call)

def step (type : HsDeviceType) (s : State) : Action → Option State
  | .complete c => some { s with handle := s.handle.complete c }
  | .read call =>
    if 0 < call.size then do
      let (result, h) ← hsRead type s.handle call
      some ⟨h, s.returned ++ result.buf⟩
    else none

end Libhs.Win32.AsyncRead
