import Libhs.Win32.Enumerate

/-!
# `monitor_win32.c`: the monitor and its background thread

A background thread owns a window that receives the device notifications, queues
them (`post_device_event`) and sets an event that the user polls. `State` is the
whole process with the device tree of the system. `step` takes one step of either
thread, or changes the tree; the thread that runs the calls of the user is at a
point of its program (`Main`), and so is the background thread (`Thread`).

A critical section is one step, so the lock is free in every state. So is code that
touches nothing the other thread can see. The state goes on only where the source
is defined: an arrival whose node cannot be located has no step.
-/

namespace Libhs.Win32
open Pointer

/-! ## Device ids -/

/-- `*ptr == '\\' || *ptr == '#'`. -/
def isSeparator (b : UInt8) : Bool := b = 0x5C ∨ b = 0x23

/-- Skip one of the four prefixes of `extract_device_id`. -/
def skipNamespace (key : List UInt8) : List UInt8 :=
  if [ascii "\\\\?\\", ascii "\\\\.\\", ascii "##.#", ascii "##?#"].any (·.isPrefixOf key) then
    key.drop 4
  else key

/-- Cut at the last separator, if a brace follows it. -/
def cutGuid (id : List UInt8) : List UInt8 :=
  let last := (id.reverse.takeWhile fun b => !isSeparator b).reverse
  if last.length < id.length ∧ last.head? = some 0x7B then id.take (id.length - last.length - 1)
  else id

/-- `toupper` in the C locale, with `#` turned into a backslash. -/
def upcase (b : UInt8) : UInt8 :=
  if 0x61 ≤ b ∧ b ≤ 0x7A then b - 0x20 else if b = 0x23 then 0x5C else b

theorem upcase_ne_zero {b : UInt8} (hb : b ≠ 0) : upcase b ≠ 0 := by
  unfold upcase
  split
  · next h =>
    intro h0
    have h1 : (0x61 : UInt8).toNat ≤ b.toNat := h.1
    have h2 := congrArg UInt8.toNat h0
    rw [UInt8.toNat_sub_of_le _ _ (UInt8.le_trans (by decide) h.1)] at h2
    simp at h1 h2
    omega
  · split
    · decide
    · exact hb

/-- `extract_device_id`, which turns the name of an interface into the id of its device. -/
def extractDeviceId (name : CStr) : CStr where
  bytes := (cutGuid (skipNamespace name.bytes)).map upcase
  noNul := by
    intro hm
    obtain ⟨b, hb, h⟩ := List.mem_map.mp hm
    have hcut : b ∈ skipNamespace name.bytes := by
      unfold cutGuid at hb
      dsimp only at hb
      split at hb
      · exact List.mem_of_mem_take hb
      · exact hb
    have hname : b ∈ name.bytes := by
      unfold skipNamespace at hcut
      split at hcut
      · exact List.mem_of_mem_drop hcut
      · exact hcut
    exact upcase_ne_zero (fun h0 => name.noNul (h0 ▸ hname)) h

/-! ## The notification queue -/

/-- `enum device_event`. -/
inductive DeviceEvent
  | added
  | removed
deriving DecidableEq, Repr

/-- `struct device_notification`, less its list node. -/
structure DeviceNotification where
  event : DeviceEvent
  key : CStr
deriving DecidableEq

/-- A list node: `monitor->notifications`, the list of a refresh, or a notification. -/
inductive NoteRef
  | shared
  | own
  | note (a : Nat)
deriving DecidableEq, Repr

/-- What both threads use of the monitor, with the memory of the notifications. Ghost state:
`posted` and `consumed` collect the notifications that were queued and processed. -/
structure Queue where
  notes : Heap DeviceNotification
  links : Links NoteRef
  ret : Int
  event : Bool
  posted : List DeviceNotification
  consumed : List DeviceNotification

namespace Queue

/-- `_hs_list_init(&monitor->notifications)` in a monitor fresh from `calloc`. -/
def init (q : Queue) : Option Queue := do
  let links ← hsListInit (Function.update q.links .shared (some ⟨none, none⟩)) .shared
  some { q with links := links, ret := 0, event := false, posted := [], consumed := [] }

/-- `calloc` of a notification, and its fields. -/
def alloc (q : Queue) (n : DeviceNotification) : Nat × Queue :=
  (q.notes.brk, { q with
    notes := (q.notes.alloc n).2
    links := Function.update q.links (.note q.notes.brk) (some ⟨none, none⟩) })

/-- `free_notification`, with its list node. -/
def free (q : Queue) (a : Nat) : Option Queue := do
  let notes ← q.notes.free a
  some { q with notes := notes, links := Function.update q.links (.note a) none }

/-- The critical section of `post_device_event`. -/
def post (q : Queue) (a : Nat) : Option Queue := do
  let n ← q.notes.get a
  let links ← hsListAddTail q.links .shared (.note a)
  some { q with links := links, event := true, posted := q.posted ++ [n] }

/-- The critical section of `window_proc`, and the unlocked end of `monitor_thread`. -/
def storeRet (q : Queue) (r : Int) : Queue := { q with ret := r }

/-- `SetEvent(monitor->event)`. -/
def setEvent (q : Queue) : Queue := { q with event := true }

/-- `ResetEvent(monitor->event)`. -/
def resetEvent (q : Queue) : Queue := { q with event := false }

/-- The first critical section of `hs_monitor_refresh`, behind `_HS_LIST(notifications)`: the stored
error, and the queue. -/
def take (q : Queue) : Option (Int × Queue) := do
  let links ← hsListInit (Function.update q.links .own (some ⟨none, none⟩)) .own
  let links ← hsListSplice links .own .shared
  some (q.ret, { q with links := links, ret := 0 })

/-- `_hs_list_remove` and `free_notification` at the end of a round of `hs_monitor_refresh`. -/
def drop (q : Queue) (a : Nat) : Option Queue := do
  let n ← q.notes.get a
  let links ← hsListRemove q.links (.note a)
  let q ← Queue.free { q with links := links } a
  some { q with consumed := q.consumed ++ [n] }

/-- The second critical section of `hs_monitor_refresh`, and the end of its list. -/
def putBack (q : Queue) : Option Queue := do
  let links ← hsListSplice q.links .shared .own
  let empty ← hsListIsEmpty links .shared
  let q := { q with links := Function.update links .own none }
  some (if empty then q.resetEvent else q)

/-- The loop body at the end of `hs_monitor_free`. -/
def freeBody : NoteRef → Queue → Option (Flow Int × Queue)
  | .note a, q => do
    let q ← q.free a
    some (.next, q)
  | _, _ => none

/-- The loop at the end of `hs_monitor_free`, and the list head that goes with the monitor. -/
def release (q : Queue) : Option Queue := do
  let (_, q) ← hsListForeach Queue.links .shared freeBody (q.notes.brk + 1) q
  some { q with links := Function.update q.links .shared none }

end Queue

/-! ## The state -/

/-- The calls of `monitor_thread` that make the window. -/
inductive SetUp
  | registerClass
  | createWindow
  | setWindowLong
  | registerNotification
deriving DecidableEq, Repr

/-- Where the background thread is.

* `settingUp`: before one of the calls that make the window.
* `ready`: before `SetEvent`, with the window made.
* `waiting`: in `GetMessage`.
* `posting`: in `post_device_event`, before its critical section.
* `failing`: in `window_proc`, before the critical section that stores an error.
* `leaving`: at `cleanup`, before it stores the error.
* `signalling`: before the `SetEvent` that follows. -/
inductive Thread
  | absent
  | settingUp (call : SetUp)
  | ready
  | waiting
  | posting (a : Nat)
  | failing (r : Int)
  | leaving (r : Int)
  | signalling
  | done
deriving DecidableEq, Repr

/-- Where the thread of the user is: outside of the library (`absent`, `idle`, or `leaked` when the
monitor was lost), or in one of the functions.

* `scanning`, `starting`, `waiting`, `checking`, `resetting`: in `hs_monitor_new`, with the devices
  of the current set and the classes that are left.
* `refreshing`, `finishing`: in `hs_monitor_refresh`, in its loop with the pointers `cur` and `next`,
  or at `cleanup` with the value to return.
* `freeing`: in `hs_monitor_free`, at the wait for the background thread. -/
inductive Main
  | absent
  | scanning (set : List CStr) (classes : List DeviceClass)
  | starting
  | waiting
  | checking
  | resetting
  | idle
  | refreshing (cur next : Option NoteRef)
  | finishing (r : Int)
  | freeing (r : Int)
  | leaked
deriving DecidableEq

/-- A device node: its class, and its interface number if the library handles such a device. -/
structure Node where
  cls : DeviceClass
  iface : Option UInt8
deriving DecidableEq, Repr

/-- A `WM_DEVICECHANGE` message: the event and `dbcc_name`. -/
structure Message where
  event : DeviceEvent
  name : CStr
deriving DecidableEq

/-- The system: the devices that are present, whether they are announced to the window, and the
messages the window has not received yet; `closing` stands for a `WM_CLOSE`. -/
structure Desktop where
  tree : CStr → Option Node
  subscribed : Bool
  messages : List Message
  closing : Bool

/-- The whole state. `result` is what the last call returned. Ghost state: `scanned` collects the
sets that `hs_monitor_new` goes over. -/
structure State where
  world : World
  queue : Queue
  hwnd : Bool
  thread : Thread
  main : Main
  desktop : Desktop
  result : Int
  scanned : List CStr

/-- Nothing was done yet, and the devices of `tree` are present. -/
def State.start (tree : CStr → Option Node) : State where
  world := .start
  queue := ⟨Heap.empty, fun _ => none, 0, false, [], []⟩
  hwnd := false
  thread := .absent
  main := .absent
  desktop := ⟨tree, false, [], false⟩
  result := 0
  scanned := []

/-! ## `hs_monitor_free` -/

/-- `hs_monitor_free` up to the wait for the thread; behind it the caller returns `r`. -/
def State.freeMonitor (s : State) (r : Int) : Option State := do
  let w ← hsMonitorRelease s.world
  some { s with
    world := w
    main := .freeing r
    desktop := { s.desktop with closing := s.hwnd } }

/-- The rest of `hs_monitor_free`, when the thread has ended or never ran. The code does not wait for a
thread without a window: one that has not ended would go on with a monitor that is freed, and here
there is no such step. -/
def State.joinThread (s : State) (r : Int) : Option State := do
  let q ← s.queue.release
  some { s with
    world := s.world.freeMonitor
    queue := q
    hwnd := false
    thread := .absent
    main := .absent
    result := r }

/-! ## `hs_monitor_new` -/

/-- What the system answers at the beginning of `hs_monitor_new`; `controllers` is the error that
`populate_controllers` fails with. -/
structure NewOs where
  callocOk : Bool
  eventOk : Bool
  mallocOk : Bool
  controllers : Option HsErrorCode

/-- `hs_monitor_new` up to the loop of `hs_enumerate`. -/
def State.newMonitor (s : State) (os : NewOs) : Option State :=
  if os.callocOk then do
    let q ← s.queue.init
    let s := { s with world := s.world.allocMonitor, queue := q, scanned := [] }
    if os.eventOk then do
      let (r, w) ← hsMonitorInit s.world os.mallocOk
      let s := { s with world := w }
      if r < 0 then s.freeMonitor r
      else
        match os.controllers with
        | some err => s.freeMonitor (hsError err none)
        | none => some { s with main := .scanning [] deviceClasses }
    else s.freeMonitor (hsError .system (some "CreateEvent() failed: %s"))
  else some { s with result := hsError .memory none }

/-- `SetupDiGetClassDevs` in `enumerate_class`, for the first of the classes that are left. -/
def State.scanClass (s : State) (set : Option (List CStr)) (classes : List DeviceClass) :
    Option State :=
  match set with
  | none => s.freeMonitor (hsError .system (some "SetupDiGetClassDevs() failed: %s"))
  | some set => some { s with main := .scanning set classes, scanned := s.scanned ++ set }

/-- A round of the loop of `enumerate_class`, on the first device that is left in the set. -/
def State.readDevice (u : User) (s : State) (os : ReadOs) (set : List CStr)
    (classes : List DeviceClass) : Option State := do
  let (r, w) ← enumerateDevice (monitorEnumerateCallback u) os s.world
  let s := { s with world := w }
  if r < 0 then s.freeMonitor r
  else if r = 0 then some { s with main := .scanning set classes }
  else some { s with main := .starting }

/-- `_beginthreadex`. Its failure returns without freeing the monitor. -/
def State.beginThread (s : State) (ok : Bool) : State :=
  if ok then { s with thread := .settingUp .registerClass, main := .waiting }
  else { s with main := .leaked, result := hsError .system (some "_beginthreadex() failed: %s") }

/-- `wait_event`: it blocks until the event is signalled, or fails. -/
def State.waitEvent (s : State) (ok : Bool) : Option State :=
  if ok then if s.queue.event then some { s with main := .checking } else none
  else s.freeMonitor (hsError .system (some "WaitForSingleObject() failed: %s"))

/-- `if (monitor->ret < 0)`, behind the wait. -/
def State.checkRet (s : State) : Option State :=
  if s.queue.ret < 0 then s.freeMonitor s.queue.ret else some { s with main := .resetting }

/-- The `ResetEvent` at the end of `hs_monitor_new`, which returns 0. -/
def State.resetEvent (s : State) : State :=
  { s with queue := s.queue.resetEvent, main := .idle, result := 0 }

/-! ## `hs_monitor_refresh` -/

/-- The loop of `hs_monitor_refresh` at the node `cur`. -/
def State.loopAt (s : State) (cur next : Option NoteRef) : State :=
  if cur = some .own then { s with main := .finishing 0 } else { s with main := .refreshing cur next }

/-- The first critical section, and the head of the loop. -/
def State.beginRefresh (s : State) : Option State := do
  let (r, q) ← s.queue.take
  let s := { s with queue := q }
  if r < 0 then some { s with main := .finishing r }
  else do
    let head ← q.links .own
    let cur ← load q.links head.next
    some (s.loopAt head.next cur.next)

/-- What the system answers to an arrival: whether `CM_Locate_DevNode` finds the node, and the
answers while it is read. -/
structure ArrivalOs where
  located : Bool
  read : ReadOs

/-- `process_arrival_notification`. When the node cannot be located, the log message reads
`dev->key` through the NULL pointer `dev`. -/
def processArrivalNotification (u : User) (os : ArrivalOs) (w : World) (key : CStr) :
    Option (Int × World) :=
  if os.located then
    handOver (processWin32Device os.read (some key)) (fun d w => hsMonitorAdd u w d) w
  else none

/-- The `switch` of `hs_monitor_refresh`. -/
def processNotification (u : User) (os : ArrivalOs) (w : World) (n : DeviceNotification) :
    Option (Int × World) :=
  match n.event with
  | .added => processArrivalNotification u os w n.key
  | .removed => do
    let w ← hsMonitorRemove u w n.key
    some (0, w)

/-- A round of the loop, and the step to the next node. -/
def State.processNotification (u : User) (s : State) (os : ArrivalOs)
    (cur next : Option NoteRef) : Option State :=
  match cur with
  | some (.note a) => do
    let n ← s.queue.notes.get a
    let (r, w) ← Win32.processNotification u os s.world n
    let q ← s.queue.drop a
    let s := { s with world := w, queue := q }
    if r < 0 then some { s with main := .finishing r }
    else do
      let k ← load q.links next
      some (s.loopAt next k.next)
  | _ => none

/-- The second critical section; `hs_monitor_refresh` returns `r`. -/
def State.endRefresh (s : State) (r : Int) : Option State := do
  let q ← s.queue.putBack
  some { s with queue := q, main := .idle, result := r }

/-! ## `monitor_thread` -/

/-- One of the calls that make the window. -/
def State.setUp (s : State) (call : SetUp) (ok : Bool) : State :=
  match call with
  | .registerClass =>
    if ok then { s with thread := .settingUp .createWindow }
    else { s with
      thread := .leaving (hsError .system (some "RegisterClass() failed: %s")) }
  | .createWindow =>
    if ok then { s with hwnd := true, thread := .settingUp .setWindowLong }
    else { s with
      thread := .leaving (hsError .system (some "CreateWindow() failed: %s")) }
  | .setWindowLong =>
    if ok then { s with thread := .settingUp .registerNotification }
    else { s with
      thread := .leaving (hsError .system (some "SetWindowLongPtr() failed: %s")) }
  | .registerNotification =>
    if ok then { s with thread := .ready, desktop := { s.desktop with subscribed := true } }
    else { s with
      thread := .leaving (hsError .system (some "RegisterDeviceNotification() failed: %s")) }

/-- The `SetEvent` that lets `hs_monitor_new` go on. -/
def State.signalReady (s : State) : State :=
  { s with queue := s.queue.setEvent, thread := .waiting }

/-- Which allocations of `post_device_event` succeed. -/
structure PostOs where
  callocOk : Bool
  strdupOk : Bool

/-- `GetMessage` gives the next message, and `window_proc` handles it up to a critical section. -/
def State.dispatch (s : State) (os : PostOs) : Option State :=
  match s.desktop.messages with
  | [] => none
  | m :: messages =>
    let s := { s with desktop := { s.desktop with messages := messages } }
    if os.callocOk && os.strdupOk then
      let (a, q) := s.queue.alloc ⟨m.event, extractDeviceId m.name⟩
      some { s with queue := q, thread := .posting a }
    else some { s with thread := .failing (hsError .memory none) }

/-- The critical section of `post_device_event`. -/
def State.post (s : State) (a : Nat) : Option State := do
  let q ← s.queue.post a
  some { s with queue := q, thread := .waiting }

/-- The critical section of `window_proc`. -/
def State.storeError (s : State) (r : Int) : State :=
  { s with queue := (s.queue.storeRet r).setEvent, thread := .waiting }

/-- `GetMessage` fails. -/
def State.getMessageFails (s : State) : State :=
  { s with thread := .leaving (hsError .system (some "GetMessage() failed: %s")) }

/-- `GetMessage` returns 0, which follows a `WM_CLOSE`. -/
def State.quit (s : State) : Option State :=
  if s.desktop.closing then some { s with thread := .leaving 0 } else none

/-- `cleanup`, up to the store of the error. -/
def State.leave (s : State) (r : Int) : State :=
  let s := { s with desktop := { s.desktop with subscribed := false, messages := [] } }
  if r < 0 then { s with queue := s.queue.storeRet r, thread := .signalling }
  else { s with thread := .done }

/-- The `SetEvent` behind that store. -/
def State.signalError (s : State) : State :=
  { s with queue := s.queue.setEvent, thread := .done }

/-! ## The device tree -/

/-- The interface `name` of a device comes up, and the device was not there. -/
def State.arrive (s : State) (name : CStr) (node : Node) : Option State :=
  let d := s.desktop
  match d.tree (extractDeviceId name) with
  | some _ => none
  | none => some { s with
      desktop := { d with
        tree := Function.update d.tree (extractDeviceId name) (some node)
        messages := if d.subscribed then d.messages ++ [⟨.added, name⟩] else d.messages } }

/-- It goes away with its device. -/
def State.depart (s : State) (name : CStr) : Option State :=
  let d := s.desktop
  match d.tree (extractDeviceId name) with
  | none => none
  | some _ => some { s with
      desktop := { d with
        tree := Function.update d.tree (extractDeviceId name) none
        messages := if d.subscribed then d.messages ++ [⟨.removed, name⟩] else d.messages } }

/-! ## Steps -/

/-- What happens next: in the thread of the user, in the background thread, or in the system. -/
inductive Action
  | newMonitor (os : NewOs)
  | scanClass (set : Option (List CStr))
  | readDevice (os : ReadOs)
  | beginThread (ok : Bool)
  | waitEvent (ok : Bool)
  | checkRet
  | resetEvent
  | beginRefresh
  | processNotification (os : ArrivalOs)
  | endRefresh
  | freeMonitor
  | joinThread
  | register (f : Nat) (callocOk : Bool)
  | deregister (id : Nat)
  | list (f : Nat)
  | enumerate (f : Nat) (os : EnumOs)
  | user (a : UserAct)
  | setUp (ok : Bool)
  | signalReady
  | dispatch (os : PostOs)
  | post
  | storeError
  | getMessageFails
  | quit
  | leave
  | signalError
  | arrive (name : CStr) (node : Node)
  | depart (name : CStr)

/-- A call of the library that other threads cannot see. -/
def State.call (s : State) (f : World → Option World) : Option State := do
  let w ← f s.world
  some { s with world := w }

/-- Whether the thread has ended, or never ran. -/
def Thread.ended : Thread → Bool
  | .absent | .done => true
  | _ => false

/-- Whether the thread of the user is outside of the library. -/
def Main.outside : Main → Bool
  | .absent | .idle | .leaked => true
  | _ => false

/-- The steps of the thread of the user. -/
def State.mainStep (u : User) (s : State) : Main → Action → Option State
  | .absent, .newMonitor os => s.newMonitor os
  | .scanning (_ :: set) classes, .readDevice os => s.readDevice u os set classes
  | .scanning [] (_ :: classes), .scanClass set => s.scanClass set classes
  | .scanning [] [], .beginThread ok => some (s.beginThread ok)
  | .starting, .beginThread ok => some (s.beginThread ok)
  | .waiting, .waitEvent ok => s.waitEvent ok
  | .checking, .checkRet => s.checkRet
  | .resetting, .resetEvent => some s.resetEvent
  | .idle, .beginRefresh => s.beginRefresh
  | .refreshing cur next, .processNotification os => s.processNotification u os cur next
  | .finishing r, .endRefresh => s.endRefresh r
  | .idle, .freeMonitor => s.freeMonitor 0
  | .freeing r, .joinThread => if s.thread.ended then s.joinThread r else none
  | .idle, .register f callocOk => s.call fun w => do
    let (_, w) ← hsMonitorRegisterCallback w f callocOk
    some w
  | .idle, .deregister id => s.call fun w => hsMonitorDeregisterCallback w id
  | .idle, .list f => s.call fun w => do
    let (_, w) ← hsMonitorList u w f
    some w
  | main, .enumerate f os =>
    if main.outside then s.call fun w => do
      let (_, w) ← hsEnumerate (userEnumerate u f) os w
      some w
    else none
  | main, .user a => if main.outside then s.call fun w => userAct u.limit w a else none
  | _, _ => none

/-- The steps of the background thread. -/
def State.threadStep (s : State) : Thread → Action → Option State
  | .settingUp call, .setUp ok => some (s.setUp call ok)
  | .ready, .signalReady => some s.signalReady
  | .waiting, .dispatch os => s.dispatch os
  | .waiting, .getMessageFails => some s.getMessageFails
  | .waiting, .quit => s.quit
  | .posting a, .post => s.post a
  | .failing r, .storeError => some (s.storeError r)
  | .leaving r, .leave => some (s.leave r)
  | .signalling, .signalError => some s.signalError
  | _, _ => none

/-- The steps of the system. -/
def State.systemStep (s : State) : Action → Option State
  | .arrive name node => s.arrive name node
  | .depart name => s.depart name
  | _ => none

/-- One step, of the thread that has such a step. -/
def step (u : User) (s : State) (a : Action) : Option State :=
  s.mainStep u s.main a <|> s.threadStep s.thread a <|> s.systemStep a

end Libhs.Win32
