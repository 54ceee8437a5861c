import Libhs.Darwin.Enumerate

/-!
# `monitor_darwin.c`: the monitor and IOKit

IOKit announces services that arrive and USB devices that terminate. It queues them
in the iterator of a notification, and sends a message to the port of the monitor
when the notification is armed; `IOIteratorNext` arms it by finding its iterator
empty. `State` is the process with the services that are present. `step` takes one
step of the thread that runs the calls of the user, which is at a point of its
program (`Main`), or lets a service arrive or a USB device terminate.

A step ends before the next call that reads an iterator or the port, so a change
can fall between any two of them.
-/

namespace Libhs.Darwin.Monitor

/-! ## IOKit -/

/-- A service of an enumerated class: the session of its USB device, and its interface number if it
is one the library handles. -/
structure Service where
  cls : DeviceClass
  session : UInt64
  iface : Option UInt8
deriving DecidableEq, Repr

/-- An iterator with its notification. -/
structure Iterator (α : Type) where
  pending : List α
  armed : Bool

/-- `IOIteratorNext`. It promises no order, so `pick` says which object it gives. -/
def Iterator.next {α : Type} (it : Iterator α) (pick : Nat) : Option (Option α × Iterator α) :=
  if it.pending.isEmpty then some (none, { it with armed := true })
  else do
    let x ← it.pending[pick]?
    some (some x, { it with pending := it.pending.eraseIdx pick })

/-- A new object is queued. -/
def Iterator.push {α : Type} (it : Iterator α) (x : α) : Iterator α := ⟨it.pending ++ [x], false⟩

/-- A message on the port, as the callout it leads to: `darwin_devices_attached` with the iterator
of a class, or `darwin_devices_detached`. -/
inductive Callout
  | attached (c : DeviceClass)
  | detached
deriving DecidableEq, Repr

/-- What the kernel keeps: the services that are present, the sessions that have ended, the
iterators of the monitor, and its port. -/
structure Kit where
  services : List Service
  ended : List UInt64
  matched : DeviceClass → Option (Iterator Service)
  terminated : Option (Iterator UInt64)
  port : List Callout

namespace Kit

/-- Write back the iterator of a class. -/
def setMatched (k : Kit) (c : DeviceClass) (it : Iterator Service) : Kit :=
  { k with matched := Function.update k.matched c (some it) }

/-- `IOServiceAddMatchingNotification` of the arrivals of a class. -/
def addMatched (k : Kit) (c : DeviceClass) : Kit :=
  k.setMatched c ⟨k.services.filter fun v => v.cls = c, false⟩

/-- `IOServiceAddMatchingNotification` of the terminations. -/
def addTerminated (k : Kit) : Kit := { k with terminated := some ⟨[], false⟩ }

/-- The iterators and the port are released. -/
def release (k : Kit) : Kit :=
  { k with
    matched := fun _ => none
    terminated := none
    port := [] }

/-- A service arrives. A session that has ended does not come back. -/
def arrive (k : Kit) (v : Service) : Option Kit :=
  if v.session ∈ k.ended then none
  else
    let k := { k with services := v :: k.services }
    match k.matched v.cls with
    | none => some k
    | some it => some { k.setMatched v.cls (it.push v) with
        port := if it.armed then k.port ++ [.attached v.cls] else k.port }

/-- A USB device terminates, and its services with it. -/
def terminate (k : Kit) (session : UInt64) : Option Kit :=
  if session ∈ k.ended then none
  else
    let k := { k with
      services := k.services.filter fun v => v.session ≠ session
      ended := session :: k.ended }
    match k.terminated with
    | none => some k
    | some it => some { k with
        terminated := some (it.push session)
        port := if it.armed then k.port ++ [.detached] else k.port }

end Kit

/-! ## The state -/

/-- Where the thread of the user is: outside of the library (`absent`, `idle`), or in one of the
functions.

* `subscribing`, `populating`, `clearing`: in `hs_monitor_new`, before `add_notification` for the
  first of the classes that are left or for the terminations, in `process_iterator_devices`, and in
  `clear_iterator`.
* `receiving`, `attaching`, `detaching`: in `hs_monitor_refresh`, before `mach_msg`, or in one of
  the callouts. -/
inductive Main
  | absent
  | subscribing (classes : List DeviceClass)
  | populating (c : DeviceClass) (classes : List DeviceClass)
  | clearing
  | idle
  | receiving
  | attaching (c : DeviceClass)
  | detaching
deriving DecidableEq, Repr

/-- A USB device that terminated, with the log as it was then. -/
structure Termination where
  session : UInt64
  log : List Event

/-- The whole state. `result` is what the last call returned. Ghost state: `terminations`. -/
structure State where
  world : World
  kit : Kit
  notifyRet : Int
  main : Main
  result : Int
  terminations : List Termination

/-- Nothing was done yet, and `services` are present. -/
def State.start (services : List Service) : State where
  world := .start
  kit := ⟨services, [], fun _ => none, none, []⟩
  notifyRet := 0
  main := .absent
  result := 0
  terminations := []

/-! ## `hs_monitor_free` and `hs_monitor_new` -/

/-- `hs_monitor_free`, behind which the caller returns `r`. -/
def State.freeMonitor (s : State) (r : Int) : Option State := do
  let w ← hsMonitorRelease s.world
  some { s with
    world := w.freeMonitor
    kit := s.kit.release
    main := .absent
    result := r }

/-- What the system answers at the beginning of `hs_monitor_new`; `controllers` is the error that
`populate_controllers` fails with. -/
structure NewOs where
  controllers : Option HsErrorCode
  callocOk : Bool
  notifyPortOk : Bool
  kqueueOk : Bool
  portSetOk : Bool
  insertMemberOk : Bool
  keventOk : Bool
  mallocOk : Bool

/-- `hs_monitor_new` up to the loop over the classes. -/
def State.newMonitor (s : State) (os : NewOs) : Option State :=
  match os.controllers with
  | some err => some { s with result := hsError err none }
  | none =>
    if os.callocOk then
      let s := { s with
        world := s.world.allocMonitor
        notifyRet := 0 }
      if !os.notifyPortOk then
        s.freeMonitor (hsError .system (some "IONotificationPortCreate() failed"))
      else if !os.kqueueOk then s.freeMonitor (hsError .system (some "kqueue() failed: %s"))
      else if !os.portSetOk then
        s.freeMonitor (hsError .system (some "mach_port_allocate() failed"))
      else if !os.insertMemberOk then
        s.freeMonitor (hsError .system (some "mach_port_insert_member() failed"))
      else if !os.keventOk then s.freeMonitor (hsError .system (some "kevent() failed: %d"))
      else do
        let (r, w) ← hsMonitorInit s.world os.mallocOk
        let s := { s with world := w }
        if r < 0 then s.freeMonitor r else some { s with main := .subscribing deviceClasses }
    else some { s with result := hsError .memory none }

/-- `add_notification`, for the first of the classes that are left or for the terminations. -/
def State.subscribe (s : State) (ok : Bool) (classes : List DeviceClass) : Option State :=
  if ok then
    match classes with
    | c :: classes => some { s with kit := s.kit.addMatched c, main := .populating c classes }
    | [] => some { s with kit := s.kit.addTerminated, main := .clearing }
  else s.freeMonitor (hsError .system (some "IOServiceAddMatchingNotification('%s') failed"))

/-- `IOIteratorNext` on the iterator of a class, and `process_darwin_device` on what it gives. The
value is the result of `process_iterator_devices`, if this ends it. -/
def State.nextMatched (u : User) (s : State) (pick : Nat) (os : ReadOs) (c : DeviceClass) :
    Option (Option Int × State) := do
  let it ← s.kit.matched c
  let (service, it) ← it.next pick
  let s := { s with kit := s.kit.setMatched c it }
  match service with
  | none => some (some 0, s)
  | some _ => do
    let (r, w) ← processService (monitorEnumerateCallback u) os s.world
    some (if r ≠ 0 then some r else none, { s with world := w })

/-- `process_iterator_devices` in `hs_monitor_new`. -/
def State.populate (u : User) (s : State) (pick : Nat) (os : ReadOs) (c : DeviceClass)
    (classes : List DeviceClass) : Option State := do
  let (ret, s) ← s.nextMatched u pick os c
  match ret with
  | none => some s
  | some r => if r < 0 then s.freeMonitor r else some { s with main := .subscribing classes }

/-- `IOIteratorNext` on the iterator of the terminations. -/
def State.nextTerminated (s : State) (pick : Nat) : Option (Option UInt64 × State) := do
  let it ← s.kit.terminated
  let (session, it) ← it.next pick
  some (session, { s with kit := { s.kit with terminated := some it } })

/-- `clear_iterator` in `hs_monitor_new`, which then returns 0. -/
def State.clear (s : State) (pick : Nat) : Option State := do
  let (session, s) ← s.nextTerminated pick
  match session with
  | some _ => some s
  | none => some { s with main := .idle, result := 0 }

/-! ## `hs_monitor_refresh` -/

/-- `kevent`, which says whether the port has a message. -/
def State.kevent (s : State) (ok : Bool) : State :=
  if ok then
    if s.kit.port.isEmpty then { s with result := 0 } else { s with main := .receiving }
  else { s with result := hsError .system (some "kevent() failed: %s") }

/-- `mach_msg`, and the callout of the message. -/
def State.receive (s : State) (ok : Bool) : State :=
  if ok then
    match s.kit.port with
    | [] => { s with main := .idle, result := 0 }
    | .attached c :: port => { s with kit := { s.kit with port := port }, main := .attaching c }
    | .detached :: port => { s with kit := { s.kit with port := port }, main := .detaching }
  else { s with
    main := .idle
    result := hsError .system (some "mach_msg() failed") }

/-- `if (monitor->notify_ret)`, behind the callout. -/
def State.endCallout (s : State) : State :=
  if s.notifyRet ≠ 0 then { s with main := .idle, result := s.notifyRet, notifyRet := 0 }
  else { s with main := .receiving }

/-- `darwin_devices_attached`. -/
def State.attach (u : User) (s : State) (pick : Nat) (os : ReadOs) (c : DeviceClass) :
    Option State := do
  let (ret, s) ← s.nextMatched u pick os c
  match ret with
  | none => some s
  | some r => some { s with notifyRet := r }.endCallout

/-- `remove_device`; `ok` says whether the property `sessionID` could be read. -/
def removeDevice (u : User) (ok : Bool) (session : UInt64) (w : World) : Option World :=
  if ok then hsMonitorRemove u w (removalKey session) else some w

/-- `darwin_devices_detached`. -/
def State.detach (u : User) (s : State) (pick : Nat) (ok : Bool) : Option State := do
  let (session, s) ← s.nextTerminated pick
  match session with
  | none => some s.endCallout
  | some session => do
    let w ← removeDevice u ok session s.world
    some { s with world := w }

/-! ## Steps -/

/-- What happens next: in the thread of the user, or to the devices. -/
inductive Action
  | newMonitor (os : NewOs)
  | subscribe (ok : Bool)
  | attach (pick : Nat) (os : ReadOs)
  | clear (pick : Nat)
  | kevent (ok : Bool)
  | receive (ok : Bool)
  | detach (pick : Nat) (ok : Bool)
  | freeMonitor
  | register (f : Nat) (callocOk : Bool)
  | deregister (id : Nat)
  | list (f : Nat)
  | enumerate (f : Nat) (os : EnumOs)
  | user (a : UserAct)
  | arrive (v : Service)
  | terminate (session : UInt64)

/-- A call of the library that reads neither an iterator nor the port. -/
def State.call (s : State) (f : World → Option World) : Option State := do
  let w ← f s.world
  some { s with world := w }

/-- Whether the thread of the user is outside of the library. -/
def Main.outside : Main → Bool
  | .absent | .idle => true
  | _ => false

/-- The steps of the thread of the user. -/
def State.mainStep (u : User) (s : State) : Main → Action → Option State
  | .absent, .newMonitor os => s.newMonitor os
  | .subscribing classes, .subscribe ok => s.subscribe ok classes
  | .populating c classes, .attach pick os => s.populate u pick os c classes
  | .clearing, .clear pick => s.clear pick
  | .idle, .kevent ok => some (s.kevent ok)
  | .receiving, .receive ok => some (s.receive ok)
  | .attaching c, .attach pick os => s.attach u pick os c
  | .detaching, .detach pick ok => s.detach u pick ok
  | .idle, .freeMonitor => s.freeMonitor 0
  | .idle, .register f callocOk => s.call fun w => do
    let (_, w) ← hsMonitorRegisterCallback w f callocOk
    some w
  | .idle, .deregister id => s.call fun w => hsMonitorDeregisterCallback w id
  | .idle, .list f => s.call fun w => do
    let (_, w) ← hsMonitorList u w f
    some w
  | main, .enumerate f os =>
    if main.outside then s.call fun w => do
      let (_, w) ← hsEnumerate (userEnumerate u f) os w
      some w
    else none
  | main, .user a => if main.outside then s.call fun w => userAct u.limit w a else none
  | _, _ => none

/-- The steps of the system. -/
def State.systemStep (s : State) : Action → Option State
  | .arrive v => do
    let kit ← s.kit.arrive v
    some { s with kit := kit }
  | .terminate session => do
    let kit ← s.kit.terminate session
    some { s with
      kit := kit
      terminations := s.terminations ++ [⟨session, s.world.log⟩] }
  | _ => none

/-- One step. -/
def step (u : User) (s : State) (a : Action) : Option State :=
  s.mainStep u s.main a <|> s.systemStep a

end Libhs.Darwin.Monitor
