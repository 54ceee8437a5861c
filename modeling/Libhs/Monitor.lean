import Libhs.Device

/-!
# `monitor.c`: the device monitor

The functions of `monitor.c` as the source computes them: callback registration,
dispatch of notifications, and the device table. Calls into user code go through
`runUser`; a callback does not call back into the monitor.
-/

namespace Libhs
open Pointer

/-- Call the function `f` of the user on the device `d`; `mk` makes the log entry. -/
def runUser (u : User) (f : Nat) (mk : Notice → Int → Event) (w : World) (d : Nat) :
    Option (Int × World) := do
  let D ← w.devs.get d
  let re := u.react w.log f (D.notice d)
  let w := { w with views := w.views ++ [⟨w.log, d, w.toStore⟩] }
  let w ← userActs u.limit w re.acts
  some (re.ret, w.emit (mk (D.notice d) re.ret))

/-! ## Callbacks -/

/-- `free` of a callback record, with its list node. -/
def World.freeCallback (w : World) (a : Nat) : Option World := do
  let cbs ← w.cbs.free a
  some { w with cbs := cbs, links := Function.update w.links (.record a) none }

/-- `calloc` of a callback record. -/
def World.allocCallback (w : World) (c : Callback) : Nat × World :=
  (w.cbs.brk, { w with
    cbs := (w.cbs.alloc c).2
    links := Function.update w.links (.record w.cbs.brk) (some ⟨none, none⟩) })

/-- `hs_monitor_register_callback`; `callocOk` says whether the record could be allocated. -/
def hsMonitorRegisterCallback (w : World) (f : Nat) (callocOk : Bool) : Option (Int × World) :=
  if callocOk then do
    let id := w.callbackId
    let (a, w) := w.allocCallback ⟨id, f⟩
    let w := { w with callbackId := id + 1 }
    let links ← hsListAddTail w.links .head (.record a)
    some (id, { w with links := links })
  else
    some (hsError .memory none, w)

/-- `drop_callback`. -/
def dropCallback (w : World) (a : Nat) : Option World := do
  let links ← hsListRemove w.links (.record a)
  World.freeCallback { w with links := links } a

/-- The loop body of `hs_monitor_deregister_callback`. -/
def deregisterBody (id : Nat) : CbRef → World → Option (Flow Int × World)
  | .head, _ => none
  | .record a, w => do
    let callback ← w.cbs.get a
    if callback.id = id then do
      let w ← dropCallback w a
      some (.brk, w)
    else some (.next, w)

/-- `hs_monitor_deregister_callback`. -/
def hsMonitorDeregisterCallback (w : World) (id : Nat) : Option World := do
  let (_, w) ← hsListForeach World.links .head (deregisterBody id) w.listFuel w
  some w

/-- `&dev->monitor->callbacks`: the list of the current monitor. -/
def callbacksOf (w : World) (d : Nat) : Option CbRef := do
  let D ← w.devs.get d
  let m ← D.monitor
  if w.monitor = some m then some .head else none

/-- The loop body of `trigger_callbacks`. The loop macro evaluates its list again in each round. -/
def triggerBody (u : User) (d : Nat) : CbRef → World → Option (Flow Int × World)
  | .head, _ => none
  | .record a, w => do
    let callback ← w.cbs.get a
    let (r, w) ← runUser u callback.f (.notify callback.id) w d
    if r < 0 then some (.ret r, w)
    else if r ≠ 0 then do
      let w ← dropCallback w a
      let _ ← callbacksOf w d
      some (.next, w)
    else do
      let _ ← callbacksOf w d
      some (.next, w)

/-- The value of a function that returns 0 unless its loop returned. -/
def exitValue {ρ : Type} : Exit ρ Int → Int
  | .ret r => r
  | _ => 0

/-- `trigger_callbacks`. -/
def triggerCallbacks (u : User) (w : World) (d : Nat) : Option (Int × World) := do
  let list ← callbacksOf w d
  let (e, w) ← hsListForeach World.links list (triggerBody u d) w.listFuel w
  some (exitValue e, w)

/-! ## The monitor -/

/-- `calloc` of a monitor. -/
def World.allocMonitor (w : World) : World :=
  { w with
    monitor := some w.monitors
    monitors := w.monitors + 1
    callbackId := 0
    links := Function.update w.links .head (some ⟨none, none⟩)
    table := { w.table with size := 0, heads := fun _ => none } }

/-- `free` of the monitor. -/
def World.freeMonitor (w : World) : World :=
  { w with
    monitor := none
    links := Function.update w.links .head none
    table := { w.table with size := 0, heads := fun _ => none } }

/-- `_hs_monitor_init`; `mallocOk` says whether the bucket array could be allocated. -/
def hsMonitorInit (w : World) (mallocOk : Bool) : Option (Int × World) := do
  let links ← hsListInit w.links .head
  let (r, table) := hsHtableInit w.table 64 mallocOk
  some (r, { w with links := links, table := table })

/-- The first loop body of `_hs_monitor_release`. -/
def releaseCallbackBody : CbRef → World → Option (Flow Int × World)
  | .head, _ => none
  | .record a, w => do
    let w ← w.freeCallback a
    some (.next, w)

/-- The second loop body of `_hs_monitor_release`. -/
def releaseDeviceBody (d : Nat) (w : World) : Option (Flow Int × World) := do
  let D ← w.devs.get d
  let w ← w.setDev d { D with monitor := none }
  let w ← hsDeviceUnref w (some d)
  some (.next, w)

/-- `_hs_monitor_release`. -/
def hsMonitorRelease (w : World) : Option World := do
  let (_, w) ← hsListForeach World.links .head releaseCallbackBody w.listFuel w
  let (_, w) ← hsHtableForeach (fun w => w.table) releaseDeviceBody w.tableFuel w
  some ({ w with table := hsHtableRelease w.table }.emit .released)

/-- The loop body of `_hs_monitor_add`. -/
def addBody (key : CStr) (iface : UInt8) (d : Nat) (w : World) : Option (Flow Int × World) := do
  let dev2 ← w.devs.get d
  let key2 ← dev2.key
  if key2 = key ∧ dev2.iface = iface then some (.ret 0, w) else some (.next, w)

/-- `_hs_monitor_add`. -/
def hsMonitorAdd (u : User) (w : World) (d : Nat) : Option (Int × World) := do
  let dev ← w.devs.get d
  let key ← dev.key
  let (e, w) ← hsHtableForeachHash (fun w => w.table) (hsHtableHashStr key)
    (addBody key dev.iface) w.tableFuel w
  match e with
  | .ret r => some (r, w)
  | _ => do
    let w ← w.setDev d { dev with monitor := w.monitor, state := .online }
    let w ← hsDeviceRef w d
    let table ← hsHtableAdd w.table (hsHtableHashStr key) d
    triggerCallbacks u ({ w with table := table }.emit (.inserted d key)) d

/-- The loop body of `_hs_monitor_remove`. -/
def removeBody (u : User) (key : CStr) (d : Nat) (w : World) : Option (Flow Int × World) := do
  let dev ← w.devs.get d
  let key2 ← dev.key
  if key2 = key then do
    let w ← w.setDev d { dev with state := .disconnected }
    let (_, w) ← triggerCallbacks u (w.emit (.gone d)) d
    let table ← hsHtableRemove w.tableFuel w.table d
    let w ← hsDeviceUnref { w with table := table } (some d)
    some (.next, w)
  else some (.next, w)

/-- `_hs_monitor_remove`. -/
def hsMonitorRemove (u : User) (w : World) (key : CStr) : Option World := do
  let w := w.emit (.removal key)
  let (_, w) ← hsHtableForeachHash (fun w => w.table) (hsHtableHashStr key) (removeBody u key)
    w.tableFuel w
  some (w.emit (.removed key))

/-- The loop body of `hs_monitor_list`. -/
def listBody (u : User) (f : Nat) (d : Nat) (w : World) : Option (Flow Int × World) := do
  let (r, w) ← runUser u f .visit w d
  if r ≠ 0 then some (.ret r, w) else some (.next, w)

/-- `hs_monitor_list`. -/
def hsMonitorList (u : User) (w : World) (f : Nat) : Option (Int × World) := do
  let (r, w) ← hsHtableForeach (fun w => w.table) (listBody u f) w.tableFuel w
  some (r.getD 0, w)

/-! ## Enumerating -/

/-- A function that is called on each enumerated device. -/
abbrev EnumCallback := Nat → World → Option (Int × World)

/-- How a device that `mk` makes is handed on: `f` gets it when `mk` returned 1, and then the
reference of the maker is dropped. -/
def handOver (mk : World → Option ((Int × Option Nat) × World)) (f : EnumCallback) (w : World) :
    Option (Int × World) := do
  let ((r, dev), w) ← mk w
  if r ≤ 0 then some (r, w)
  else do
    let d ← dev
    let (r, w) ← f d w
    let w ← w.unrefBusy (some d)
    some (r, w)

/-- What a plain `hs_enumerate` calls, with the callback `f` of the user. -/
def userEnumerate (u : User) (f : Nat) : EnumCallback := fun d w => runUser u f .found w d

/-- `monitor_enumerate_callback`. -/
def monitorEnumerateCallback (u : User) : EnumCallback := fun d w => hsMonitorAdd u w d

end Libhs
