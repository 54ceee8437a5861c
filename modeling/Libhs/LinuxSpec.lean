import Libhs.Linux
import Libhs.HandOver

/-!
# The udev back-end keeps the representation

Reading devices, enumerating them, and making, refreshing and freeing a monitor keep
`Bound`, and never fail, whatever udev and the allocator answer.
-/

namespace Libhs
open Pointer

/-! ## Reading a device -/

/-- The fields that decide what happens to a device that was read. -/
structure ReadDevice (udevDev : UdevDevice) (dev : HsDevice) : Prop where
  refcount : dev.refcount = 1
  state : dev.state = .disconnected
  key : dev.key = some udevDev.devpath
  served : dev.vtable = some .posix ∨ dev.vtable = some .linuxHid

theorem strdupAttr_yields (ok : Bool) (attr : Option CStr) :
    Yields (strdupAttr ok attr) fun _ => True := by
  cases attr with
  | none => trivial
  | some buf =>
    cases ok with
    | true => trivial
    | false => exact hsError_nonpos .memory none

theorem numberOrSkip_yields (s : List UInt8) (base : Nat) :
    Yields (numberOrSkip s base) fun v => v = (strtoul s base).1 := by
  simp only [numberOrSkip]
  split
  · exact Int.le_refl 0
  · rfl

theorem computeDeviceLocation_yields (os : ReadOs) (dev : UsbAttrs) :
    Yields (computeDeviceLocation os dev) fun _ => True := by
  refine (someOrReturn_yields dev.busnum).bind fun _ _ => ?_
  refine (someOrReturn_yields dev.devpath).bind fun _ _ => ?_
  exact (orReturn_yields (hsError_nonpos .memory none) os.locationOk).bind fun _ _ => trivial

theorem driverOf_served {subsystem : CStr} {driver : HsDeviceType × Vtable}
    (h : driverOf subsystem = some driver) : driver.2 = .posix ∨ driver.2 = .linuxHid := by
  unfold driverOf at h
  split at h
  · cases h; exact Or.inr rfl
  · split at h
    · cases h; exact Or.inl rfl
    · cases h

/-- What `fill_device_details` leaves of a device, and what it makes of the udev devices. -/
structure FilledFrom (dev : HsDevice) (agg : UdevAggregate) (filled : HsDevice) : Prop where
  refcount : filled.refcount = dev.refcount
  state : filled.state = dev.state
  key : filled.key = some agg.dev.devpath
  served : filled.vtable = some .posix ∨ filled.vtable = some .linuxHid
  iface : filled.iface =
    UInt8.ofNat (strtoul [agg.iface.str.bytes.getLast agg.iface.nonempty] 10).1

theorem fillDeviceDetails_fills (os : ReadOs) (dev : HsDevice) (agg : UdevAggregate) :
    Yields (fillDeviceDetails os dev agg) (FilledFrom dev agg) := by
  have hmem := hsError_nonpos .memory none
  refine (someOrReturn_yields agg.dev.subsystem).bind fun subsystem _ => ?_
  refine (someOrReturn_yields (driverOf subsystem)).bind fun driver hdriver => ?_
  refine (someOrReturn_yields agg.dev.devnode).bind fun devnode _ => ?_
  refine (orReturn_yields (Int.le_refl 0) agg.dev.accessOk).bind fun _ _ => ?_
  refine (orReturn_yields hmem os.pathOk).bind fun _ _ => ?_
  refine (orReturn_yields hmem os.keyOk).bind fun _ _ => ?_
  refine (computeDeviceLocation_yields os agg.usb).bind fun location _ => ?_
  refine (someOrReturn_yields agg.usb.idVendor).bind fun idVendor _ => ?_
  refine (numberOrSkip_yields idVendor.bytes 16).bind fun vid _ => ?_
  refine (someOrReturn_yields agg.usb.idProduct).bind fun idProduct _ => ?_
  refine (numberOrSkip_yields idProduct.bytes 16).bind fun pid _ => ?_
  refine (strdupAttr_yields os.manufacturerOk agg.usb.manufacturer).bind fun _ _ => ?_
  refine (strdupAttr_yields os.productOk agg.usb.product).bind fun _ _ => ?_
  refine (strdupAttr_yields os.serialOk agg.usb.serial).bind fun _ _ => ?_
  refine (numberOrSkip_yields _ 10).bind fun iface hiface => ?_
  refine ⟨rfl, rfl, rfl, ?_, congrArg UInt8.ofNat hiface⟩
  rcases driverOf_served hdriver with h | h <;> simp [h]

theorem fillDeviceDetails_yields (os : ReadOs) (agg : UdevAggregate) :
    Yields (fillDeviceDetails os blankDevice agg) (ReadDevice agg.dev) :=
  (fillDeviceDetails_fills os blankDevice agg).mono fun _ hf =>
    ⟨hf.refcount, hf.state, hf.key, hf.served⟩

/-! ## The spec of a read -/

variable {u : User} {w w' : World} {R R' : Roster} {mon : Option Nat} {m d f : Nat} {D : HsDevice}
  {os : ReadOs} {udevDev : UdevDevice} {mk : World → Option ((Int × Option Nat) × World)}
  {res : Except Int HsDevice}

/-- What reading a udev device gives. -/
def UdevDevice.read (os : ReadOs) (udevDev : UdevDevice) : Except Int HsDevice :=
  match udevDev.usb, udevDev.iface with
  | some usb, some iface =>
    if os.callocOk then fillDeviceDetails os blankDevice ⟨udevDev, usb, iface⟩
    else .error (hsError .memory none)
  | _, _ => .error 0

theorem read_yields (os : ReadOs) (udevDev : UdevDevice) :
    Yields (udevDev.read os) (ReadDevice udevDev) := by
  unfold UdevDevice.read
  split
  · split
    · exact fillDeviceDetails_yields os _
    · exact hsError_nonpos .memory none
  · exact Int.le_refl 0

theorem ReadDevice.made {D : HsDevice} (h : ReadDevice udevDev D) : Made udevDev.devpath D where
  refcount := h.refcount
  state := h.state
  key := h.key
  driver := by
    rcases h.served with hv | hv <;> rw [hv] <;> exact Option.some_ne_none _

/-- `read_device_information` either fails and leaves nothing behind, or makes a device. -/
theorem readDeviceInformation_makes (os : ReadOs) (udevDev : UdevDevice) :
    Makes (readDeviceInformation os udevDev) (udevDev.read os) := by
  have hnothing := makes_nothing (e := 0) (Int.le_refl 0)
  unfold readDeviceInformation UdevDevice.read
  cases udevDev.usb with
  | none => exact hnothing
  | some usb =>
    cases udevDev.iface with
    | none => exact hnothing
    | some iface =>
      refine makes_of_fill ?_
      have hy := fillDeviceDetails_yields os ⟨udevDev, usb, iface⟩
      cases hfill : fillDeviceDetails os blankDevice ⟨udevDev, usb, iface⟩ with
      | error r =>
        rw [hfill] at hy
        exact hy
      | ok D =>
        rw [hfill] at hy
        exact ⟨_, ReadDevice.made hy⟩

/-! ## Events -/

/-- The list version of one event of `hs_monitor_refresh`. A device that is read is a new object
`d`, whose status was never looked at. -/
def RefreshesOne (u : User) (m : Nat) (udevDev : UdevDevice) (os : ReadOs) (R : Roster) (r : Int)
    (R' : Roster) : Prop :=
  if udevDev.action.is "add" then
    ∃ d, R.Unused d ∧ match udevDev.read os with
      | .error e => r = e ∧ R' = R.setStatus d .disconnected
      | .ok D => (r, R') = (R.setStatus d .disconnected).add u m ⟨d, udevDev.devpath, D.iface⟩
  else if udevDev.action.is "remove" then r = 0 ∧ R' = R.remove u m udevDev.devpath
  else r = 0 ∧ R' = R

/-- The calls of a refresh that add a device are the ones of an enumeration. -/
theorem addOrDrop_eq (hr : Rep w m R) (hmk : Makes mk res) : (do
    let ((r, dev), w) ← mk w
    let (r, w) ←
      if r > 0 then do
        let d ← dev
        hsMonitorAdd u w d
      else some (r, w)
    let w ← w.unrefBusy dev
    some (r, w)) = handOver mk (fun d w => hsMonitorAdd u w d) w := by
  have hb : Bound (some m) w R := hr
  obtain ⟨r, dev, w₁, e, -, hback⟩ := hmk.spec hb
  have hy := hmk.made
  cases res with
  | error e' =>
    obtain ⟨rfl, rfl, -⟩ := hback
    have hle : r ≤ 0 := hy
    have hpos : ¬ r > 0 := Int.not_lt.mpr hle
    simp only [handOver, e, hle, hpos, ↓reduceIte, Option.bind_eq_bind, Option.bind_some,
      World.unrefBusy, hsDeviceUnref]
  | ok D =>
    obtain ⟨rfl, rfl, -, -⟩ := hback
    have hpos : ¬ (1 : Int) ≤ 0 := by decide
    simp only [handOver, e, hpos, gt_iff_lt, Int.zero_lt_one, ↓reduceIte, Option.bind_eq_bind,
      Option.bind_some]

theorem refreshOne_spec (hu : u.limit ≤ uintMod) (hr : Rep w m R) (udevDev : UdevDevice)
    (os : ReadOs) :
    ∃ r w' R', refreshOne u udevDev os w = some (r, w') ∧ Rep w' m R' ∧ w'.busy = w.busy ∧
      RefreshesOne u m udevDev os R r R' := by
  by_cases hadd : udevDev.action.is "add"
  · have hmk := readDeviceInformation_makes os udevDev
    obtain ⟨r, w', R', e, hr', hb, d, hnew, hadds⟩ := handOver_add_spec hu hr hmk
    refine ⟨r, w', R', ?_, hr', hb, ?_⟩
    · rw [refreshOne, if_pos hadd]
      exact (addOrDrop_eq hr hmk).trans e
    · rw [RefreshesOne, if_pos hadd]
      refine ⟨d, hnew, ?_⟩
      have hy := read_yields os udevDev
      cases hres : udevDev.read os with
      | error e =>
        rw [hres] at hadds
        exact hadds
      | ok D =>
        rw [hres] at hadds hy
        obtain ⟨key, hkey, h⟩ := hadds
        have hdev := hy.key
        rw [hkey] at hdev
        cases hdev
        exact h
  · by_cases hrem : udevDev.action.is "remove"
    · obtain ⟨w', e, hr', hb⟩ := monitorRemove_spec hu hr udevDev.devpath
      refine ⟨0, w', _, ?_, hr', hb, ?_⟩
      · simp only [refreshOne, hadd, hrem, ↓reduceIte, Bool.false_eq_true, e, Option.bind_eq_bind,
          Option.bind_some]
      · rw [RefreshesOne, if_neg hadd, if_pos hrem]
        exact ⟨rfl, rfl⟩
    · refine ⟨0, w, R, ?_, hr, rfl, ?_⟩
      · simp only [refreshOne, hadd, hrem, ↓reduceIte, Bool.false_eq_true]
      · rw [RefreshesOne, if_neg hadd, if_neg hrem]
        exact ⟨rfl, rfl⟩

/-- The list version of `hs_monitor_refresh`. -/
inductive Refreshes (u : User) (m : Nat) (nomem : Bool) :
    List (UdevDevice × ReadOs) → Roster → Int → List (UdevDevice × ReadOs) → Roster → Prop
  | drained {R : Roster} :
    Refreshes u m nomem [] R (if nomem then hsError .memory none else 0) [] (R.emit (.receive false))
  | abort {udevDev : UdevDevice} {os : ReadOs} {queue : List (UdevDevice × ReadOs)} {R R' : Roster}
    {r : Int} : RefreshesOne u m udevDev os (R.emit (.receive true)) r R' → r < 0 →
      Refreshes u m nomem ((udevDev, os) :: queue) R r queue R'
  | next {udevDev : UdevDevice} {os : ReadOs} {queue rest : List (UdevDevice × ReadOs)}
    {R R₁ R' : Roster} {r₁ r : Int} : RefreshesOne u m udevDev os (R.emit (.receive true)) r₁ R₁ →
      ¬ r₁ < 0 → Refreshes u m nomem queue R₁ r rest R' →
      Refreshes u m nomem ((udevDev, os) :: queue) R r rest R'

theorem refreshesOne_routine {r : Int} (h : RefreshesOne u m udevDev os R r R') :
    Routine R.log R'.log := by
  unfold RefreshesOne at h
  split at h
  · obtain ⟨d, -, h⟩ := h
    cases hres : udevDev.read os with
    | error e =>
      rw [hres] at h
      obtain ⟨-, rfl⟩ := h
      exact .refl R.log
    | ok D =>
      rw [hres] at h
      rw [show R' = _ from congrArg Prod.snd h]
      exact add_routine (R := R.setStatus d .disconnected)
  · split at h
    · obtain ⟨-, rfl⟩ := h
      exact remove_routine
    · obtain ⟨-, rfl⟩ := h
      exact .refl _

/-- A refresh frees no monitor and shows no enumerated device. -/
theorem refreshes_routine {nomem : Bool} {queue rest : List (UdevDevice × ReadOs)} {r : Int}
    (h : Refreshes u m nomem queue R r rest R') : Routine R.log R'.log := by
  induction h with
  | drained => exact .snoc rfl
  | abort hone _ => exact (Routine.snoc rfl).trans (refreshesOne_routine hone)
  | next hone _ _ ih => exact ((Routine.snoc rfl).trans (refreshesOne_routine hone)).trans ih

theorem receive_continues (got : Bool) : Continues w.log (w.log ++ [.receive got]) :=
  Continues.snoc _ (fun _ => rfl) fun _ _ h => nomatch h

theorem monitorRefresh_spec (hu : u.limit ≤ uintMod) (hr : Rep w m R)
    (queue : List (UdevDevice × ReadOs)) (nomem : Bool) :
    ∃ r rest w' R', hsMonitorRefresh u queue nomem w = some ((r, rest), w') ∧ Rep w' m R' ∧
      w'.busy = w.busy ∧ Refreshes u m nomem queue R r rest R' := by
  induction queue generalizing w R with
  | nil => exact ⟨_, _, _, _, rfl, hr.emit _ (receive_continues false), rfl, .drained⟩
  | cons ev queue ih =>
    obtain ⟨udevDev, os⟩ := ev
    obtain ⟨r, w₁, R₁, e₁, hr₁, hb₁, hone⟩ :=
      refreshOne_spec hu (hr.emit _ (receive_continues true)) udevDev os
    by_cases hneg : r < 0
    · refine ⟨r, queue, w₁, R₁, ?_, hr₁, hb₁, .abort hone hneg⟩
      simp only [hsMonitorRefresh, e₁, hneg, ↓reduceIte, Option.bind_eq_bind, Option.bind_some]
    · obtain ⟨r', rest, w', R', e, hr', hb, hrest⟩ := ih hr₁
      refine ⟨r', rest, w', R', ?_, hr', hb.trans hb₁, .next hone hneg hrest⟩
      simp only [hsMonitorRefresh, e₁, hneg, ↓reduceIte, Option.bind_eq_bind, Option.bind_some, e]

/-! ## Enumeration -/

open Keyed in
/-- What an enumerated entry adds to the table. -/
def EnumEntry.change : EnumEntry → Option (Change CStr UInt8)
  | .device udevDev os =>
    match udevDev.read os with
    | .ok D => some (.add udevDev.devpath D.iface)
    | .error _ => none
  | _ => none

/-- Reading an entry, and what that gives. -/
def EnumEntry.made : EnumEntry →
    (World → Option ((Int × Option Nat) × World)) × Except Int HsDevice
  | .nomem => (fun w => some ((hsError .memory none, none), w), .error (hsError .memory none))
  | .gone => (fun w => some ((0, none), w), .error 0)
  | .device udevDev os => (readDeviceInformation os udevDev, udevDev.read os)

theorem entry_makes (entry : EnumEntry) : Makes entry.made.1 entry.made.2 := by
  cases entry with
  | nomem => exact makes_nothing (hsError_nonpos .memory none)
  | gone => exact makes_nothing (Int.le_refl 0)
  | device udevDev os => exact readDeviceInformation_makes os udevDev

theorem entry_change (entry : EnumEntry) : addChange entry.made.2 = entry.change := by
  cases entry with
  | nomem => rfl
  | gone => rfl
  | device udevDev os =>
    have hy := read_yields os udevDev
    simp only [EnumEntry.made, EnumEntry.change]
    cases hres : udevDev.read os with
    | error e => rfl
    | ok D =>
      rw [hres] at hy
      simp only [addChange, hy.key, Option.map_some]

theorem enumerateLoop_eq (f : EnumCallback) (entries : List EnumEntry) (w : World) :
    enumerateLoop f entries w = handEach f ((entries.map EnumEntry.made).map Prod.fst) w := by
  induction entries generalizing w with
  | nil => rfl
  | cons entry entries ih =>
    simp only [List.map_cons, handEach, handOver]
    cases entry with
    | nomem =>
      have hneg := hsError_neg .memory none
      simp [enumerateLoop, EnumEntry.made, Int.le_of_lt hneg, hneg.ne]
    | gone => simp [enumerateLoop, EnumEntry.made, ih]
    | device udevDev os =>
      simp only [enumerateLoop, EnumEntry.made]
      cases hread : readDeviceInformation os udevDev w with
      | none => rfl
      | some res =>
        obtain ⟨⟨r, dev⟩, w₁⟩ := res
        simp only [Option.bind_eq_bind, Option.bind_some]
        rcases lt_trichotomy r 0 with hr | rfl | hr
        · simp [hr, Int.le_of_lt hr, hr.ne]
        · simp [ih]
        · have hneg : ¬ r < 0 := Int.not_lt.mpr (Int.le_of_lt hr)
          have hle : ¬ r ≤ 0 := Int.not_le.mpr hr
          simp only [hneg, hle, hr.ne', ↓reduceIte, Option.bind_assoc, Option.bind_some, ih]

/-- The enumeration at the start of a monitor. -/
theorem enumerateLoop_spec (hu : u.limit ≤ uintMod) (hs : Settled w (some m) R)
    (hl : R.listeners = []) (entries : List EnumEntry) :
    ∃ r w' R', enumerateLoop (monitorEnumerateCallback u) entries w = some (r, w') ∧
      Settled w' (some m) R' ∧ R'.listeners = [] ∧ Routine R.log R'.log ∧ r ≤ 0 ∧
      (r = 0 → R'.pairs = Keyed.replay R.pairs (entries.filterMap EnumEntry.change) ∧
        ∀ entry ∈ entries, ∀ e < 0, entry.made.2 ≠ .error e) := by
  have hzs : ∀ z ∈ entries.map EnumEntry.made, Makes z.1 z.2 := by
    intro z hz
    obtain ⟨entry, -, rfl⟩ := List.mem_map.mp hz
    exact entry_makes entry
  have hchange : (entries.map EnumEntry.made).filterMap (fun z => addChange z.2) =
      entries.filterMap EnumEntry.change := by
    rw [List.filterMap_map]
    exact List.filterMap_congr fun entry _ => entry_change entry
  have h := handEach_add_spec hu hs hl hzs
  simpa only [← enumerateLoop_eq, hchange, List.forall_mem_map] using h

/-- A plain enumeration gets to no device that it can read. -/
def EnumOs.findsNone (os : EnumOs) : Prop :=
  (os.udevOk && os.newOk && os.matchOk && os.scanOk) = true →
    FindsNone ((os.entries.map EnumEntry.made).map Prod.snd)

/-- A plain enumeration leaves the monitor alone. -/
theorem userEnumerate_spec (hu : u.limit ≤ uintMod) (hb : Bound mon w R) (f : Nat)
    (entries : List EnumEntry) :
    ∃ r w' R', enumerateLoop (userEnumerate u f) entries w = some (r, w') ∧ Bound mon w' R' ∧
      w'.busy = w.busy ∧ R.Keeps R' ∧
      (FindsNone ((entries.map EnumEntry.made).map Prod.snd) → R'.log = R.log) := by
  have hzs : ∀ z ∈ entries.map EnumEntry.made, Makes z.1 z.2 := by
    intro z hz
    obtain ⟨entry, -, rfl⟩ := List.mem_map.mp hz
    exact entry_makes entry
  simpa only [← enumerateLoop_eq] using handEach_user_spec hu hb hzs f

/-- `hs_enumerate` fails before its loop, or is the loop. -/
theorem enumerate_cases (f : EnumCallback) (os : EnumOs) (w : World) :
    (∃ r, r < 0 ∧ hsEnumerate f os w = some (r, w)) ∨
      ((os.udevOk && os.newOk && os.matchOk && os.scanOk) = true ∧
        hsEnumerate f os w = enumerateLoop f os.entries w) := by
  unfold hsEnumerate initUdev
  cases os.udevOk with
  | false =>
    refine Or.inl ⟨_, hsError_neg .system (some "udev_new() failed"), ?_⟩
    simp [hsError_neg]
  | true =>
    cases os.newOk with
    | false => exact Or.inl ⟨_, hsError_neg .memory none, by simp⟩
    | true =>
      cases os.matchOk with
      | false => exact Or.inl ⟨_, hsError_neg .memory none, by simp⟩
      | true =>
        cases os.scanOk with
        | false =>
          refine Or.inl ⟨_, hsError_neg .system (some "udev_enumerate_scan_devices() failed"), ?_⟩
          simp
        | true => exact Or.inr ⟨rfl, by simp⟩

/-! ## Making and freeing the monitor -/

theorem monitorFree_spec (hs : Settled w (some m) R) :
    ∃ w', hsMonitorFree w = some w' ∧ Settled w' none R.release := by
  obtain ⟨w₁, e, hi, hb⟩ := monitorRelease_spec hs.bound
  refine ⟨w₁.freeMonitor, ?_, hi, hs.ok.release, hb.trans hs.busy⟩
  have hm : w.monitor = some m := hs.bound.monitor
  simp only [hsMonitorFree, hm, e, Option.bind_eq_bind, Option.bind_some]

theorem monitorFree_blank (hs : Settled w none R) {links : Links CbRef}
    (hh : links .head = some ⟨none, none⟩ ∨ DRing links .head []) :
    ∃ w', hsMonitorFree { w.allocMonitor with links := links } = some w' ∧
      Settled w' none R.release := by
  obtain ⟨w₁, e, hi, hb⟩ := releaseBlank_spec hs.bound hh
  refine ⟨w₁.freeMonitor, ?_, hi, hs.ok.release, hb.trans hs.busy⟩
  simp only [hsMonitorFree, World.allocMonitor] at e ⊢
  simp only [e, Option.bind_eq_bind, Option.bind_some]

/-- Whether `hs_monitor_new` gets to the allocation of a monitor, and has it. -/
def NewOs.allocates (os : NewOs) : Bool := os.udevOk && os.callocOk

/-- Everything works in `hs_monitor_new`, and in the enumeration it makes. -/
structure NewOs.Works (os : NewOs) : Prop where
  allocates : os.allocates = true
  monitor : (os.netlinkOk && os.filterOk && os.receivingOk && os.mallocOk) = true
  enumerate : (os.enumerate.udevOk && os.enumerate.newOk && os.enumerate.matchOk &&
    os.enumerate.scanOk) = true
  entries : ∀ entry ∈ os.enumerate.entries, ∀ e < 0, entry.made.2 ≠ .error e

/-- How `hs_monitor_new` ends: it fails and leaves no monitor, or makes one that holds the enumerated
devices. -/
def NewMonitor (os : NewOs) (m : Nat) (R : Roster) (r : Int) (w' : World) (R' : Roster) : Prop :=
  (r < 0 ∧ Settled w' none R' ∧
      R'.log.count .released = R.log.count .released + os.allocates.toNat) ∨
    (r = 0 ∧ os.Works ∧ Settled w' (some m) R' ∧ R'.listeners = [] ∧
      R'.pairs = Keyed.replay ∅ (os.enumerate.entries.filterMap EnumEntry.change))

/-- A failure before there is a monitor. -/
theorem newMonitor_none {os : NewOs} (hs : Settled w none R) (hno : os.allocates = false) {r : Int}
    (hneg : r < 0) : ∃ r' w' R', (do
        let w ← hsMonitorFree w
        some (r, w)) = some (r', w') ∧ NewMonitor os w.monitors R r' w' R' ∧
      NoFinds R.log R'.log := by
  have hm : w.monitor = none := hs.bound.monitor
  refine ⟨r, w, R, ?_, Or.inl ⟨hneg, hs, by rw [hno]; rfl⟩, .refl R.log⟩
  simp only [hsMonitorFree, hm, Option.bind_eq_bind, Option.bind_some]

/-- A failure before the lists of the monitor are set up. -/
theorem newMonitor_blank {os : NewOs} (hs : Settled w none R) (hyes : os.allocates = true)
    {links : Links CbRef} (hh : links .head = some ⟨none, none⟩ ∨ DRing links .head []) {r : Int}
    (hneg : r < 0) : ∃ r' w' R', (do
        let w ← hsMonitorFree { w.allocMonitor with links := links }
        some (r, w)) = some (r', w') ∧ NewMonitor os w.monitors R r' w' R' ∧
      NoFinds R.log R'.log := by
  obtain ⟨w', e, hs'⟩ := monitorFree_blank hs hh
  refine ⟨r, w', R.release, ?_, Or.inl ⟨hneg, hs', ?_⟩, released_noFinds R.log⟩
  · simp only [e, Option.bind_eq_bind, Option.bind_some]
  · rw [release_count, hyes]
    rfl

/-- A failure of the enumeration. -/
theorem newMonitor_freed {os : NewOs} {R₂ : Roster} (hs : Settled w (some m) R₂)
    (hyes : os.allocates = true) (hrout : Routine R.log R₂.log) {r : Int} (hneg : r < 0) :
    ∃ r' w' R', (do
        let w ← hsMonitorFree w
        some (r, w)) = some (r', w') ∧ NewMonitor os m R r' w' R' ∧ NoFinds R.log R'.log := by
  obtain ⟨w', e, hs'⟩ := monitorFree_spec hs
  refine ⟨r, w', R₂.release, ?_, Or.inl ⟨hneg, hs', ?_⟩,
    hrout.noFinds.trans (released_noFinds R₂.log)⟩
  · simp only [e, Option.bind_eq_bind, Option.bind_some]
  · rw [release_count, hrout.released, hyes]
    rfl

/-- The enumeration of a monitor that was set up. -/
theorem newMonitor_enumerates {os : NewOs} (hu : u.limit ≤ uintMod)
    (hs : Settled w (some m) R.fresh) (hyes : os.allocates = true)
    (hmade : (os.netlinkOk && os.filterOk && os.receivingOk && os.mallocOk) = true) :
    ∃ r w' R', (do
        let (r, w) ← hsEnumerate (monitorEnumerateCallback u) os.enumerate w
        if r < 0 then do
          let w ← hsMonitorFree w
          some (r, w)
        else some (0, w)) = some (r, w') ∧ NewMonitor os m R r w' R' ∧ NoFinds R.log R'.log := by
  rcases enumerate_cases (monitorEnumerateCallback u) os.enumerate w with
    ⟨r, hneg, e⟩ | ⟨hflags, e⟩
  · simp only [e, Option.bind_eq_bind, Option.bind_some, hneg, ↓reduceIte]
    exact newMonitor_freed hs hyes (.refl R.log) hneg
  · obtain ⟨r, w₂, R₂, e₂, hs₂, hl₂, hrout, hle, hp⟩ :=
      enumerateLoop_spec hu hs rfl os.enumerate.entries
    simp only [e, e₂, Option.bind_eq_bind, Option.bind_some]
    by_cases hneg : r < 0
    · rw [if_pos hneg]
      exact newMonitor_freed hs₂ hyes hrout hneg
    · rw [if_neg hneg]
      have hz : r = 0 := Int.le_antisymm hle (Int.not_lt.mp hneg)
      have hworks : os.Works := ⟨hyes, hmade, hflags, (hp hz).2⟩
      refine ⟨0, w₂, R₂, rfl, Or.inr ⟨rfl, hworks, hs₂, hl₂, ?_⟩, hrout.noFinds⟩
      rw [(hp hz).1]
      congr 1
      ext p
      simp [Roster.pairs, Roster.fresh]

theorem monitorNew_spec (hu : u.limit ≤ uintMod) (hs : Settled w none R) (os : NewOs) :
    ∃ r w' R', hsMonitorNew u os w = some (r, w') ∧ NewMonitor os w.monitors R r w' R' ∧
      NoFinds R.log R'.log := by
  unfold hsMonitorNew
  cases hudev : os.udevOk with
  | false =>
    have hno : os.allocates = false := by simp [NewOs.allocates, hudev]
    simpa [initUdev, hsError_neg] using newMonitor_none hs hno (hsError_neg .system _)
  | true =>
    simp only [initUdev, ↓reduceIte, Int.lt_irrefl]
    cases hcalloc : os.callocOk with
    | false =>
      have hno : os.allocates = false := by simp [NewOs.allocates, hcalloc]
      simpa using newMonitor_none hs hno (hsError_neg .memory none)
    | true =>
      have hyes : os.allocates = true := by simp [NewOs.allocates, hudev, hcalloc]
      have hzero : w.allocMonitor.links .head = some ⟨none, none⟩ ∨
          DRing w.allocMonitor.links .head [] := Or.inl (by simp [World.allocMonitor])
      cases hnetlink : os.netlinkOk with
      | false => simpa using newMonitor_blank hs hyes hzero (hsError_neg .system _)
      | true =>
        cases hfilter : os.filterOk with
        | false => simpa using newMonitor_blank hs hyes hzero (hsError_neg .system _)
        | true =>
          cases hreceiving : os.receivingOk with
          | false => simpa using newMonitor_blank hs hyes hzero (hsError_neg .system _)
          | true =>
            simp only [Bool.not_true, Bool.false_eq_true, ↓reduceIte, Option.bind_eq_bind]
            cases hmalloc : os.mallocOk with
            | false =>
              obtain ⟨links, hinit, hring⟩ := monitorInit_fails w
              simp only [hinit, Option.bind_some, hsError_neg, ↓reduceIte]
              exact newMonitor_blank hs hyes (Or.inr hring) (hsError_neg .memory none)
            | true =>
              obtain ⟨w₁, e₁, hr₁, hb₁⟩ := monitorInit_spec hs.bound
              simp only [e₁, Option.bind_some, Int.lt_irrefl, ↓reduceIte]
              have hs₁ : Settled w₁ (some w.monitors) R.fresh :=
                ⟨hr₁, ok_fresh (Idle.life hs.bound hs.ok), hb₁.trans hs.busy⟩
              exact newMonitor_enumerates hu hs₁ hyes
                (by simp [hnetlink, hfilter, hreceiving, hmalloc])

end Libhs
