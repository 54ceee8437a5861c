import Libhs.Conservation
import Libhs.Darwin.Moves
import Libhs.Win32.Moves

/-!
# The status of a device that user code has seen

What a monitor shows to user code is online until the monitor begins to remove its
key, and disconnected once the key is removed; `hs_device_open` follows the status
(`Tells`). A device of a plain enumeration never becomes online, so that `Lifecycle`
holds of the runs in which no plain enumeration shows a device (`lifecycle_kept`,
`lifecycle_breaks`).
-/

namespace Libhs
open Pointer Run

/-! ## What is promised -/

/-- User code has seen the device. -/
def Shown (log : List Event) (d : Nat) : Prop := ∃ ev ∈ log, ev.shown = some d

/-- `hs_device_open` calls the open function of a driver. -/
def OpensBy (devs : Heap HsDevice) (d : Nat) : Prop :=
  ∃ vtable, ∀ (drivers : Drivers) (os : OpenOs) (w : World), w.devs = devs →
    hsDeviceOpenWith drivers os w d = drivers vtable os w d

/-- `hs_device_open` fails, and neither writes `*rh` nor changes anything. -/
def Refuses (devs : Heap HsDevice) (d : Nat) : Prop :=
  ∀ (drivers : Drivers) (os : OpenOs) (w : World), w.devs = devs →
    hsDeviceOpenWith drivers os w d =
      some (⟨hsError .notFound (some "Device '%s' is not connected"), none⟩, w)

/-- The status of every device that exists and was handed out says where its life stands. -/
structure Tells (log : List Event) (devs : Heap HsDevice) (handed : Nat → Prop) : Prop where
  online : ∀ d D, devs.get d = some D → handed d → ¬ RemovalBegun log d →
    D.state = .online ∧ OpensBy devs d
  gone : ∀ d D, devs.get d = some D → Removed log d → D.state = .disconnected ∧ Refuses devs d

/-- The promise holds, and held whenever user code ran. -/
structure World.Lifecycle (w : World) : Prop where
  now : Tells w.log w.devs (Shown w.log)
  views : ∀ v ∈ w.views, Tells v.log v.store.devs fun d => d = v.dev ∨ Shown v.log d

/-! ## One moment -/

variable {u : User} {w : World} {R R' : Roster} {log : List Event} {st : Store} {d : Nat}
  {D : HsDevice} {ms : List (Nat × CStr)} {r : Option CStr} {handed : Nat → Prop} {v : View}

theorem opensBy_of_online {devs : Heap HsDevice} (hD : devs.get d = some D)
    (hs : D.state = .online) (hv : D.vtable ≠ none) : OpensBy devs d := by
  obtain ⟨vtable, hv⟩ := Option.ne_none_iff_exists'.mp hv
  refine ⟨vtable, fun drivers os w hw => ?_⟩
  subst hw
  simp [hsDeviceOpenWith, hD, hs, hv]

theorem refuses_of_disconnected {devs : Heap HsDevice} (hD : devs.get d = some D)
    (hs : D.state = .disconnected) : Refuses devs d := by
  intro drivers os w hw
  subst hw
  simp [hsDeviceOpenWith, hD, hs]

/-- What was handed out came from the table of a monitor. -/
theorem tells_of_life (hlife : Life log ms r) (hsound : Sound log st)
    (hh : ∀ d, handed d → ∃ k, .inserted d k ∈ log) : Tells log st.devs handed where
  online d D hD hd hb := by
    obtain ⟨k, hk⟩ := hh d hd
    obtain ⟨hstate, hvtable⟩ := hsound d D hD
    rw [hlife.online hk hb] at hstate
    exact ⟨hstate, opensBy_of_online hD hstate (hvtable hstate)⟩
  gone d D hD hd := by
    obtain ⟨hstate, -⟩ := hsound d D hD
    rw [hlife.disconnected hd] at hstate
    exact ⟨hstate, refuses_of_disconnected hD hstate⟩

/-- Without plain enumerations only monitors hand devices out. -/
theorem hands_of_shown {ev : Event} (hno : NoFinds [] log) (hev : ev ∈ log)
    (hs : ev.shown = some d) : ev.hands = some d := by
  cases ev with
  | found n ret => exact absurd (hno n ret hev) List.not_mem_nil
  | notify id n ret => exact hs
  | visit n ret => exact hs
  | _ => cases hs

theorem inserted_of_shown (hlife : Life log ms r) (hno : NoFinds [] log) (hs : Shown log d) :
    ∃ k, .inserted d k ∈ log := by
  obtain ⟨ev, hev, hs⟩ := hs
  exact hlife.handed hev (hands_of_shown hno hev hs)

theorem NoFinds.of_prefix {l : List Event} (hno : NoFinds [] log) (h : l <+: log) :
    NoFinds [] l := fun n ret hm => hno n ret (h.subset hm)

/-- The device that a callback is called with was in the table before. -/
theorem View.Logged.inserted (hv : v.Logged log) (hlife : Life log ms r) (hno : NoFinds [] log) :
    ∃ k, .inserted v.dev k ∈ v.log := by
  obtain ⟨ev, hshown, hp⟩ := hv
  obtain ⟨ms', r', hlife'⟩ := hlife.earlier hp
  have hands := hands_of_shown (hno.of_prefix hp) (by simp) hshown
  obtain ⟨k, hk⟩ := hlife'.handed (by simp) hands
  rcases List.mem_append.mp hk with hk | hk
  · exact ⟨k, hk⟩
  · rw [← List.mem_singleton.mp hk] at hands
    cases hands

theorem Held.lifecycle (hh : Held w R) (hok : R.Ok) (hno : NoFinds [] R.log) : w.Lifecycle := by
  have hlife := hok.life
  rw [← hh.log] at hlife hno
  refine ⟨tells_of_life hlife hh.history.sound fun d => inserted_of_shown hlife hno,
    fun v hv => ?_⟩
  obtain ⟨hgood, hlogged⟩ := hh.history.views v hv
  obtain ⟨ev, hshown, hp⟩ := hlogged
  have hpre : v.log <+: w.log := (List.prefix_append v.log [ev]).trans hp
  obtain ⟨ms', r', hlife'⟩ := hlife.earlier hpre
  refine tells_of_life hlife' hgood.sound fun d hd => ?_
  rcases hd with rfl | hd
  · exact View.Logged.inserted ⟨ev, hshown, hp⟩ hlife hno
  · exact inserted_of_shown hlife' (hno.of_prefix hpre) hd

theorem Settled.lifecycle {mon : Option Nat} (hs : Settled w mon R) (hno : NoFinds [] R.log) :
    w.Lifecycle :=
  hs.bound.held.lifecycle hs.ok hno

theorem noFinds_of_eq (h : R'.log = R.log) : NoFinds R.log R'.log := by
  rw [h]
  exact .refl R.log

/-! ## Linux -/

theorem runLinux_noFinds (hu : u.limit ≤ uintMod) {mon : Option Nat} (hs : Settled w mon R)
    {ops : List LinuxOp} (hops : ∀ op ∈ ops, op.showsNone) :
    ∃ w' mon' R', runLinux u w ops = some w' ∧ Settled w' mon' R' ∧ NoFinds R.log R'.log := by
  induction ops generalizing w mon R with
  | nil => exact ⟨w, mon, R, rfl, hs, .refl R.log⟩
  | cons op ops ih =>
    obtain ⟨w₁, mon₁, R₁, e₁, hs₁, hno₁⟩ := linuxOp_spec hu hs op
    obtain ⟨w', mon', R', e, hs', hno⟩ := ih hs₁ fun op h => hops op (List.mem_cons_of_mem _ h)
    refine ⟨w', mon', R', by simp [runLinux, e₁, e], hs', ?_⟩
    exact (hno₁ (hops op List.mem_cons_self)).trans hno

/-- Linux: every run in which no plain enumeration gets to a device that it can read. -/
def LinuxLifecycle (u : User) : Prop :=
  ∀ ops w, (∀ op ∈ ops, op.showsNone) → runLinux u .start ops = some w → w.Lifecycle

theorem linux_lifecycle (hu : u.limit ≤ uintMod) : LinuxLifecycle u := by
  intro ops w hops h
  obtain ⟨w', mon, R, e, hs, hno⟩ := runLinux_noFinds hu settled_start hops
  rw [h] at e
  cases e
  exact hs.lifecycle hno

/-! ## macOS -/

namespace Darwin.Monitor

/-- A plain enumeration gets to no device. -/
def Action.showsNone : Action → Prop
  | .enumerate _ os => os.findsNone
  | _ => True

theorem Moves.noFinds {s s' : State} {a : Action} (h : Moves u s R a s' R') (ha : a.showsNone) :
    NoFinds R.log R'.log := by
  cases h with
  | failed | notSubscribed | freed => exact released_noFinds R.log
  | populated _ _ _ hadds | attached _ _ _ hadds => exact hadds.routine.noFinds
  | notPopulated _ _ hadds => exact hadds.routine.noFinds.trans (released_noFinds _)
  | aborted _ _ _ _ hadds => exact hadds.routine.noFinds
  | @detached pick ok =>
    cases ok with
    | true => exact remove_routine.noFinds
    | false => exact .refl R.log
  | registered _ _ hlog => exact noFinds_of_eq hlog
  | listed => exact list_routine.noFinds
  | enumerated _ _ hlog => exact noFinds_of_eq (hlog ha)
  | _ => exact .refl R.log

theorem Stands.lifecycle {s : State} (hs : Stands s R) (hno : NoFinds [] R.log) :
    s.world.Lifecycle := by
  by_cases hm : s.main = .absent
  · exact (hs.absent hm).lifecycle hno
  · obtain ⟨m, hset⟩ := hs.monitor hm
    exact hset.lifecycle hno

/-- macOS: every run in which no plain enumeration gets to a device that it can read. -/
def DarwinLifecycle (u : User) : Prop :=
  ∀ services as s, (∀ a ∈ as, a.showsNone) → run (step u) (.start services) as = some s →
    s.world.Lifecycle

theorem darwin_lifecycle (hu : u.limit ≤ uintMod) : DarwinLifecycle u := by
  intro services as s has h
  obtain ⟨R, hs, hno⟩ := run_rule (I := fun s => ∃ R, Stands s R ∧ NoFinds [] R.log)
    (C := fun _ a => a.showsNone) (fun s a s' hI ha e => by
      obtain ⟨R, hs, hno⟩ := hI
      obtain ⟨R', hs', h⟩ := step_moves hu hs e
      exact ⟨R', hs', hno.trans (h.noFinds ha)⟩)
    ⟨Roster.empty, stands_start services, .refl []⟩ (along_of_mem has) h
  exact hs.lifecycle hno

end Darwin.Monitor

/-! ## Windows -/

namespace Win32

/-- A plain enumeration gets to no device. -/
def Action.showsNone : Action → Prop
  | .enumerate _ os => os.findsNone
  | _ => True

theorem Moves.noFinds {s s' : State} {a : Action} (h : Moves u s R a s' R') (ha : a.showsNone) :
    NoFinds R.log R'.log := by
  cases h with
  | failed | notScanned | notWaited | notStarted | freed => exact released_noFinds R.log
  | read _ hadds => exact hadds.routine.noFinds
  | notRead _ _ hadds => exact hadds.routine.noFinds.trans (released_noFinds _)
  | arrived _ _ _ _ _ hadds => exact hadds.routine.noFinds
  | departed => exact remove_routine.noFinds
  | registered _ _ hlog => exact noFinds_of_eq hlog
  | listed => exact list_routine.noFinds
  | enumerated _ _ hlog => exact noFinds_of_eq (hlog ha)
  | _ => exact .refl R.log

theorem Stands.lifecycle {s : State} (hs : Stands s R) (hno : NoFinds [] R.log) :
    s.world.Lifecycle := by
  have hset := hs.settled
  unfold Main.Settled at hset
  split at hset
  · exact hset.lifecycle hno
  · -- `hs_monitor_free` keeps the devices as they are
    have h := hset.lifecycle hno
    exact ⟨h.now, h.views⟩
  · obtain ⟨m, hset⟩ := hset
    exact hset.lifecycle hno

/-- Windows: every run in which no plain enumeration gets to a device that it can read. -/
def Win32Lifecycle (u : User) : Prop :=
  ∀ tree as s, (∀ a ∈ as, a.showsNone) → run (step u) (.start tree) as = some s →
    s.world.Lifecycle

theorem win32_lifecycle (hu : u.limit ≤ uintMod) : Win32Lifecycle u := by
  intro tree as s has h
  obtain ⟨R, hs, hno⟩ := run_rule (I := fun s => ∃ R, Stands s R ∧ NoFinds [] R.log)
    (C := fun _ a => a.showsNone) (fun s a s' hI ha e => by
      obtain ⟨R, hs, hno⟩ := hI
      obtain ⟨R', hs', h⟩ := step_moves hu hs e
      exact ⟨R', hs', hno.trans (h.noFinds ha)⟩)
    ⟨Roster.empty, stands_start tree, .refl []⟩ (along_of_mem has) h
  exact hs.lifecycle hno

end Win32

/-! ## All platforms -/

/-- When no plain enumeration shows a device, every device that user code was handed is online until
the removal of its key, and disconnected from then on; `hs_device_open` reaches a driver, and later
fails. -/
theorem lifecycle_kept (react : List Event → Nat → Notice → Reaction) :
    LinuxLifecycle (.careful react) ∧ Darwin.Monitor.DarwinLifecycle (.careful react) ∧
      Win32.Win32Lifecycle (.careful react) :=
  have hu : (User.careful react).limit ≤ uintMod := Nat.le_refl uintMod
  ⟨linux_lifecycle hu, Darwin.Monitor.darwin_lifecycle hu, Win32.win32_lifecycle hu⟩

/-- A user who keeps every device. -/
def collector : List Event → Nat → Notice → Reaction := fun _ _ n => ⟨[.ref n.dev], 0⟩

/-- The adapter is listed, and then unplugged. -/
def serialLife : List LinuxOp :=
  [.newMonitor serialStartUp, .list 0,
    .refresh [({ serialAdapter with action := .lit "remove" }, .ok)] false]

/-- The device is there to the end, disconnected. -/
theorem lifecycle_kept_serial : ∃ w, runLinux (.careful collector) .start serialLife = some w ∧
    w.Lifecycle ∧ (w.devs.get 0).map HsDevice.state = some .disconnected := by
  obtain ⟨w, e, hw⟩ := Option.map_eq_some_iff.mp (by decide +kernel :
    (runLinux (.careful collector) .start serialLife).map
      (fun w => decide ((w.devs.get 0).map HsDevice.state = some .disconnected)) = some true)
  refine ⟨w, e, (lifecycle_kept collector).1 serialLife w ?_ e, of_decide_eq_true hw⟩
  simp [serialLife, LinuxOp.showsNone]

/-- What the enumeration finds is handed out as a disconnected device, which cannot be opened. -/
theorem lifecycle_breaks : ∃ w D, runLinux (.careful collector) .start
      [.enumerate 0 ⟨true, true, true, true, [.device serialAdapter .ok]⟩] = some w ∧
    w.devs.get 0 = some D ∧ Shown w.log 0 ∧ ¬ RemovalBegun w.log 0 ∧ D.state = .disconnected ∧
    Refuses w.devs 0 ∧ ¬ w.Lifecycle := by
  obtain ⟨w, e, hw⟩ := Option.map_eq_some_iff.mp (by decide +kernel :
    (runLinux (.careful collector) .start
      [.enumerate 0 ⟨true, true, true, true, [.device serialAdapter .ok]⟩]).map
      (fun w => decide ((w.devs.get 0).map HsDevice.state = some .disconnected ∧
        w.log = [.found ⟨0, some serialAdapter.devpath, 0, .disconnected, none⟩ 0])) = some true)
  obtain ⟨hget, hlog⟩ := of_decide_eq_true hw
  obtain ⟨D, hD, hstate⟩ := Option.map_eq_some_iff.mp hget
  have hshown : Shown w.log 0 := ⟨_, by rw [hlog]; exact List.mem_singleton_self _, rfl⟩
  have hkept : ¬ RemovalBegun w.log 0 := by
    rintro ⟨k, l, l', hl, -⟩
    have hm : Event.removal k ∈ w.log := by rw [hl]; simp
    rw [hlog] at hm
    cases List.mem_singleton.mp hm
  refine ⟨w, D, e, hD, hshown, hkept, hstate, refuses_of_disconnected hD hstate, fun h => ?_⟩
  have honline := (h.now.online 0 D hD hshown hkept).1
  rw [hstate] at honline
  cases honline

end Libhs
