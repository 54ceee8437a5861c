import Libhs.TableRefinement

/-!
# Listing the monitor from an event callback

User code also runs in the middle of `_hs_monitor_add` and `_hs_monitor_remove`, and
may list the monitor there. `View.within` is the world it then finds.

An arrival is announced when the device is online and in the table, so that such a
listing shows online devices only. A removal is announced when the device is marked
as disconnected and is still in the table, so that the listing shows it
(`innerList_online_iff`).
-/

namespace Libhs
open Pointer

/-- The world as user code finds it when it is called; its callback list is not looked at. -/
def View.within (v : View) (w : World) : World :=
  { w with toStore := v.store, log := v.log, views := [] }

/-- The call announces a removal. -/
def View.Announces (v : View) : Prop :=
  (v.store.devs.get v.dev).map HsDevice.state = some .disconnected

/-- A callback that lists the monitor when it is called, and changes nothing, sees online devices
only, and not the device whose removal is announced. -/
def View.ListsOnline (v : View) (w : World) : Prop :=
  ∀ ret f, ∃ r w', hsMonitorList (.returning ret) (v.within w) f = some (r, w') ∧
    ∀ n x, .visit n x ∈ w'.log.drop v.log.length →
      n.status = .online ∧ (v.Announces → n.dev ≠ v.dev)

variable {u : User} {w : World} {R R' : Roster} {m : Nat} {v : View}

/-! ## One call -/

/-- What a view shows is a monitor again. -/
theorem View.Of.rep (hof : v.Of m R') (hr : Rep w m R) : Rep (v.within w) m
    { R' with listeners := R.listeners, nextId := R.nextId, log := v.log } := by
  obtain ⟨w₀, ls, log, hr₀, hstore, hlog⟩ := hof
  obtain ⟨log', d, st⟩ := v
  obtain rfl : st = w₀.toStore := hstore
  obtain rfl : log' = w₀.log := hlog
  exact {
    counted := hr₀.counted
    distinct := hr₀.distinct
    linked := hr₀.linked
    status := hr₀.status
    log := rfl
    history := ⟨hr₀.history.sound, hr₀.history.fresh, nofun⟩
    monitor := hr.monitor
    nextId := hr.nextId
    size := hr₀.size
    buckets := hr₀.buckets
    hash := hr₀.hash
    fields := hr₀.fields
    ring := hr.ring
    records := hr.records }

/-- The notices of a view depend on the table only. -/
theorem mem_notices {n : Notice} : n ∈ R.notices m ↔
    ∃ e ∈ R.entries, e.notice m (R.status e.dev) = n := by
  rw [Roster.notices, List.mem_map]
  exact exists_congr fun e => and_congr_left' (order_perm R).mem_iff

theorem listsOnline_of_online (hof : v.Of m R') (hr : Rep w m R)
    (hon : ∀ e ∈ R'.entries, R'.status e.dev = .online) : v.ListsOnline w := by
  intro ret f
  have hr' := hof.rep hr
  obtain ⟨rets, r, w', e, hlog, -, -⟩ := (list_enumerates hr').2 (fun log f n => ⟨[], ret log f n⟩) f
  refine ⟨r, w', e, fun n x hm => ?_⟩
  have hv : (v.within w).log = v.log := rfl
  rw [hlog, hv, List.drop_left] at hm
  obtain ⟨n', x', hn, -, he⟩ : ∃ n' x', n' ∈ Roster.notices _ m ∧ x' ∈ rets ∧
      Event.visit n' x' = .visit n x := by
    obtain ⟨i, hi, he⟩ := List.getElem_of_mem hm
    rw [List.getElem_zipWith] at he
    exact ⟨_, _, List.getElem_mem _, List.getElem_mem _, he⟩
  cases he
  obtain ⟨e, he, rfl⟩ := mem_notices.mp hn
  refine ⟨hon e he, fun hann hdev => ?_⟩
  obtain ⟨D, hD, hstate⟩ := Option.map_eq_some_iff.mp hann
  have hD : (v.within w).devs.get e.dev = some D := by
    rw [show e.dev = v.dev from hdev]
    exact hD
  have hstatus := hr'.status _ D hD
  rw [hstate] at hstatus
  exact nomatch hstatus.trans (hon e he)

theorem View.Farewell.lists (hv : v.Farewell m) (hr : Rep w m R) : ¬ v.ListsOnline w := by
  obtain ⟨R', e, he, hgone, hdev, hof⟩ := hv
  intro hlists
  obtain ⟨r, w', heq, hall⟩ := hlists (fun _ _ _ => 0) 0
  obtain ⟨w₁, heq₁, hlog⟩ := (list_enumerates (hof.rep hr)).1 0
  rw [heq] at heq₁
  cases heq₁
  have hv : (v.within w).log = v.log := rfl
  have hm : .visit (e.notice m (R'.status e.dev)) 0 ∈ w'.log.drop v.log.length := by
    rw [hlog, hv, List.drop_left]
    exact List.mem_map_of_mem (mem_notices.mpr ⟨e, he, rfl⟩)
  have hon := (hall _ _ hm).1
  exact nomatch hgone.symm.trans hon

/-! ## Every event -/

/-- In every state of a monitor, a callback that is told of an arrival and lists the monitor sees
online devices only. In a removal it does so if no callback is called, because there is none, or no
device with the key, and only then. -/
theorem innerList_online_iff (react : List Event → Nat → Notice → Reaction)
    (before : List MonitorOp) :
    ∃ w, monitorAfter (.careful react) before = some w ∧
      (∀ key iface driver rest, ∃ w',
        (MonitorOp.add key iface driver rest).exec (.careful react) w = some w' ∧
          ∀ v ∈ w'.views.drop w.views.length, v.ListsOnline w) ∧
      ∀ key, ∃ w', (MonitorOp.remove key).exec (.careful react) w = some w' ∧
        ((∀ v ∈ w'.views.drop w.views.length, v.ListsOnline w) ↔
          hsListIsEmpty w.links .head = some true ∨ ∀ iface, (key, iface) ∉ present before) := by
  have hu : (User.careful react).limit ≤ uintMod := Nat.le_refl uintMod
  obtain ⟨w, R, e, hr, hok, hp⟩ := monitorAfter_spec hu before
  refine ⟨w, e, fun key iface driver rest => ?_, fun key => ?_⟩
  · have hr₁ := newDevice_rep hr key iface driver rest
    obtain ⟨w', vs, e', -, -, hvs, hof⟩ := monitorAdd_calls hu hr₁ (d := w.devs.brk)
      (D := rest.made key iface driver)
      (by simp [World.newDevice, World.allocDev, Heap.get_alloc]) rfl
      (Option.some_ne_none driver) hr.unused_brk.1 (show 1 + 1 < uintMod by decide)
    refine ⟨w', ?_, fun v hv => ?_⟩
    · exact (congrArg (Option.bind · _) e').trans rfl
    · have hdrop : w'.views.drop w.views.length = vs := by
        rw [hvs]
        exact List.drop_left
      rw [hdrop] at hv
      refine listsOnline_of_online (hof v hv).2 hr fun x hx => ?_
      rcases List.mem_cons.mp hx with rfl | hx
      · exact Function.update_self ..
      · have hne : x.dev ≠ w.devs.brk := fun h => hr.unused_brk.1 (h ▸ mem_devs hx)
        simp only [Roster.setStatus, Function.update_of_ne hne]
        exact hok.online x hx
  · obtain ⟨w', vs, e', -, -, hvs, hall, hnone⟩ := monitorRemove_calls hu hr key
    refine ⟨w', e', ?_⟩
    have hempty : hsListIsEmpty w.links .head = some true ↔ R.listeners = [] := by
      rw [listIsEmpty_spec hr.ring, Option.some_inj, List.isEmpty_iff, List.map_eq_nil_iff]
    have hkey : (∀ iface, (key, iface) ∉ present before) ↔ ∀ x ∈ R.entries, x.key ≠ key := by
      rw [← hp]
      constructor
      · rintro h x hx rfl
        have hm : x.pair ∈ R.entries.map Entry.pair := List.mem_map_of_mem hx
        exact h x.iface hm
      · intro h iface hm
        obtain ⟨x, hx, he⟩ := List.mem_map.mp hm
        exact h x hx (congrArg Prod.fst he)
    rw [hvs, List.drop_left, hempty, hkey]
    constructor
    · intro h
      cases vs with
      | nil => exact hnone.mp rfl
      | cons v vs =>
        exact absurd (h v List.mem_cons_self) ((hall v List.mem_cons_self).lists hr)
    · intro h
      rw [hnone.mpr h]
      exact fun v hv => absurd hv List.not_mem_nil

/-- The devices that a listing from the call `v` shows as disconnected. -/
def View.shownGone (v : View) (w : World) : List Nat :=
  ((hsMonitorList (.returning fun _ _ _ => 0) (v.within w) 0).elim [] fun p =>
    p.2.log.drop v.log.length).filterMap fun
      | .visit n _ => if n.status = .disconnected then some n.dev else none
      | _ => none

theorem not_listsOnline_of_shownGone {d : Nat} (h : d ∈ v.shownGone w) : ¬ v.ListsOnline w := by
  intro hlists
  obtain ⟨r, w', e, hall⟩ := hlists (fun _ _ _ => 0) 0
  rw [View.shownGone, e] at h
  obtain ⟨ev, hev, hshown⟩ := List.mem_filterMap.mp h
  split at hshown
  · next n x =>
    rw [if_neg (by rw [(hall n x hev).1]; decide)] at hshown
    cases hshown
  · cases hshown

/-- A monitor with one callback and one device, before and after the removal of the device. -/
def removeOnly : Option (World × World) := do
  let w ← monitorAfter (.returning fun _ _ _ => 0)
    [.register 0 true, .add ⟨[97], by decide⟩ 0 .posix .zero]
  let w' ← (MonitorOp.remove ⟨[97], by decide⟩).exec (.returning fun _ _ _ => 0) w
  some (w, w')

/-- The callback is told of the removal, and lists the monitor. -/
theorem innerList_shows_removed : ∃ w w', removeOnly = some (w, w') ∧
    ∃ v ∈ w'.views.drop w.views.length, v.Announces ∧ v.dev ∈ v.shownGone w ∧
      ¬ v.ListsOnline w := by
  obtain ⟨⟨w, w'⟩, e, h⟩ := Option.map_eq_some_iff.mp (by decide +kernel :
    removeOnly.map (fun p => (p.2.views.drop p.1.views.length).any fun v =>
      decide ((v.store.devs.get v.dev).map HsDevice.state = some .disconnected) &&
        decide (v.dev ∈ v.shownGone p.1)) = some true)
  obtain ⟨v, hv, h⟩ := List.any_eq_true.mp h
  obtain ⟨hann, hshown⟩ := Bool.and_eq_true_iff.mp h
  have hshown := of_decide_eq_true hshown
  have hann : v.Announces := by
    unfold View.Announces
    exact of_decide_eq_true hann
  exact ⟨w, w', e, v, hv, hann, hshown, not_listsOnline_of_shownGone hshown⟩

end Libhs
