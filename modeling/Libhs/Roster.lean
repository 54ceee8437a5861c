import Libhs.Monitor
import Libhs.Life
import Libhs.Lib.KeyedSet

/-!
# The monitor on lists

What the functions of `monitor.c` compute when the pointer structures are read as
lists: the callbacks in order of registration, and the devices of the table with
the newest first. `dispatch` is `trigger_callbacks`, `Roster.add`, `Roster.remove`
and `visitAll` are `_hs_monitor_add`, `_hs_monitor_remove` and `hs_monitor_list`.

* `Roster.Ok` holds between operations: no two devices share key and interface,
  all of them are online, and the log tells the life of every device.
* As a set of (key, interface) pairs, `add` inserts and `remove` deletes a key
  (`pairs_add`, `pairs_remove`).
-/

namespace Libhs
open Pointer

/-- A device of the table. -/
structure Entry where
  dev : Nat
  key : CStr
  iface : UInt8
deriving DecidableEq

/-- A registered callback: the address of its record, and the record. -/
structure Listener where
  addr : Nat
  id : Nat
  f : Nat
deriving DecidableEq, Repr

/-- The monitor. `status` is the status of every device object there ever was. -/
structure Roster where
  entries : List Entry
  listeners : List Listener
  nextId : Nat
  status : Nat → HsDeviceStatus
  log : List Event

/-- The bucket of a key. -/
def home (key : CStr) : Nat := (hsHtableHashStr key).toNat % 64

theorem home_lt (key : CStr) : home key < 64 := Nat.mod_lt _ (by decide)

def Entry.pair (e : Entry) : CStr × UInt8 := (e.key, e.iface)

/-- What a callback sees of a device of the monitor `m`. -/
def Entry.notice (m : Nat) (st : HsDeviceStatus) (e : Entry) : Notice :=
  ⟨e.dev, some e.key, e.iface, st, some m⟩

namespace Roster

def empty : Roster := ⟨[], [], 0, fun _ => .disconnected, []⟩

/-- The devices of the table. -/
def devs (R : Roster) : List Nat := R.entries.map Entry.dev

/-- The devices of the table with their keys. -/
def members (R : Roster) : List (Nat × CStr) := R.entries.map fun e => (e.dev, e.key)

/-- The device `d` is in no table and never was. -/
def Unused (R : Roster) (d : Nat) : Prop := d ∉ R.devs ∧ ∀ k, .inserted d k ∉ R.log

/-- The chain of the cell `i`. -/
def bucket (R : Roster) (i : Nat) : List Entry := R.entries.filter fun e => home e.key = i

/-- The order in which the table is enumerated. -/
def order (R : Roster) : List Entry := (List.range 64).flatMap R.bucket

/-- The devices as a set. -/
def pairs (R : Roster) : Set (CStr × UInt8) := {p | p ∈ R.entries.map Entry.pair}

def setStatus (R : Roster) (d : Nat) (st : HsDeviceStatus) : Roster :=
  { R with status := Function.update R.status d st }

def emit (R : Roster) (e : Event) : Roster := { R with log := R.log ++ [e] }

end Roster

/-! ## The operations -/

/-- `trigger_callbacks`: the value it returns, the callbacks it leaves, the log. A positive result
drops the callback, a negative one ends the dispatch. -/
def dispatch (u : User) (n : Notice) : List Listener → List Event → Int × List Listener × List Event
  | [], log => (0, [], log)
  | c :: cs, log =>
    let ret := (u.react log c.f n).ret
    let log := log ++ [.notify c.id n ret]
    if ret < 0 then (ret, c :: cs, log)
    else
      let (r, ls, log) := dispatch u n cs log
      (r, if ret ≠ 0 then ls else c :: ls, log)

/-- The calls of user code by `hs_monitor_list`, up to the first that returns non-zero. -/
def visitAll (u : User) (f : Nat) : List Notice → List Event → Int × List Event
  | [], log => (0, log)
  | n :: ns, log =>
    let ret := (u.react log f n).ret
    let log := log ++ [.visit n ret]
    if ret ≠ 0 then (ret, log) else visitAll u f ns log

namespace Roster

/-- Tell the callbacks about the device `e`. -/
def trigger (u : User) (m : Nat) (e : Entry) (R : Roster) : Int × Roster :=
  let (r, ls, log) := dispatch u (e.notice m (R.status e.dev)) R.listeners R.log
  (r, { R with listeners := ls, log := log })

/-- `_hs_monitor_add` of the device `e`. -/
def add (u : User) (m : Nat) (e : Entry) (R : Roster) : Int × Roster :=
  if e.pair ∈ R.entries.map Entry.pair then (0, R)
  else
    trigger u m e (({ R with entries := e :: R.entries }.setStatus e.dev .online).emit
      (.inserted e.dev e.key))

/-- The table without the device of `e`. -/
def drop (e : Entry) (R : Roster) : Roster :=
  { R with entries := R.entries.filter fun x => x.dev ≠ e.dev }

/-- One round of `_hs_monitor_remove`. -/
def removeOne (u : User) (m : Nat) (e : Entry) (R : Roster) : Roster :=
  (trigger u m e ((R.setStatus e.dev .disconnected).emit (.gone e.dev))).2.drop e

/-- `_hs_monitor_remove`. -/
def remove (u : User) (m : Nat) (key : CStr) (R : Roster) : Roster :=
  ((R.entries.filter fun e => e.key = key).foldl (fun R e => removeOne u m e R)
    (R.emit (.removal key))).emit (.removed key)

/-- `hs_monitor_register_callback`, with the record at `a`. -/
def register (a f : Nat) (R : Roster) : Roster :=
  { R with listeners := R.listeners ++ [⟨a, R.nextId, f⟩], nextId := R.nextId + 1 }

/-- `hs_monitor_deregister_callback`. -/
def deregister (id : Nat) (R : Roster) : Roster :=
  { R with listeners := R.listeners.eraseP fun c => c.id = id }

/-- `hs_monitor_list`. -/
def list (u : User) (m f : Nat) (R : Roster) : Int × Roster :=
  let (r, log) := visitAll u f (R.order.map fun e => e.notice m (R.status e.dev)) R.log
  (r, { R with log := log })

end Roster

/-! ## Dispatch and the table -/

variable {u : User} {n : Notice} {m d : Nat} {e : Entry} {key : CStr} {R : Roster}

@[simp] theorem emit_entries (ev : Event) (R : Roster) : (R.emit ev).entries = R.entries := rfl

@[simp] theorem emit_status (ev : Event) (R : Roster) : (R.emit ev).status = R.status := rfl

@[simp] theorem trigger_entries (R : Roster) : (R.trigger u m e).2.entries = R.entries := rfl

@[simp] theorem trigger_status (R : Roster) : (R.trigger u m e).2.status = R.status := rfl

@[simp] theorem trigger_nextId (R : Roster) : (R.trigger u m e).2.nextId = R.nextId := rfl

theorem dispatch_sublist (cs : List Listener) (log : List Event) :
    (dispatch u n cs log).2.1.Sublist cs := by
  induction cs generalizing log with
  | nil => exact List.Sublist.refl _
  | cons c cs ih =>
    simp only [dispatch]
    split
    · exact List.Sublist.refl _
    · dsimp only
      split
      · exact (ih _).cons c
      · exact (ih _).cons_cons c

/-- Neither the end of a monitor nor a find of a plain enumeration. -/
def Event.routine : Event → Bool
  | .released | .found _ _ => false
  | _ => true

/-- The log goes on with such events. -/
def Routine (log log' : List Event) : Prop := ∃ l, log' = log ++ l ∧ ∀ ev ∈ l, ev.routine = true

section Routine

variable {log log' log'' : List Event}

theorem Routine.refl (log : List Event) : Routine log log :=
  ⟨[], (List.append_nil log).symm, fun _ h => absurd h List.not_mem_nil⟩

theorem Routine.snoc {ev : Event} (h : ev.routine = true) : Routine log (log ++ [ev]) :=
  ⟨[ev], rfl, fun _ hm => List.mem_singleton.mp hm ▸ h⟩

theorem Routine.trans (h : Routine log log') (h' : Routine log' log'') : Routine log log'' := by
  obtain ⟨l, rfl, hl⟩ := h
  obtain ⟨l', rfl, hl'⟩ := h'
  exact ⟨l ++ l', List.append_assoc .., fun ev hm =>
    (List.mem_append.mp hm).elim (hl ev) (hl' ev)⟩

theorem Routine.grows (h : Routine log log') : log <+: log' := by
  obtain ⟨l, rfl, -⟩ := h
  exact List.prefix_append log l

theorem Routine.released (h : Routine log log') :
    log'.count .released = log.count .released := by
  obtain ⟨l, rfl, hl⟩ := h
  have hnone : l.count .released = 0 := List.count_eq_zero.mpr fun hm => nomatch hl _ hm
  rw [List.count_append, hnone, Nat.add_zero]

/-- No plain enumeration finds a device in between. -/
def NoFinds (log log' : List Event) : Prop := ∀ n ret, .found n ret ∈ log' → .found n ret ∈ log

theorem NoFinds.refl (log : List Event) : NoFinds log log := fun _ _ => id

theorem NoFinds.trans (h : NoFinds log log') (h' : NoFinds log' log'') : NoFinds log log'' :=
  fun n ret hm => h n ret (h' n ret hm)

theorem Routine.noFinds (h : Routine log log') : NoFinds log log' := by
  obtain ⟨l, rfl, hl⟩ := h
  intro n ret hm
  rcases List.mem_append.mp hm with hm | hm
  · exact hm
  · exact nomatch hl _ hm

theorem released_noFinds (log : List Event) : NoFinds log (log ++ [.released]) := by
  intro n ret hm
  simpa using hm

end Routine

theorem dispatch_routine (cs : List Listener) (log : List Event) :
    Routine log (dispatch u n cs log).2.2 := by
  induction cs generalizing log with
  | nil => exact .refl log
  | cons c cs ih =>
    have hone : Routine log (log ++ [.notify c.id n (u.react log c.f n).ret]) := .snoc rfl
    simp only [dispatch]
    split
    · exact hone
    · exact hone.trans (ih _)

theorem visitAll_routine {f : Nat} (ns : List Notice) (log : List Event) :
    Routine log (visitAll u f ns log).2 := by
  induction ns generalizing log with
  | nil => exact .refl log
  | cons n ns ih =>
    have hone : Routine log (log ++ [.visit n (u.react log f n).ret]) := .snoc rfl
    simp only [visitAll]
    split
    · exact hone
    · exact hone.trans (ih _)

theorem removeOne_entries (R : Roster) :
    (R.removeOne u m e).entries = R.entries.filter fun x => x.dev ≠ e.dev := rfl

theorem removeOne_status (R : Roster) :
    (R.removeOne u m e).status = Function.update R.status e.dev .disconnected := rfl

/-- A sequence of removals, as far as the table is concerned. -/
theorem removeEach_entries (es : List Entry) (R : Roster) :
    (es.foldl (fun R e => R.removeOne u m e) R).entries =
      R.entries.filter fun x => x.dev ∉ es.map Entry.dev := by
  induction es generalizing R with
  | nil => simp
  | cons e es ih =>
    rw [List.foldl_cons, ih, removeOne_entries, List.filter_filter]
    refine List.filter_congr fun x _ => ?_
    by_cases hx : x.dev = e.dev <;> simp [hx]

theorem removeEach_status (es : List Entry) (R : Roster) :
    (es.foldl (fun R e => R.removeOne u m e) R).status =
      fun d => if d ∈ es.map Entry.dev then .disconnected else R.status d := by
  induction es generalizing R with
  | nil => simp
  | cons e es ih =>
    rw [List.foldl_cons, ih]
    funext d
    rw [removeOne_status]
    by_cases hd : d = e.dev
    · subst hd
      simp
    · simp [hd]

theorem remove_entries (hn : R.devs.Nodup) :
    (R.remove u m key).entries = R.entries.filter fun e => e.key ≠ key := by
  rw [Roster.remove, emit_entries, removeEach_entries]
  refine List.filter_congr fun x hx => ?_
  by_cases hk : x.key = key
  · have hm : x.dev ∈ (R.entries.filter fun e => e.key = key).map Entry.dev :=
      List.mem_map_of_mem (List.mem_filter.mpr ⟨hx, by simpa using hk⟩)
    simp only [hm, not_true_eq_false, decide_false, hk, ne_eq]
  · have hm : x.dev ∉ (R.entries.filter fun e => e.key = key).map Entry.dev := by
      intro hm
      obtain ⟨y, hy, hyx⟩ := List.mem_map.mp hm
      obtain ⟨hy, hyk⟩ := List.mem_filter.mp hy
      have := List.inj_on_of_nodup_map hn hy hx hyx
      subst this
      exact hk (by simpa using hyk)
    simp only [hm, not_false_eq_true, decide_true, ne_eq, hk]

theorem remove_devs_sublist : (R.remove u m key).devs.Sublist R.devs := by
  rw [Roster.devs, Roster.remove, emit_entries, removeEach_entries]
  exact List.filter_sublist.map _

/-- A device that leaves the table is disconnected, and so are no others. -/
theorem remove_status :
    (R.remove u m key).status = fun d =>
      if d ∈ (R.entries.filter fun e => e.key = key).map Entry.dev then .disconnected
      else R.status d := by
  rw [Roster.remove, emit_status, removeEach_status]
  rfl

theorem removeEach_listeners (es : List Entry) (R : Roster) :
    (es.foldl (fun R e => R.removeOne u m e) R).listeners.Sublist R.listeners ∧
      (es.foldl (fun R e => R.removeOne u m e) R).nextId = R.nextId := by
  induction es generalizing R with
  | nil => exact ⟨List.Sublist.refl _, rfl⟩
  | cons e es ih =>
    obtain ⟨hs, hn⟩ := ih (R.removeOne u m e)
    exact ⟨hs.trans (dispatch_sublist R.listeners _), hn⟩

theorem remove_listeners : (R.remove u m key).listeners.Sublist R.listeners :=
  (removeEach_listeners _ _).1

theorem remove_nextId : (R.remove u m key).nextId = R.nextId := (removeEach_listeners _ _).2

theorem add_of_mem (h : e.pair ∈ R.entries.map Entry.pair) : R.add u m e = (0, R) := by
  rw [Roster.add, if_pos h]

theorem add_of_not_mem (h : e.pair ∉ R.entries.map Entry.pair) :
    R.add u m e = Roster.trigger u m e
      (({ R with entries := e :: R.entries }.setStatus e.dev .online).emit
        (.inserted e.dev e.key)) := by
  rw [Roster.add, if_neg h]

theorem add_listeners : (R.add u m e).2.listeners.Sublist R.listeners := by
  by_cases h : e.pair ∈ R.entries.map Entry.pair
  · rw [add_of_mem h]
  · rw [add_of_not_mem h]
    exact dispatch_sublist R.listeners _

theorem add_nextId : (R.add u m e).2.nextId = R.nextId := by
  by_cases h : e.pair ∈ R.entries.map Entry.pair
  · rw [add_of_mem h]
  · rw [add_of_not_mem h]
    rfl

theorem add_routine : Routine R.log (R.add u m e).2.log := by
  by_cases h : e.pair ∈ R.entries.map Entry.pair
  · rw [add_of_mem h]
    exact .refl R.log
  · rw [add_of_not_mem h]
    have hin : Routine R.log (R.log ++ [.inserted e.dev e.key]) := .snoc rfl
    exact hin.trans (dispatch_routine R.listeners _)

theorem removeEach_routine (es : List Entry) (R : Roster) :
    Routine R.log (es.foldl (fun R e => R.removeOne u m e) R).log := by
  induction es generalizing R with
  | nil => exact .refl R.log
  | cons e es ih =>
    have hgone : Routine R.log (R.log ++ [.gone e.dev]) := .snoc rfl
    have hone : Routine R.log (R.removeOne u m e).log :=
      hgone.trans (dispatch_routine R.listeners _)
    exact hone.trans (ih _)

theorem remove_routine : Routine R.log (R.remove u m key).log := by
  have hbegin : Routine R.log (R.emit (.removal key)).log := .snoc rfl
  exact (hbegin.trans (removeEach_routine _ _)).trans (.snoc rfl)

theorem list_routine {f : Nat} : Routine R.log (R.list u m f).2.log := visitAll_routine _ _

/-- Without callbacks adding a device cannot fail. -/
theorem add_silent {e : Entry} (hl : R.listeners = []) :
    (R.add u m e).1 = 0 ∧ (R.add u m e).2.listeners = [] := by
  by_cases h : e.pair ∈ R.entries.map Entry.pair
  · rw [add_of_mem h]
    exact ⟨rfl, hl⟩
  · rw [add_of_not_mem h]
    simp [Roster.trigger, Roster.emit, Roster.setStatus, hl, dispatch]

/-! ## The invariant between operations -/

/-- What holds of the monitor between operations. -/
structure Roster.Ok (R : Roster) : Prop where
  devs : R.devs.Nodup
  pairs : (R.entries.map Entry.pair).Nodup
  online : ∀ e ∈ R.entries, R.status e.dev = .online
  ids : (R.listeners.map Listener.id).Nodup
  below : ∀ c ∈ R.listeners, c.id < R.nextId
  life : Life R.log R.members none

theorem ok_empty : Roster.empty.Ok where
  devs := List.nodup_nil
  pairs := List.nodup_nil
  online _ h := absurd h List.not_mem_nil
  ids := List.nodup_nil
  below _ h := absurd h List.not_mem_nil
  life := .start

/-! ### The life of the devices -/

theorem dispatch_life {ms : List (Nat × CStr)} {r : Option CStr} {log : List Event}
    (cs : List Listener) (h : Life log ms r) (hn : ∃ k, .inserted n.dev k ∈ log) :
    Life (dispatch u n cs log).2.2 ms r := by
  induction cs generalizing log with
  | nil => exact h
  | cons c cs ih =>
    have h' := Life.notify c.id n (u.react log c.f n).ret h hn
    simp only [dispatch]
    split
    · exact h'
    · exact ih h' (hn.imp fun k hk => List.mem_append_left _ hk)

theorem visitAll_life {ms : List (Nat × CStr)} {r : Option CStr} {log : List Event} {f : Nat}
    (ns : List Notice) (h : Life log ms r) (hns : ∀ n ∈ ns, ∃ k, .inserted n.dev k ∈ log) :
    Life (visitAll u f ns log).2 ms r := by
  induction ns generalizing log with
  | nil => exact h
  | cons n ns ih =>
    have h' := Life.visit n (u.react log f n).ret h (hns n List.mem_cons_self)
    simp only [visitAll]
    split
    · exact h'
    · refine ih h' fun x hx => ?_
      exact (hns x (List.mem_cons_of_mem n hx)).imp fun k hk => List.mem_append_left _ hk

theorem mem_members : e ∈ R.entries → (e.dev, e.key) ∈ R.members := fun h =>
  List.mem_map_of_mem (f := fun e => (e.dev, e.key)) h

/-- The devices of the table went into it. -/
theorem Life.entry {r : Option CStr} (h : Life R.log R.members r) (he : e ∈ R.entries) :
    .inserted e.dev e.key ∈ R.log := ((h.members _ _).mp (mem_members he)).1.mem

theorem members_drop (R : Roster) (e : Entry) :
    (R.drop e).members = R.members.filter fun p => p.1 ≠ e.dev := by
  simp only [Roster.members, Roster.drop, List.filter_map]
  rfl

/-- A round of a removal takes one device with the key out. -/
theorem removeOne_life (h : Life R.log R.members (some e.key)) (he : e ∈ R.entries) :
    Life (R.removeOne u m e).log (R.removeOne u m e).members (some e.key) := by
  have hgone := Life.gone e.dev h (mem_members he)
  have hin : ∃ k, .inserted e.dev k ∈ R.log ++ [.gone e.dev] :=
    ⟨e.key, List.mem_append_left _ (h.entry he)⟩
  have hmem : (R.removeOne u m e).members = R.members.filter fun p => p.1 ≠ e.dev :=
    members_drop _ e
  rw [hmem]
  exact dispatch_life R.listeners hgone hin

theorem removeEach_life (es : List Entry) (hn : (es.map Entry.dev).Nodup)
    (hes : ∀ e ∈ es, e ∈ R.entries ∧ e.key = key) (h : Life R.log R.members (some key)) :
    Life (es.foldl (fun R e => R.removeOne u m e) R).log
      (es.foldl (fun R e => R.removeOne u m e) R).members (some key) := by
  induction es generalizing R with
  | nil => exact h
  | cons e es ih =>
    rw [List.map_cons, List.nodup_cons] at hn
    obtain ⟨he, rfl⟩ := hes e List.mem_cons_self
    refine ih hn.2 (fun x hx => ?_) (removeOne_life h he)
    obtain ⟨hx', hk⟩ := hes x (List.mem_cons_of_mem e hx)
    refine ⟨?_, hk⟩
    rw [removeOne_entries]
    refine List.mem_filter.mpr ⟨hx', ?_⟩
    have hne : x.dev ≠ e.dev := fun hd => hn.1 (hd ▸ List.mem_map_of_mem hx)
    simpa using hne

/-! ### The operations keep it -/

theorem Roster.Ok.register (hok : R.Ok) (a f : Nat) : (R.register a f).Ok where
  devs := hok.devs
  pairs := hok.pairs
  online := hok.online
  ids := by
    simp only [Roster.register, List.map_append, List.map_cons, List.map_nil]
    refine List.nodup_append.mpr ⟨hok.ids, List.nodup_singleton _, ?_⟩
    rintro i hi j hj rfl
    obtain ⟨c, hc, rfl⟩ := List.mem_map.mp hi
    exact absurd (List.mem_singleton.mp hj) (Nat.ne_of_lt (hok.below c hc))
  below c hc := by
    rcases List.mem_append.mp hc with hc | hc
    · exact Nat.lt_succ_of_lt (hok.below c hc)
    · rw [List.mem_singleton.mp hc]
      exact Nat.lt_succ_self _
  life := hok.life

theorem Roster.Ok.deregister (hok : R.Ok) (id : Nat) : (R.deregister id).Ok where
  devs := hok.devs
  pairs := hok.pairs
  online := hok.online
  ids := hok.ids.sublist ((List.eraseP_sublist).map _)
  below c hc := hok.below c (List.eraseP_sublist.subset hc)
  life := hok.life

/-- The status of a device outside of the table does not matter. -/
theorem Roster.Ok.setStatus (hok : R.Ok) (hd : d ∉ R.devs) (st : HsDeviceStatus) :
    (R.setStatus d st).Ok where
  devs := hok.devs
  pairs := hok.pairs
  online e he := by
    have hne : e.dev ≠ d := fun hed => hd (hed ▸ List.mem_map_of_mem he)
    exact (Function.update_of_ne hne ..).trans (hok.online e he)
  ids := hok.ids
  below := hok.below
  life := hok.life

theorem Roster.Ok.add (hok : R.Ok) (hf : R.Unused e.dev) : (R.add u m e).2.Ok := by
  by_cases h : e.pair ∈ R.entries.map Entry.pair
  · rw [add_of_mem h]
    exact hok
  · have hl := add_listeners (u := u) (m := m) (e := e) (R := R)
    have hn := add_nextId (u := u) (m := m) (e := e) (R := R)
    obtain ⟨hd, hnew⟩ := hf
    refine ⟨?_, ?_, ?_, hok.ids.sublist (hl.map _), fun c hc => ?_, ?_⟩
    · rw [add_of_not_mem h]
      exact List.nodup_cons.mpr ⟨hd, hok.devs⟩
    · rw [add_of_not_mem h]
      exact List.nodup_cons.mpr ⟨h, hok.pairs⟩
    · rw [add_of_not_mem h]
      intro x hx
      rcases List.mem_cons.mp hx with rfl | hx
      · exact Function.update_self ..
      · have hne : x.dev ≠ e.dev := by
          rintro he
          exact hd (he ▸ List.mem_map_of_mem hx)
        exact (Function.update_of_ne hne ..).trans (hok.online x hx)
    · rw [hn]
      exact hok.below c (hl.subset hc)
    · rw [add_of_not_mem h]
      refine dispatch_life R.listeners (Life.inserted e.dev e.key hok.life hnew) ⟨e.key, ?_⟩
      exact List.mem_append_right _ List.mem_cons_self

theorem Roster.Ok.remove (hok : R.Ok) : (R.remove u m key).Ok := by
  refine ⟨hok.devs.sublist remove_devs_sublist, ?_, fun x hx => ?_,
    hok.ids.sublist (remove_listeners.map _), fun c hc => ?_, ?_⟩
  · rw [remove_entries hok.devs]
    exact hok.pairs.sublist (List.filter_sublist.map _)
  · rw [remove_entries hok.devs] at hx
    obtain ⟨hx, hk⟩ := List.mem_filter.mp hx
    rw [remove_status]
    have hm : x.dev ∉ (R.entries.filter fun e => e.key = key).map Entry.dev := by
      intro hm
      obtain ⟨y, hy, hyx⟩ := List.mem_map.mp hm
      obtain ⟨hy, hyk⟩ := List.mem_filter.mp hy
      have := List.inj_on_of_nodup_map hok.devs hy hx hyx
      subst this
      simp only [ne_eq, decide_not, Bool.not_eq_true', decide_eq_false_iff_not] at hk
      exact hk (by simpa using hyk)
    simp only [hm, ↓reduceIte]
    exact hok.online x hx
  · rw [remove_nextId]
    exact hok.below c (remove_listeners.subset hc)
  · refine Life.removed (removeEach_life (R := R.emit (.removal key)) _
      (hok.devs.sublist (List.filter_sublist.map _)) (fun x hx => ?_) (.removal key hok.life)) ?_
    · obtain ⟨hx, hk⟩ := List.mem_filter.mp hx
      exact ⟨hx, by simpa using hk⟩
    · intro p hp
      obtain ⟨x, hx, rfl⟩ := List.mem_map.mp hp
      have hx : x ∈ (R.remove u m key).entries := hx
      rw [remove_entries hok.devs] at hx
      simpa using (List.mem_filter.mp hx).2

/-! ## The devices as a set -/

open Keyed

theorem pairs_add : (R.add u m e).2.pairs = step R.pairs (.add e.key e.iface) := by
  ext p
  by_cases h : e.pair ∈ R.entries.map Entry.pair
  · rw [add_of_mem h]
    simp only [step, Roster.pairs, Set.mem_ofPred_eq, Set.mem_insert_iff]
    constructor
    · exact Or.inr
    · rintro (rfl | hp)
      · exact h
      · exact hp
  · rw [add_of_not_mem h]
    simp only [step, Roster.pairs, Set.mem_ofPred_eq, Set.mem_insert_iff, trigger_entries,
      Roster.emit, Roster.setStatus, List.map_cons, List.mem_cons]
    rfl

theorem pairs_remove (hok : R.Ok) :
    (R.remove u m key).pairs = step R.pairs (.remove key : Change CStr UInt8) := by
  ext p
  simp only [Roster.pairs, step, Set.mem_ofPred_eq, remove_entries hok.devs, List.mem_map,
    List.mem_filter, ne_eq, decide_not, Bool.not_eq_true', decide_eq_false_iff_not]
  constructor
  · rintro ⟨x, ⟨hx, hk⟩, rfl⟩
    exact ⟨⟨x, hx, rfl⟩, hk⟩
  · rintro ⟨⟨x, hx, rfl⟩, hk⟩
    exact ⟨x, ⟨hx, hk⟩, rfl⟩

/-- The enumeration goes over the devices of the table, each once. -/
theorem order_perm (R : Roster) : R.order.Perm R.entries := by
  have key : ∀ n, ((List.range n).flatMap R.bucket).Perm
      (R.entries.filter fun e => home e.key < n) := by
    intro n
    induction n with
    | zero => simp
    | succ n ih =>
      rw [List.range_succ, List.flatMap_append, List.flatMap_singleton]
      have hsplit := List.filter_append_perm (fun e : Entry => decide (home e.key < n))
        (R.entries.filter fun e => home e.key < n + 1)
      rw [List.filter_filter, List.filter_filter] at hsplit
      refine (ih.append (List.Perm.refl _)).trans (List.Perm.trans ?_ hsplit)
      have h₁ : (R.entries.filter fun e => home e.key < n) =
          R.entries.filter fun e => decide (home e.key < n) && decide (home e.key < n + 1) := by
        refine List.filter_congr fun e _ => ?_
        by_cases he : home e.key < n
        · simp [he, Nat.lt_succ_of_lt he]
        · simp [he]
      have h₂ : R.bucket n =
          R.entries.filter fun e => !decide (home e.key < n) && decide (home e.key < n + 1) := by
        refine List.filter_congr fun e _ => ?_
        by_cases he : home e.key = n
        · simp [he]
        · by_cases hlt : home e.key < n
          · simp [he, hlt]
          · have : ¬ home e.key < n + 1 := by omega
            simp [he, this]
      rw [h₁, h₂]
  have hall : (R.entries.filter fun e => home e.key < 64) = R.entries :=
    List.filter_eq_self.mpr fun e _ => by simpa using home_lt e.key
  rw [← hall]
  exact key 64

end Libhs
