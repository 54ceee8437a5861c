import Libhs.Refs
import Libhs.Roster

/-!
# The pointer structures represent the lists

`Rep w m R`: the world `w` with the monitor `m` spells the lists `R`. It consists
of what also holds when there is no monitor (`Held`: reference counts, the status
fields, the log) and of the shape of the table and of the callback list. `History`
says that the log tells the truth about the devices, now and at every callback.

`runUser_spec`: a call of user code logs its result and disturbs nothing else.
-/

namespace Libhs
open Pointer

/-- `d` is linked into the table. -/
def InTable (t : HTable Nat) (d : Nat) : Prop :=
  ∃ (i : Nat) (l : List Nat), i < t.size ∧ Ring t.next (.cell i) (l.map .node) ∧ d ∈ l

/-- Every existing device has one reference if it is in the table, one for each reference of the
user, for each open handle, and for each library call that holds it. -/
def Conserved (st : Store) : Prop :=
  ∃ linked : List Nat, linked.Nodup ∧ (∀ d, d ∈ linked ↔ InTable st.table d) ∧ Counted st linked

/-- The status of every device is the logged one, and a device that is online has a driver. -/
def Sound (log : List Event) (st : Store) : Prop :=
  ∀ d D, st.devs.get d = some D →
    D.state = statusOf log d ∧ (D.state = .online → D.vtable ≠ none)

/-- What a callback could see was in order. -/
structure View.Good (v : View) : Prop where
  conserved : Conserved v.store
  sound : Sound v.log v.store

/-- The call of a view is logged right behind what it saw. -/
def View.Logged (v : View) (log : List Event) : Prop :=
  ∃ ev, ev.shown = some v.dev ∧ v.log ++ [ev] <+: log

theorem View.Logged.mono {v : View} {log log' : List Event} (h : v.Logged log) (hl : log <+: log') :
    v.Logged log' := by
  obtain ⟨ev, hev, hp⟩ := h
  exact ⟨ev, hev, hp.trans hl⟩

/-- The log tells the truth about the devices, and did so at every callback. -/
structure History (w : World) : Prop where
  sound : Sound w.log w.toStore
  fresh : ∀ d k, .inserted d k ∈ w.log → d < w.devs.brk
  views : ∀ v ∈ w.views, v.Good ∧ v.Logged w.log

/-- What holds with and without a monitor. -/
structure Held (w : World) (R : Roster) : Prop where
  counted : Counted w.toStore R.devs
  distinct : R.devs.Nodup
  linked : ∀ d, d ∈ R.devs ↔ InTable w.table d
  status : ∀ d D, w.devs.get d = some D → D.state = R.status d
  log : w.log = R.log
  history : History w

/-- The table and the callback list of the monitor `m` are those of `R`. -/
structure Shape (w : World) (m : Nat) (R : Roster) : Prop where
  monitor : w.monitor = some m
  nextId : w.callbackId = R.nextId
  size : w.table.size = 64
  buckets : Buckets w.table fun i => (R.bucket i).map Entry.dev
  hash : ∀ e ∈ R.entries, w.table.keyOf e.dev = some (hsHtableHashStr e.key)
  fields : ∀ e ∈ R.entries, ∀ D, w.devs.get e.dev = some D →
    D.key = some e.key ∧ D.iface = e.iface ∧ D.monitor = some m
  ring : DRing w.links .head (R.listeners.map fun c => .record c.addr)
  records : ∀ c ∈ R.listeners, w.cbs.get c.addr = some ⟨c.id, c.f⟩

/-- The world `w` with the monitor `m` represents `R`. -/
structure Rep (w : World) (m : Nat) (R : Roster) : Prop extends Held w R, Shape w m R

/-- `w'` is `w` after calls of user code: counters, and the ghost state, may differ. -/
def Quiet (w w' : World) : Prop :=
  Untouched { w with log := w'.log, views := w'.views, busy := w'.busy } w'

theorem Untouched.quiet {w w' : World} (hu : Untouched w w') : Quiet w w' := by
  have hlog : w'.log = w.log := by rw [hu.frame]
  have hviews : w'.views = w.views := by rw [hu.frame]
  have hbusy : w'.busy = w.busy := by rw [hu.frame]
  rw [Quiet, hlog, hviews, hbusy]
  exact hu

variable {u : User} {w w' : World} {R R' : Roster} {m d f : Nat} {D : HsDevice} {e : Entry}
  {mk : Notice → Int → Event}

/-! ## Reading the table -/

theorem InTable.next {t : HTable Nat} (h : InTable t d) :
    ∃ v, t.next (.node d) = some (some v) := by
  obtain ⟨i, l, -, hr, hd⟩ := h
  exact hr.1.live (List.mem_cons_of_mem _ (List.mem_map_of_mem hd))

/-- What is linked into a table depends on its heads and on the nodes that are linked. -/
theorem InTable.congr {t t' : HTable Nat} (h : InTable t d) (hsize : t'.size = t.size)
    (hcell : ∀ i, t'.next (.cell i) = t.next (.cell i))
    (hnode : ∀ x, InTable t x → t'.nodes x = t.nodes x) : InTable t' d := by
  obtain ⟨i, l, hi, hr, hd⟩ := h
  refine ⟨i, l, by rwa [hsize], hr.congr fun y hy => ?_, hd⟩
  rcases List.mem_cons.mp hy with rfl | hm
  · exact hcell i
  · obtain ⟨x, hx, rfl⟩ := List.mem_map.mp hm
    simp only [HTable.next, hnode x ⟨i, l, hi, hr, hx⟩]

theorem Buckets.inTable_iff {t : HTable Nat} {B : Nat → List Nat} (hb : Buckets t B) (d : Nat) :
    InTable t d ↔ ∃ i, d ∈ B i := by
  constructor
  · rintro ⟨i, l, hi, hr, hd⟩
    have hl := (hb.ring i hi).unique hr
    exact ⟨i, by rwa [(List.map_injective_iff.mpr node_injective) hl]⟩
  · rintro ⟨i, hd⟩
    exact ⟨i, B i, hb.lt hd, hb.ring i (hb.lt hd), hd⟩

theorem mem_bucket {i : Nat} : e ∈ R.bucket i ↔ e ∈ R.entries ∧ home e.key = i := by
  simp [Roster.bucket]

theorem mem_devs : e ∈ R.entries → e.dev ∈ R.devs := fun h => List.mem_map_of_mem h

/-- The buckets of a roster hold its devices. -/
theorem linked_of_buckets (hb : Buckets w.table fun i => (R.bucket i).map Entry.dev) (d : Nat) :
    d ∈ R.devs ↔ InTable w.table d := by
  rw [hb.inTable_iff]
  constructor
  · intro h
    obtain ⟨e, he, rfl⟩ := List.mem_map.mp h
    exact ⟨home e.key, List.mem_map_of_mem (mem_bucket.mpr ⟨he, rfl⟩)⟩
  · rintro ⟨i, h⟩
    obtain ⟨e, he, rfl⟩ := List.mem_map.mp h
    exact mem_devs (mem_bucket.mp he).1

theorem Held.conserved (hh : Held w R) : Conserved w.toStore :=
  ⟨R.devs, hh.distinct, hh.linked, hh.counted⟩

/-- The table holds a reference to each of its devices, so they exist. -/
theorem Held.live (hh : Held w R) (hd : d ∈ R.devs) : ∃ D, w.devs.get d = some D :=
  hh.counted.counts.exists_of_pos (refsTo_pos_of_linked hd)

theorem Rep.notice (hr : Rep w m R) (he : e ∈ R.entries) :
    ∃ D, w.devs.get e.dev = some D ∧ D.monitor = some m ∧
      D.notice e.dev = e.notice m (R.status e.dev) := by
  obtain ⟨D, hD⟩ := hr.live (mem_devs he)
  obtain ⟨hk, hi, hm⟩ := hr.fields e he D hD
  refine ⟨D, hD, hm, ?_⟩
  simp only [HsDevice.notice, Entry.notice, hk, hi, hm, hr.status _ D hD]

/-- A bucket is no longer than the number of objects that were ever allocated. -/
theorem Rep.bucket_length (hr : Rep w m R) (i : Nat) : (R.bucket i).length ≤ w.devs.brk := by
  have hl := Heap.length_le_brk (h := w.devs) (hr.buckets.nodup i) fun d hd => by
    obtain ⟨e, he, rfl⟩ := List.mem_map.mp hd
    exact hr.live (mem_devs (mem_bucket.mp he).1)
  rwa [List.length_map] at hl

theorem Rep.listeners_length (hr : Rep w m R) : R.listeners.length ≤ w.cbs.brk := by
  have hn : (R.listeners.map Listener.addr).Nodup := by
    have : ((R.listeners.map Listener.addr).map CbRef.record).Nodup := by
      rw [List.map_map]
      exact hr.ring.fwd.nodup
    exact this.of_map
  have hl := Heap.length_le_brk (h := w.cbs) hn fun a ha => by
    obtain ⟨c, hc, rfl⟩ := List.mem_map.mp ha
    exact ⟨_, hr.records c hc⟩
  rwa [List.length_map] at hl

/-! ## What user code leaves alone -/

theorem Untouched.inTable_iff (hu : Untouched w w') (hc' : Counted w'.toStore R.devs)
    (hl : ∀ d, d ∈ R.devs ↔ InTable w.table d) (d : Nat) :
    InTable w'.table d ↔ InTable w.table d := by
  have hcell : ∀ i, w'.table.next (.cell i) = w.table.next (.cell i) := by
    intro i
    simp only [HTable.next, hu.size, hu.heads]
  constructor
  · intro h
    refine h.congr hu.size.symm (fun i => (hcell i).symm) fun x hx => ?_
    obtain ⟨v, hv⟩ := hx.next
    have hne : w'.devs.get x ≠ none := by
      rw [Ne, ← hc'.counts.node x]
      exact HTable.next_node_ne_none.mp (by rw [hv]; exact Option.some_ne_none _)
    obtain ⟨D', hD'⟩ := Option.ne_none_iff_exists'.mp hne
    exact (hu.nodes x D' hD').symm
  · intro h
    refine h.congr hu.size hcell fun x hx => ?_
    obtain ⟨D', hD'⟩ := hc'.counts.exists_of_pos (refsTo_pos_of_linked ((hl x).mpr hx))
    exact hu.nodes x D' hD'

/-- The log goes on while devices change their counters only. -/
theorem History.quiet (hi : History w) (hq : Quiet w w') (hl : Continues w.log w'.log)
    (hv : ∀ v ∈ w'.views, v ∈ w.views ∨ v.Good ∧ v.Logged w'.log) : History w' := by
  refine ⟨fun d D' hD' => ?_, fun d k hm => ?_, fun v hm => ?_⟩
  · obtain ⟨D, n, hD, rfl⟩ := hq.same d D' hD'
    rw [hl.status]
    exact hi.sound d D hD
  · have hb : w'.devs.brk = w.devs.brk := hq.brk
    rw [hb]
    exact hi.fresh d k (hl.inserted d k hm)
  · rcases hv v hm with hm | h
    · exact ⟨(hi.views v hm).1, (hi.views v hm).2.mono hl.grows⟩
    · exact h

/-- Nothing is logged and no callback runs. -/
theorem History.untouched (hi : History w) (hu : Untouched w w') : History w' := by
  have hlog : w'.log = w.log := by rw [hu.frame]
  have hviews : w'.views = w.views := by rw [hu.frame]
  refine hi.quiet hu.quiet (by rw [hlog]; exact Continues.refl _) fun v hm => Or.inl ?_
  rwa [hviews] at hm

/-- Operations of the user keep what is held. -/
theorem Held.quiet (hh : Held w R) (hq : Quiet w w') (hc' : Counted w'.toStore R.devs)
    (he : R'.entries = R.entries) (hs : R'.status = R.status) (hl : w'.log = R'.log)
    (hi : History w') : Held w' R' := by
  have hdevs : R'.devs = R.devs := by rw [Roster.devs, he, Roster.devs]
  refine ⟨by rwa [hdevs], by rw [hdevs]; exact hh.distinct, fun d => ?_, fun d D' hD' => ?_, hl, hi⟩
  · rw [hdevs, hh.linked d]
    exact (Untouched.inTable_iff hq hc' hh.linked d).symm
  · obtain ⟨D, n, hD, rfl⟩ := hq.same d D' hD'
    rw [hs]
    exact hh.status d D hD

/-- So do they keep the shape of what exists. -/
theorem Shape.quiet (hs : Shape w m R) (hq : Quiet w w')
    (hlive : ∀ e ∈ R.entries, ∃ D, w'.devs.get e.dev = some D)
    (he : R'.entries = R.entries) (hl : R'.listeners = R.listeners) (hn : R'.nextId = R.nextId) :
    Shape w' m R' := by
  have hf := hq.frame
  have hb : R'.bucket = R.bucket := by
    funext i
    rw [Roster.bucket, he, Roster.bucket]
  have hnode : ∀ e ∈ R.entries, w'.table.nodes e.dev = w.table.nodes e.dev := by
    intro e hm
    obtain ⟨D', hD'⟩ := hlive e hm
    exact hq.nodes _ _ hD'
  refine ⟨?_, ?_, hq.size.trans hs.size, ?_, ?_, ?_, ?_, ?_⟩
  · rw [hf]
    exact hs.monitor
  · rw [hf, hn]
    exact hs.nextId
  · rw [hb]
    refine hs.buckets.congr hq.size (fun i => ?_) fun i d hd => ?_
    · have hs : w'.table.size = w.table.size := hq.size
      have hh : w'.table.heads = w.table.heads := hq.heads
      simp only [HTable.next, hs, hh]
    · obtain ⟨e, hm, rfl⟩ := List.mem_map.mp hd
      exact hnode e (mem_bucket.mp hm).1
  · intro e hm
    rw [he] at hm
    rw [HTable.keyOf, hnode e hm]
    exact hs.hash e hm
  · intro e hm D' hD'
    rw [he] at hm
    obtain ⟨D, n, hD, rfl⟩ := hq.same _ _ hD'
    exact hs.fields e hm D hD
  · rw [hf, hl]
    exact hs.ring
  · rw [hf, hl]
    exact hs.records

theorem Rep.quiet (hr : Rep w m R) (hq : Quiet w w') (hh : Held w' R')
    (he : R'.entries = R.entries) (hl : R'.listeners = R.listeners) (hn : R'.nextId = R.nextId) :
    Rep w' m R' :=
  ⟨hh, hr.toShape.quiet hq (fun _ hm => hh.live (mem_devs (by rwa [he]))) he hl hn⟩

/-- A log entry that says nothing about a device. -/
theorem Rep.emit (hr : Rep w m R) (ev : Event) (hc : Continues w.log (w.log ++ [ev])) :
    Rep (w.emit ev) m (R.emit ev) where
  counted := hr.counted
  distinct := hr.distinct
  linked := hr.linked
  status := hr.status
  log := by simp only [World.emit, Roster.emit, hr.log]
  history := hr.history.quiet (Untouched.refl (w.emit ev)) hc fun _ hm => Or.inl hm
  monitor := hr.monitor
  nextId := hr.nextId
  size := hr.size
  buckets := hr.buckets
  hash := hr.hash
  fields := hr.fields
  ring := hr.ring
  records := hr.records

/-! ## Calling user code -/

/-- Events that log a call of user code. -/
def Event.Calls (mk : Notice → Int → Event) : Prop :=
  ∀ n ret, (mk n ret).shown = some n.dev ∧ ∀ log, Continues log (log ++ [mk n ret])

theorem notify_calls (id : Nat) : Event.Calls (.notify id) := fun n ret =>
  ⟨rfl, fun _ => Continues.snoc (.notify id n ret) (fun _ => rfl) fun _ _ h => nomatch h⟩

theorem visit_calls : Event.Calls .visit := fun n ret =>
  ⟨rfl, fun _ => Continues.snoc (.visit n ret) (fun _ => rfl) fun _ _ h => nomatch h⟩

theorem found_calls : Event.Calls .found := fun n ret =>
  ⟨rfl, fun _ => Continues.snoc (.found n ret) (fun _ => rfl) fun _ _ h => nomatch h⟩

theorem runUser_held (f : Nat) (hmk : Event.Calls mk) (hu : u.limit ≤ uintMod) (hh : Held w R)
    (hd : w.devs.get d = some D) :
    ∃ w', runUser u f mk w d = some ((u.react R.log f (D.notice d)).ret, w') ∧ Quiet w w' ∧
      w'.busy = w.busy ∧
      Held w' (R.emit (mk (D.notice d) (u.react R.log f (D.notice d)).ret)) := by
  rw [← hh.log]
  obtain ⟨w₁, e, hun, hc⟩ := userActs_spec hu (u.react w.log f (D.notice d)).acts
    (w := { w with views := w.views ++ [⟨w.log, d, w.toStore⟩] }) hh.counted
  have hf := hun.frame
  have hq : Quiet w (w₁.emit (mk (D.notice d) (u.react w.log f (D.notice d)).ret)) := by
    refine ⟨?_, hun.size, hun.heads, hun.brk, hun.same, hun.nodes⟩
    rw [hf]
    rfl
  refine ⟨w₁.emit (mk (D.notice d) (u.react w.log f (D.notice d)).ret), ?_, hq, by rw [hf]; rfl, ?_⟩
  · simp only [runUser, hd, Option.bind_eq_bind, Option.bind_some, e]
  · have hlog : Continues w.log (w₁.emit (mk (D.notice d) (u.react w.log f (D.notice d)).ret)).log := by
      rw [hf]
      exact (hmk _ _).2 _
    refine hh.quiet hq hc rfl rfl ?_ (hh.history.quiet hq hlog fun v hv => ?_)
    · rw [hf]
      simp only [World.emit, Roster.emit, hh.log]
    · have hv' : v ∈ w.views ++ [⟨w.log, d, w.toStore⟩] := by
        rw [hf] at hv
        exact hv
      rcases List.mem_append.mp hv' with h | h
      · exact Or.inl h
      · rw [List.mem_singleton.mp h]
        refine Or.inr ⟨⟨hh.conserved, hh.history.sound⟩, _, (hmk (D.notice d)
          (u.react w.log f (D.notice d)).ret).1, ?_⟩
        rw [hf]
        exact List.prefix_refl _

/-- A call of user code on a device of the table. -/
theorem runUser_spec (f : Nat) (hmk : Event.Calls mk) (hu : u.limit ≤ uintMod) (hr : Rep w m R)
    (he : e ∈ R.entries) :
    ∃ w', runUser u f mk w e.dev = some ((u.react R.log f (e.notice m (R.status e.dev))).ret, w') ∧
      Rep w' m (R.emit (mk (e.notice m (R.status e.dev))
        (u.react R.log f (e.notice m (R.status e.dev))).ret)) ∧ w'.busy = w.busy := by
  obtain ⟨D, hD, -, hn⟩ := hr.notice he
  obtain ⟨w', h, hq, hb, hh⟩ := runUser_held f hmk hu hr.toHeld hD
  rw [hn] at h hh
  exact ⟨w', h, hr.quiet hq hh rfl rfl rfl, hb⟩

/-- A call of user code is one view. -/
theorem runUser_views {r : Int} (hu : u.limit ≤ uintMod) (hr : Rep w m R)
    (h : runUser u f mk w d = some (r, w')) : w'.views = w.views ++ [⟨w.log, d, w.toStore⟩] := by
  obtain ⟨D, -, h⟩ := Option.bind_eq_some_iff.mp h
  obtain ⟨w₁, e₁, h⟩ := Option.bind_eq_some_iff.mp h
  cases h
  obtain ⟨w₂, e₂, hun, -⟩ := userActs_spec hu (u.react w.log f (D.notice d)).acts
    (w := { w with views := w.views ++ [⟨w.log, d, w.toStore⟩] }) hr.counted
  rw [e₁] at e₂
  cases e₂
  show w₁.views = _
  rw [hun.frame]

/-- What the user does on his own. -/
theorem userAct_held {limit : Nat} (hlim : limit ≤ uintMod) (hh : Held w R) (a : UserAct) :
    ∃ w', userAct limit w a = some w' ∧ Quiet w w' ∧ w'.busy = w.busy ∧ Held w' R := by
  obtain ⟨w', e, hu, hc⟩ := userAct_spec hlim a hh.counted
  have hf := hu.frame
  refine ⟨w', e, hu.quiet, by rw [hf], hh.quiet hu.quiet hc rfl rfl ?_ (hh.history.untouched hu)⟩
  rw [hf]
  exact hh.log

/-- A library call drops a reference it holds. -/
theorem unrefBusy_held (hh : Held w R) (hd : d ∈ w.busy) :
    ∃ w', w.unrefBusy (some d) = some w' ∧ Quiet w w' ∧ w'.busy = w.busy.erase d ∧ Held w' R := by
  have hcount := List.count_pos_iff.mpr hd
  obtain ⟨w₁, e, hu, hf, hc⟩ := deviceUnref_spec hh.counted.counts (refsTo_pos_of_busy hd)
  have hq : Quiet w { w₁ with busy := w₁.busy.erase d } := by
    refine ⟨?_, hu.size, hu.heads, hu.brk, hu.same, hu.nodes⟩
    rw [hf]
  refine ⟨{ w₁ with busy := w₁.busy.erase d },
    by simp only [World.unrefBusy, e, Option.bind_eq_bind, Option.bind_some], hq, ?_, ?_⟩
  · rw [hf]
  · refine hh.quiet hq ⟨hc.congr fun x => ?_, ?_⟩ rfl rfl ?_
      ((hh.history.untouched hu).quiet (Untouched.refl _) (Continues.refl _) fun _ hm => Or.inl hm)
    · rw [hf]
      by_cases hx : x = d
      · subst hx
        simp only [Function.update_self, Store.refsTo, List.count_erase_self]
        omega
      · simp only [Function.update_of_ne hx, Store.refsTo, List.count_erase_of_ne hx]
    · refine hh.counted.handles.mono ?_ ?_ hu.vtable
      · rw [hf]
      · rw [hf]
    · rw [hf]
      exact hh.log

/-! ## New devices -/

theorem statusOf_of_not_inserted {log : List Event} (h : ∀ k, .inserted d k ∉ log) :
    statusOf log d = .disconnected := by
  induction log using List.reverseRecOn with
  | nil => rfl
  | append_singleton log ev ih =>
    have hd := ih fun k hk => h k (List.mem_append_left _ hk)
    have hev : ∀ k, ev ≠ .inserted d k := fun k he => h k (by simp [he])
    rw [statusOf_snoc]
    cases ev with
    | inserted d' k =>
      have hne : d ≠ d' := by
        rintro rfl
        exact hev k rfl
      exact (Function.update_of_ne hne ..).trans hd
    | gone d' =>
      by_cases hdd : d = d'
      · subst hdd
        exact Function.update_self ..
      · exact (Function.update_of_ne hdd ..).trans hd
    | _ => exact hd

theorem History.statusOf_brk (hi : History w) : statusOf w.log w.devs.brk = .disconnected :=
  statusOf_of_not_inserted fun k hm => absurd (hi.fresh _ k hm) (Nat.lt_irrefl _)

/-- A new node is not linked. -/
theorem inTable_allocDev (hnew : ¬ InTable w.table w.devs.brk) (d : Nat) :
    InTable (w.allocDev D).2.table d ↔ InTable w.table d := by
  have hnode : ∀ x, x ≠ w.devs.brk →
      (w.allocDev D).2.table.nodes x = w.table.nodes x := fun x hx => Function.update_of_ne hx ..
  constructor
  · intro h
    refine h.congr rfl (fun i => rfl) fun x hx => (hnode x ?_).symm
    -- its field is NULL
    rintro rfl
    obtain ⟨v, hv⟩ := hx.next
    simp [HTable.next, World.allocDev] at hv
  · intro h
    refine h.congr rfl (fun i => rfl) fun x hx => hnode x ?_
    rintro rfl
    exact hnew hx

/-- A device from `calloc` with one reference, which somebody holds. -/
theorem allocDev_held (hh : Held w R) (hD : D.refcount = 1) (hs : D.state = .disconnected)
    {userRefs : Nat → Nat} {busy : List Nat} (hown : ∀ x, userRefs x + busy.count x =
      w.userRefs x + w.busy.count x + if x = w.devs.brk then 1 else 0) :
    Held { (w.allocDev D).2 with userRefs := userRefs, busy := busy }
      (R.setStatus w.devs.brk .disconnected) := by
  have hgone : w.toStore.refsTo R.devs w.devs.brk = 0 := hh.counted.counts.gone _ (Heap.get_brk _)
  have hne : ∀ x, 0 < w.toStore.refsTo R.devs x → x ≠ w.devs.brk := by
    rintro x hx rfl
    rw [hgone] at hx
    exact absurd hx (Nat.lt_irrefl 0)
  have hnew : ¬ InTable w.table w.devs.brk := fun h =>
    hne _ (refsTo_pos_of_linked ((hh.linked _).mpr h)) rfl
  refine ⟨⟨(hh.counted.counts.alloc hD).congr fun x => ?_, hh.counted.handles.ids,
    hh.counted.handles.next, fun h hm X hX => ?_⟩, hh.distinct, fun x => ?_, fun x X hX => ?_,
    hh.log, ⟨fun x X hX => ?_, fun x k hm => ?_, hh.history.views⟩⟩
  · have hx := hown x
    have hdevs : (R.setStatus w.devs.brk .disconnected).devs = R.devs := rfl
    simp only [Function.update_apply, hdevs, Store.refsTo, World.allocDev]
    split at hx
    · next hxb =>
      rw [if_pos hxb, ← hxb]
      omega
    · next hxb =>
      rw [if_neg hxb]
      omega
  · simp only [World.allocDev, Heap.get_alloc, if_neg (hne _ (refsTo_pos_of_handle hm))] at hX
    exact hh.counted.handles.served h hm X hX
  · exact (hh.linked x).trans (inTable_allocDev (D := D) hnew x).symm
  · simp only [World.allocDev, Heap.get_alloc] at hX
    split at hX
    · next hxb =>
      subst hxb
      cases hX
      simp [Roster.setStatus, hs]
    · next hxb =>
      simp only [Roster.setStatus, Function.update_of_ne hxb]
      exact hh.status x X hX
  · simp only [World.allocDev, Heap.get_alloc] at hX
    split at hX
    · next hxb =>
      subst hxb
      cases hX
      rw [hs]
      exact ⟨hh.history.statusOf_brk.symm, fun h => by cases h⟩
    · exact hh.history.sound x X hX
  · exact (hh.history.fresh x k hm).trans (Nat.lt_succ_self _)

theorem allocDev_rep (hr : Rep w m R) (hD : D.refcount = 1) (hs : D.state = .disconnected)
    {userRefs : Nat → Nat} {busy : List Nat} (hown : ∀ x, userRefs x + busy.count x =
      w.userRefs x + w.busy.count x + if x = w.devs.brk then 1 else 0) :
    Rep { (w.allocDev D).2 with userRefs := userRefs, busy := busy } m
      (R.setStatus w.devs.brk .disconnected) := by
  have hne : ∀ e ∈ R.entries, e.dev ≠ w.devs.brk := by
    intro e he hb
    obtain ⟨X, hX⟩ := hr.live (mem_devs he)
    rw [hb, Heap.get_brk] at hX
    cases hX
  have hnode : ∀ e ∈ R.entries, (w.allocDev D).2.table.nodes e.dev = w.table.nodes e.dev :=
    fun e he => Function.update_of_ne (hne e he) ..
  refine ⟨allocDev_held hr.toHeld hD hs hown, hr.monitor, hr.nextId, hr.size, ?_, fun e he => ?_,
    fun e he X hX => ?_, hr.ring, hr.records⟩
  · refine hr.buckets.congr rfl (fun i => rfl) fun i d hd => ?_
    obtain ⟨e, he, rfl⟩ := List.mem_map.mp hd
    exact hnode e (mem_bucket.mp he).1
  · simp only [HTable.keyOf, hnode e he]
    exact hr.hash e he
  · simp only [World.allocDev, Heap.get_alloc, if_neg (hne e he)] at hX
    exact hr.fields e he X hX

/-- A new device is in no table and never was. -/
theorem Held.unused_brk (hh : Held w R) : R.Unused w.devs.brk := by
  refine ⟨fun hm => ?_, fun k hm => ?_⟩
  · obtain ⟨D, hD⟩ := hh.live hm
    rw [Heap.get_brk] at hD
    cases hD
  · rw [← hh.log] at hm
    exact absurd (hh.history.fresh _ k hm) (Nat.lt_irrefl _)

end Libhs
