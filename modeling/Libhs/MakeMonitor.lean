import Libhs.MonitorSpec

/-!
# Making and releasing a monitor

`Idle w R`: there is no monitor. `_hs_monitor_init` leads from there to a monitor with
an empty table (`monitorInit_spec`), and `_hs_monitor_release` back, from wherever
the monitor is (`monitorRelease_spec`, `releaseBlank_spec`).
-/

namespace Libhs
open Pointer

variable {u : User} {w w' : World} {R R' : Roster} {m d : Nat} {D : HsDevice}

/-- There is no monitor. -/
structure Idle (w : World) (R : Roster) : Prop extends Held w R where
  entries : R.entries = []
  monitor : w.monitor = none
  size : w.table.size = 0

/-- The lists of a new monitor. -/
def Roster.fresh (R : Roster) : Roster :=
  { R with entries := [], listeners := [], nextId := 0 }

/-- The lists after a monitor was released. -/
def Roster.release (R : Roster) : Roster := R.fresh.emit .released

theorem not_inTable_of_size {t : HTable Nat} (h : t.size = 0) (d : Nat) : ¬ InTable t d := by
  rintro ⟨i, -, hi, -⟩
  rw [h] at hi
  exact absurd hi (Nat.not_lt_zero i)

theorem idle_start : Idle World.start Roster.empty where
  counted :=
    { counts := ⟨fun _ _ h => by simp [World.start] at h, fun _ _ => rfl, fun _ => by
        simp [World.start, HTable.keyOf]⟩
      handles := ⟨List.nodup_nil, fun _ h => absurd h List.not_mem_nil,
        fun _ h => absurd h List.not_mem_nil⟩ }
  distinct := List.nodup_nil
  linked d := by
    simp only [Roster.devs, Roster.empty, List.map_nil, List.not_mem_nil, false_iff]
    exact not_inTable_of_size rfl d
  status _ _ h := by simp [World.start] at h
  log := rfl
  history := ⟨fun _ _ h => by simp [World.start] at h, fun _ _ h => absurd h List.not_mem_nil,
    fun _ h => absurd h List.not_mem_nil⟩
  entries := rfl
  monitor := rfl
  size := rfl

/-- `_hs_monitor_init` of a monitor fresh from `calloc`. -/
theorem monitorInit_spec (hi : Idle w R) :
    ∃ w', hsMonitorInit w.allocMonitor true = some (0, w') ∧ Rep w' w.monitors R.fresh ∧
      w'.busy = w.busy := by
  obtain ⟨links, e₁, hring, -⟩ := listInit_spec (m := w.allocMonitor.links) (h := CbRef.head) (by
    simp [World.allocMonitor])
  have hdevs : R.fresh.devs = R.devs := by
    rw [Roster.devs, Roster.devs, hi.entries]
    rfl
  have hbk : Buckets (hsHtableClear { w.table with size := 64, heads := fun _ => none })
      fun i => (R.fresh.bucket i).map Entry.dev := buckets_clear (Nat.succ_pos 63)
  refine ⟨{ w.allocMonitor with
      links := links
      table := hsHtableClear { w.table with size := 64, heads := fun _ => none } },
    by simp only [hsMonitorInit, e₁, hsHtableInit, Option.bind_eq_bind, Option.bind_some,
      ↓reduceIte]; rfl, ⟨⟨?_, ?_, ?_, hi.status, hi.log, hi.history.sound, hi.history.fresh,
        hi.history.views⟩, ?_⟩, rfl⟩
  · rw [hdevs]
    exact ⟨⟨hi.counted.counts.live, hi.counted.counts.gone, hi.counted.counts.node⟩,
      ⟨hi.counted.handles.ids, hi.counted.handles.next, hi.counted.handles.served⟩⟩
  · rw [hdevs]
    exact hi.distinct
  · exact linked_of_buckets (w := { w with
      table := hsHtableClear { w.table with size := 64, heads := fun _ => none } }) hbk
  · exact ⟨rfl, rfl, rfl, hbk, fun _ h => absurd h List.not_mem_nil,
      fun _ h => absurd h List.not_mem_nil, hring, fun _ h => absurd h List.not_mem_nil⟩

/-- `_hs_monitor_init` without memory for the table. -/
theorem monitorInit_fails (w : World) :
    ∃ links, hsMonitorInit w.allocMonitor false =
        some (hsError .memory none, { w.allocMonitor with links := links }) ∧
      DRing links .head [] := by
  obtain ⟨links, e, hring, -⟩ := listInit_spec (m := w.allocMonitor.links) (h := CbRef.head) (by
    simp [World.allocMonitor])
  refine ⟨links, ?_, hring⟩
  simp only [hsMonitorInit, e, hsHtableInit, Option.bind_eq_bind, Option.bind_some,
    Bool.false_eq_true, ↓reduceIte]

/-- `_hs_monitor_release` under way: the devices `linked` are still to be released. -/
structure Releasing (w : World) (R : Roster) (linked : List Nat) (w' : World) : Prop where
  frame : w' = { w with
    devs := w'.devs
    table := w'.table }
  size : w'.table.size = w.table.size
  heads : w'.table.heads = w.table.heads
  counted : Counted w'.toStore linked
  nodes : ∀ d ∈ linked, w'.table.nodes d = w.table.nodes d
  brk : w'.devs.brk = w.devs.brk
  same : ∀ d D', w'.devs.get d = some D' → ∃ D mon n, w.devs.get d = some D ∧
    D' = { D with monitor := mon, refcount := n }

theorem releaseDeviceBody_spec {linked : List Nat} (hr : Releasing w R (d :: linked) w') :
    ∃ w'', releaseDeviceBody d w' = some (.next, w'') ∧ Releasing w R linked w'' := by
  have hpos : 0 < w'.toStore.refsTo (d :: linked) d := by
    simp only [Store.refsTo, List.count_cons_self]
    omega
  obtain ⟨D, hD⟩ := hr.counted.counts.exists_of_pos hpos
  obtain ⟨hrc, hp, hlt⟩ := hr.counted.counts.live d D hD
  obtain ⟨devs₁, e₁, hbrk₁, hg₁⟩ := setDev_some w' { D with monitor := none } hD
  have hc₁ : CountedBy devs₁ w'.table (w'.toStore.refsTo (d :: linked)) :=
    hr.counted.counts.write hD hg₁ hrc hp hlt fun _ _ => rfl
  obtain ⟨w'', e₂, hu, hf, hc₂⟩ := deviceUnref_spec (w := { w' with devs := devs₁ }) hc₁ hpos
  have hcnt : Function.update (w'.toStore.refsTo (d :: linked)) d
      (w'.toStore.refsTo (d :: linked) d - 1) = w'.toStore.refsTo linked := by
    rw [refsTo_cons, Function.update_self, Nat.add_sub_cancel, Function.update_idem,
      Function.update_eq_self]
  rw [hcnt] at hc₂
  have hsame : ∀ x D', w''.devs.get x = some D' → ∃ D₀ mon n, w'.devs.get x = some D₀ ∧
      D' = { D₀ with monitor := mon, refcount := n } := by
    intro x D' hx
    obtain ⟨D₁, n, hD₁, rfl⟩ := hu.same x D' hx
    simp only [hg₁] at hD₁
    split at hD₁
    · next hxd => subst hxd; cases hD₁; exact ⟨D, none, n, hD, rfl⟩
    · exact ⟨D₁, D₁.monitor, n, hD₁, rfl⟩
  have hcounted : Counted w''.toStore linked := by
    refine ⟨hc₂.congr fun x => ?_, hr.counted.handles.mono ?_ ?_ fun x D' hx => ?_⟩
    · rw [hf]
      rfl
    · rw [hf]
    · rw [hf]
    · obtain ⟨D₀, mon, n, hD₀, rfl⟩ := hsame x D' hx
      exact ⟨D₀, hD₀, rfl⟩
  refine ⟨w'', ?_, ?_, hu.size.trans hr.size, hu.heads.trans hr.heads, hcounted, fun x hx => ?_,
    ?_, fun x D' hx => ?_⟩
  · simp only [releaseDeviceBody, hD, e₁, e₂, Option.bind_eq_bind, Option.bind_some]
  · rw [hf, hr.frame]
  · obtain ⟨X, hX⟩ := hcounted.counts.exists_of_pos (refsTo_pos_of_linked hx)
    exact (hu.nodes x X hX).trans (hr.nodes x (List.mem_cons_of_mem d hx))
  · exact (hu.brk.trans hbrk₁).trans hr.brk
  · obtain ⟨D₁, mon, n, hD₁, rfl⟩ := hsame x D' hx
    obtain ⟨D₀, mon₀, n₀, hD₀, rfl⟩ := hr.same x D₁ hD₁
    exact ⟨D₀, mon, n, hD₀, rfl⟩

/-- The first loop of `_hs_monitor_release` frees the callback records. -/
theorem releaseCallbacks_spec (hr : Rep w m R) :
    ∃ ex links cbs, hsListForeach World.links .head releaseCallbackBody w.listFuel w =
      some (ex, { w with links := links, cbs := cbs }) := by
  obtain ⟨w', e, todo, links, cbs, -, rfl, -⟩ : ∃ w', hsListForeach World.links .head
      releaseCallbackBody w.listFuel w = some (.fell, w') ∧ _ := listForeach_free
    (P := fun l w' => ∃ todo links cbs, l = todo.map (fun c => CbRef.record c.addr) ∧
      w' = { w with links := links, cbs := cbs } ∧
      ∀ c ∈ todo, cbs.get c.addr = some ⟨c.id, c.f⟩) hr.ring
    (by
      rintro x l w' ⟨todo, links, cbs, hl, rfl, hcbs⟩ hx
      cases todo with
      | nil => cases hl
      | cons c todo =>
        rw [List.map_cons, List.cons.injEq] at hl
        obtain ⟨rfl, rfl⟩ := hl
        obtain ⟨cbs', e₁, -, hg⟩ := Heap.free_some (hcbs c List.mem_cons_self)
        refine ⟨{ w with links := Function.update links (.record c.addr) none, cbs := cbs' }, ?_,
          rfl, todo, _, cbs', rfl, rfl, fun x hx' => ?_⟩
        · simp only [releaseCallbackBody, World.freeCallback, e₁, Option.bind_eq_bind,
            Option.bind_some]
        · have hne : x.addr ≠ c.addr := fun he => hx (List.mem_map.mpr ⟨x, hx', by rw [he]⟩)
          rw [hg, if_neg hne]
          exact hcbs x (List.mem_cons_of_mem c hx'))
    ⟨R.listeners, w.links, w.cbs, rfl, rfl, hr.records⟩
    (by simpa [World.listFuel, Nat.lt_succ_iff] using hr.listeners_length)
  exact ⟨_, links, cbs, e⟩

theorem Releasing.history {linked : List Nat} (h : Releasing w R linked w') (hi : History w) :
    History w' := by
  have hlog : w'.log = w.log := by rw [h.frame]
  have hviews : w'.views = w.views := by rw [h.frame]
  refine ⟨fun d D' hD' => ?_, fun d k hm => ?_, fun v hv => ?_⟩
  · obtain ⟨D, mon, n, hD, rfl⟩ := h.same d D' hD'
    rw [hlog]
    exact hi.sound d D hD
  · have hb : w'.devs.brk = w.devs.brk := h.brk
    rw [hlog] at hm
    rw [hb]
    exact hi.fresh d k hm
  · rw [hviews] at hv
    rw [hlog]
    exact hi.views v hv

/-- The second loop drops the references of the table, and frees the devices that have no other. -/
theorem releaseDevices_spec {links : Links CbRef} {cbs : Heap Callback} (hr : Rep w m R)
    (hw' : w' = { w with links := links, cbs := cbs }) :
    ∃ r w'', hsHtableForeach (fun w => w.table) releaseDeviceBody w'.tableFuel w' = some (r, w'') ∧
      Releasing w' R [] w'' := by
  have hperm : (R.orderFrom 0).Perm R.entries := by
    rw [orderFrom_zero]
    exact order_perm R
  have hstart : Releasing w' R ((R.orderFrom 0).map Entry.dev) w' := by
    subst hw'
    refine ⟨rfl, rfl, rfl, ⟨?_, hr.counted.handles⟩, fun _ _ => rfl, rfl,
      fun d D hD => ⟨D, D.monitor, D.refcount, hD, rfl⟩⟩
    refine hr.counted.counts.congr fun x => ?_
    have hcount : ((R.orderFrom 0).map Entry.dev).count x = R.devs.count x :=
      (hperm.map _).count_eq x
    simp only [Store.refsTo, hcount]
  have htable : w'.table = w.table := by rw [hw']
  have hbrk : w'.devs.brk = w.devs.brk := by rw [hw']
  exact htableForeach_rule (N := 64)
    (J := fun i w'' => Releasing w' R ((R.orderFrom i).map Entry.dev) w'')
    (I := fun i l w'' => i < 64 ∧ ∃ done todo, l = todo.map Entry.dev ∧
      R.bucket i = done ++ todo ∧ Releasing w' R ((todo ++ R.orderFrom (i + 1)).map Entry.dev) w'')
    (Q := fun _ w'' => Releasing w' R [] w'')
    (by
      intro i w'' hi hJ
      have hhead := (hr.buckets.ring i (by rw [hr.size]; exact hi)).head_next
      refine ⟨(R.bucket i).map Entry.dev, ⟨hi, [], R.bucket i, rfl, rfl, ?_⟩, ?_, ?_⟩
      · rwa [← orderFrom_succ R hi]
      · have := hr.bucket_length i
        simp only [List.length_map, World.tableFuel, hbrk]
        omega
      · rw [← hhead]
        simp only [HTable.next, hJ.size, hJ.heads, htable])
    (by
      rintro i l w'' ⟨hi, done, todo, rfl, hb, hR⟩
      have hring := hr.buckets.ring i (by rw [hr.size]; exact hi)
      rw [hb, List.map_append, List.map_append] at hring
      have hrest : Rest HTable.next (.cell i) ((todo.map Entry.dev).map HRef.node) w.table :=
        hring.rest
      obtain ⟨hc, hn, v, hv⟩ := hrest
      refine ⟨hc.congr fun y hy => ?_, hn, v, ?_⟩
      · -- the devices that are left were not written
        obtain ⟨d, hd, rfl⟩ := List.mem_map.mp hy
        have hnode := hR.nodes d (by simp [List.map_append, hd])
        simp only [HTable.next, hnode, htable]
      · rw [← hv]
        simp only [HTable.next, hR.size, hR.heads, htable])
    (by
      rintro i x l w'' ⟨hi, done, todo, hl, hb, hR⟩
      cases todo with
      | nil => cases hl
      | cons x todo =>
        rw [List.map_cons, List.cons.injEq] at hl
        obtain ⟨rfl, rfl⟩ := hl
        obtain ⟨w₁, e, hR'⟩ := releaseDeviceBody_spec hR
        exact ⟨.next, w₁, e, hi, done ++ [x], todo, rfl, by simp [hb], hR'⟩)
    (by
      rintro i w'' ⟨hi, done, todo, hl, hb, hR⟩
      cases todo with
      | cons e todo => cases hl
      | nil => exact hR)
    (by
      intro w'' hJ
      simpa [Roster.orderFrom] using hJ)
    hstart (by rw [htable]; exact hr.size)

/-- What is left of the monitor is freed, when the table holds no device. -/
theorem released_idle (hc : Counted w.toStore [])
    (hst : ∀ d D, w.devs.get d = some D → D.state = R.status d) (hlog : w.log = R.log)
    (hi : History w) :
    Idle (World.emit { w with table := hsHtableRelease w.table } .released).freeMonitor
      R.release := by
  have hcont : Continues w.log (w.log ++ [.released]) :=
    Continues.snoc _ (fun _ => rfl) fun _ _ h => nomatch h
  have hi' : History (w.emit .released) :=
    hi.quiet (Untouched.refl (w.emit .released)) hcont fun _ hm => Or.inl hm
  refine ⟨⟨⟨⟨hc.counts.live, hc.counts.gone, hc.counts.node⟩,
    ⟨hc.handles.ids, hc.handles.next, hc.handles.served⟩⟩, List.nodup_nil, fun d => ?_, hst, ?_,
    ⟨hi'.sound, hi'.fresh, hi'.views⟩⟩, rfl, rfl, rfl⟩
  · refine iff_of_false List.not_mem_nil ?_
    exact not_inTable_of_size rfl d
  · show w.log ++ [.released] = R.log ++ [.released]
    rw [hlog]

/-- `_hs_monitor_release` drops the references of the table, and frees what that leaves without
any. -/
theorem monitorRelease_spec (hr : Rep w m R) :
    ∃ w', hsMonitorRelease w = some w' ∧ Idle w'.freeMonitor R.release ∧ w'.busy = w.busy := by
  obtain ⟨ex, links, cbs, e₁⟩ := releaseCallbacks_spec hr
  obtain ⟨r, w', e₂, hq⟩ := releaseDevices_spec hr
    (show ({ w with links := links, cbs := cbs } : World) = _ from rfl)
  refine ⟨World.emit { w' with table := hsHtableRelease w'.table } .released, ?_,
    released_idle hq.counted (fun d D' hD' => ?_) ?_ (hq.history ?_), ?_⟩
  · simp only [hsMonitorRelease, e₁, e₂, Option.bind_eq_bind, Option.bind_some]
  · obtain ⟨D, mon, n, hD, rfl⟩ := hq.same d D' hD'
    exact hr.status d D hD
  · rw [hq.frame]
    exact hr.log
  · exact ⟨hr.history.sound, hr.history.fresh, hr.history.views⟩
  · show w'.busy = w.busy
    rw [hq.frame]

/-- Releasing a monitor whose table was never set up: its list may be set up, or still zero. -/
theorem releaseBlank_spec (hi : Idle w R) {links : Links CbRef}
    (hh : links .head = some ⟨none, none⟩ ∨ DRing links .head []) :
    ∃ w', hsMonitorRelease { w.allocMonitor with links := links } = some w' ∧
      Idle w'.freeMonitor R.release ∧ w'.busy = w.busy := by
  set w₁ : World := { w.allocMonitor with links := links } with hw₁
  have hlist : ∃ ex, hsListForeach World.links .head releaseCallbackBody w₁.listFuel w₁ =
      some (ex, w₁) := by
    rcases hh with hnull | hring
    · exact ⟨.fell, by simp [hsListForeach, hw₁, hnull]⟩
    · have hhead := hring.head
      simp only [lastOr_nil, firstOr_nil] at hhead
      exact ⟨.fell, by
        simp [hsListForeach, hw₁, hhead, foreach, nextOf, walk, World.listFuel]⟩
  obtain ⟨ex, hex⟩ := hlist
  have htable : hsHtableForeach (fun w => w.table) releaseDeviceBody w₁.tableFuel w₁ =
      some (none, w₁) := rfl
  have hcounted : Counted w₁.toStore [] := by
    have hnil : R.devs = [] := by rw [Roster.devs, hi.entries, List.map_nil]
    have hc := hi.counted
    rw [hnil] at hc
    exact ⟨⟨hc.counts.live, hc.counts.gone, hc.counts.node⟩,
      ⟨hc.handles.ids, hc.handles.next, hc.handles.served⟩⟩
  refine ⟨World.emit { w₁ with table := hsHtableRelease w₁.table } .released, ?_,
    released_idle hcounted hi.status hi.log
      ⟨hi.history.sound, hi.history.fresh, hi.history.views⟩, rfl⟩
  simp only [hsMonitorRelease, hex, htable, Option.bind_eq_bind, Option.bind_some]

end Libhs
