import Libhs.Rep

/-!
# The functions of `monitor.c` refine their list versions

For each function one lemma: started in a world that represents a roster, it does
not fail, returns what the list version returns, and ends in a world that
represents the roster the list version gives.
-/

namespace Libhs
open Pointer

variable {u : User} {w w' : World} {R R' : Roster} {m d f : Nat} {D : HsDevice} {e : Entry}
  {key : CStr}

/-! ## The callback list -/

/-- Changing the callback list only. -/
theorem Rep.relink (hr : Rep w m R) {links : Links CbRef} {cbs : Heap Callback}
    {ls : List Listener} {n : Nat}
    (hring : DRing links .head (ls.map fun c => CbRef.record c.addr))
    (hrec : ∀ c ∈ ls, cbs.get c.addr = some ⟨c.id, c.f⟩) :
    Rep { w with links := links, cbs := cbs, callbackId := n } m
      { R with listeners := ls, nextId := n } where
  counted := hr.counted
  distinct := hr.distinct
  linked := hr.linked
  status := hr.status
  log := hr.log
  history := ⟨hr.history.sound, hr.history.fresh, hr.history.views⟩
  monitor := hr.monitor
  nextId := rfl
  size := hr.size
  buckets := hr.buckets
  hash := hr.hash
  fields := hr.fields
  ring := hring
  records := hrec

/-- `drop_callback` takes one callback out of the list. -/
theorem dropCallback_spec {done todo : List Listener} {c : Listener}
    (hr : Rep w m { R with listeners := done ++ c :: todo }) :
    ∃ w', dropCallback w c.addr = some w' ∧ Rep w' m { R with listeners := done ++ todo } ∧
      w'.busy = w.busy := by
  have hring := hr.ring
  simp only [List.map_append, List.map_cons] at hring
  obtain ⟨links, e₁, hring', -, hf⟩ := listRemove_spec hring
  have hrec : w.cbs.get c.addr = some ⟨c.id, c.f⟩ := hr.records c (by simp)
  obtain ⟨cbs, e₂, -, hg⟩ := Heap.free_some hrec
  have hnd : (c.addr :: (done ++ todo).map Listener.addr).Nodup := by
    have hn := hring.fwd.nodup
    rw [List.perm_middle.nodup_iff] at hn
    have : ((c.addr :: (done ++ todo).map Listener.addr).map CbRef.record).Nodup := by
      simpa [Function.comp_def] using hn
    exact this.of_map
  have hne : ∀ x ∈ done ++ todo, x.addr ≠ c.addr := by
    intro x hx he
    exact (List.nodup_cons.mp hnd).1 (he ▸ List.mem_map_of_mem hx)
  refine ⟨{ w with links := Function.update links (.record c.addr) none, cbs := cbs }, ?_, ?_, rfl⟩
  · simp only [dropCallback, e₁, Option.bind_eq_bind, Option.bind_some, World.freeCallback, e₂]
  · have hn : w.callbackId = R.nextId := hr.nextId
    rw [← hn]
    refine hr.relink ?_ ?_
    · rw [List.map_append]
      refine hring'.congr fun y hy => Function.update_of_ne ?_ ..
      rintro rfl
      rw [← List.map_append] at hy
      rcases List.mem_cons.mp hy with hy | hy
      · cases hy
      · obtain ⟨x, hx, he⟩ := List.mem_map.mp hy
        exact hne x hx (by simpa using he)
    · intro x hx
      rw [hg, if_neg (hne x hx)]
      refine hr.records x ?_
      simp only [List.mem_append, List.mem_cons]
      exact (List.mem_append.mp hx).imp_right Or.inr

theorem callbacksOf_spec (hr : Rep w m R) (he : e ∈ R.entries) :
    callbacksOf w e.dev = some .head := by
  obtain ⟨D, hD, hm, -⟩ := hr.notice he
  simp only [callbacksOf, hD, hm, hr.monitor, Option.bind_eq_bind, Option.bind_some, ↓reduceIte]

theorem dropCallback_views {a : Nat} (h : dropCallback w a = some w') : w'.views = w.views := by
  obtain ⟨links, -, h⟩ := Option.bind_eq_some_iff.mp h
  obtain ⟨cbs, -, h⟩ := Option.bind_eq_some_iff.mp h
  cases h
  rfl

theorem setDev_views (h : w.setDev d D = some w') : w'.views = w.views := by
  obtain ⟨devs, -, h⟩ := Option.bind_eq_some_iff.mp h
  cases h
  rfl

theorem deviceRef_views (h : hsDeviceRef w d = some w') : w'.views = w.views := by
  obtain ⟨D, -, h⟩ := Option.bind_eq_some_iff.mp h
  exact setDev_views h

theorem deviceUnref_views (h : hsDeviceUnref w (some d) = some w') : w'.views = w.views := by
  obtain ⟨D, -, h⟩ := Option.bind_eq_some_iff.mp h
  split at h
  · exact setDev_views h
  · obtain ⟨devs, -, h⟩ := Option.bind_eq_some_iff.mp h
    cases h
    rfl

/-- The view was taken while the world represented `R`, but for the callback list and the log. -/
def View.Of (v : View) (m : Nat) (R : Roster) : Prop :=
  ∃ w ls log, Rep w m { R with listeners := ls, log := log } ∧ v.store = w.toStore ∧ v.log = w.log

/-- One round of `trigger_callbacks`. -/
theorem triggerBody_spec (hu : u.limit ≤ uintMod) {done todo : List Listener} {c : Listener}
    {log : List Event} (he : e ∈ R.entries)
    (hr : Rep w m { R with listeners := done ++ c :: todo, log := log }) :
    let n := e.notice m (R.status e.dev)
    let ret := (u.react log c.f n).ret
    let log' := log ++ [.notify c.id n ret]
    ∃ fl w', triggerBody u e.dev (.record c.addr) w = some (fl, w') ∧ w'.busy = w.busy ∧
      w'.views = w.views ++ [⟨w.log, e.dev, w.toStore⟩] ∧
      match fl with
      | .ret r => ret < 0 ∧ r = ret ∧ Rep w' m { R with listeners := done ++ c :: todo, log := log' }
      | .next => ¬ ret < 0 ∧ Rep w' m
          { R with listeners := (if ret ≠ 0 then done else done ++ [c]) ++ todo, log := log' }
      | .brk => False := by
  intro n ret log'
  have hrec : w.cbs.get c.addr = some ⟨c.id, c.f⟩ := hr.records c (by simp)
  obtain ⟨w₁, e₁, hr₁, hb₁⟩ := runUser_spec c.f (notify_calls c.id) hu hr he
  have hr₁ : Rep w₁ m { R with listeners := done ++ c :: todo, log := log' } := hr₁
  have e₁ : runUser u c.f (.notify c.id) w e.dev = some (ret, w₁) := e₁
  have hv₁ := runUser_views hu hr e₁
  by_cases hneg : ret < 0
  · refine ⟨.ret ret, w₁, ?_, hb₁, hv₁, hneg, rfl, hr₁⟩
    simp only [triggerBody, hrec, e₁, Option.bind_eq_bind, Option.bind_some, hneg, ↓reduceIte]
  · by_cases hz : ret = 0
    · refine ⟨.next, w₁, ?_, hb₁, hv₁, hneg, ?_⟩
      · have hc := callbacksOf_spec (e := e) hr₁ he
        simp only [triggerBody, hrec, e₁, Option.bind_eq_bind, Option.bind_some, hz, ne_eq,
          not_true_eq_false, Int.lt_irrefl, ↓reduceIte, hc]
      · simpa only [hz, ne_eq, not_true_eq_false, ↓reduceIte, List.append_assoc,
          List.singleton_append] using hr₁
    · obtain ⟨w₂, e₂, hr₂, hb₂⟩ := dropCallback_spec (R := { R with log := log' }) hr₁
      refine ⟨.next, w₂, ?_, hb₂.trans hb₁, (dropCallback_views e₂).trans hv₁, hneg, ?_⟩
      · have hc := callbacksOf_spec (e := e) hr₂ he
        simp only [triggerBody, hrec, e₁, Option.bind_eq_bind, Option.bind_some, hneg, ↓reduceIte,
          hz, ne_eq, not_false_eq_true, e₂, hc]
      · simpa only [hz, ne_eq, not_false_eq_true, ↓reduceIte] using hr₂

/-- `trigger_callbacks` reaches every callback, whatever is dropped on the way, and each of them finds
the table as it is. -/
theorem triggerCallbacks_calls (hu : u.limit ≤ uintMod) (hr : Rep w m R) (he : e ∈ R.entries) :
    ∃ w' vs, triggerCallbacks u w e.dev = some ((R.trigger u m e).1, w') ∧
      Rep w' m (R.trigger u m e).2 ∧ w'.busy = w.busy ∧ w'.views = w.views ++ vs ∧
      (∀ v ∈ vs, v.dev = e.dev ∧ v.Of m R) ∧ (vs = [] ↔ R.listeners = []) := by
  set n := e.notice m (R.status e.dev) with hn
  set out := dispatch u n R.listeners R.log with hout
  obtain ⟨ex, w', hw, hq⟩ : ∃ ex w', hsListForeach World.links .head (triggerBody u e.dev)
      w.listFuel w = some (ex, w') ∧ exitValue ex = out.1 ∧
      Rep w' m { R with listeners := out.2.1, log := out.2.2 } ∧ w'.busy = w.busy ∧
      ∃ vs, w'.views = w.views ++ vs ∧ (∀ v ∈ vs, v.dev = e.dev ∧ v.Of m R) ∧
        (vs = [] ↔ R.listeners = []) := listForeach_rule
    (l := R.listeners.map fun c => .record c.addr)
    (I := fun l w' => ∃ done todo log vs, l = todo.map (fun c => CbRef.record c.addr) ∧
      Rep w' m { R with listeners := done ++ todo, log := log } ∧ w'.busy = w.busy ∧
      out = ((dispatch u n todo log).1, done ++ (dispatch u n todo log).2.1,
        (dispatch u n todo log).2.2) ∧
      w'.views = w.views ++ vs ∧ (∀ v ∈ vs, v.dev = e.dev ∧ v.Of m R) ∧
      (vs = [] → todo = R.listeners) ∧ (R.listeners = [] → todo = [] ∧ vs = []))
    (Q := fun ex w' => exitValue ex = out.1 ∧
      Rep w' m { R with listeners := out.2.1, log := out.2.2 } ∧ w'.busy = w.busy ∧
      ∃ vs, w'.views = w.views ++ vs ∧ (∀ v ∈ vs, v.dev = e.dev ∧ v.Of m R) ∧
        (vs = [] ↔ R.listeners = []))
    (by
      rintro l w' ⟨done, todo, log, vs, rfl, hr', -, -⟩
      have hring := hr'.ring
      rw [List.map_append] at hring
      exact hring.fwd.rest)
    (by
      rintro x l w' ⟨done, todo, log, vs, hl, hr', hb, ho, hvs, hof, -, hnone⟩
      cases todo with
      | nil => cases hl
      | cons c todo =>
        rw [List.map_cons, List.cons.injEq] at hl
        obtain ⟨rfl, rfl⟩ := hl
        have hsome : R.listeners ≠ [] := fun h => List.cons_ne_nil c todo (hnone h).1
        obtain ⟨fl, w₁, e₁, hb₁, hv₁, hfl⟩ := triggerBody_spec hu he hr'
        have hvs₁ : w₁.views = w.views ++ (vs ++ [⟨w'.log, e.dev, w'.toStore⟩]) := by
          rw [hv₁, hvs, List.append_assoc]
        have hof₁ : ∀ v ∈ vs ++ [⟨w'.log, e.dev, w'.toStore⟩], v.dev = e.dev ∧ v.Of m R := by
          intro v hv
          rcases List.mem_append.mp hv with hv | hv
          · exact hof v hv
          · rw [List.mem_singleton.mp hv]
            exact ⟨rfl, w', done ++ c :: todo, log, hr', rfl, rfl⟩
        -- a negative result ends the dispatch and leaves the callbacks as they are; a positive one has
        -- dropped the callback
        refine ⟨fl, w₁, e₁, ?_⟩
        cases fl with
        | brk => exact absurd hfl id
        | ret r =>
          obtain ⟨hneg, rfl, hr₁⟩ := hfl
          have hd : dispatch u n (c :: todo) log =
              ((u.react log c.f n).ret, c :: todo, log ++ [.notify c.id n (u.react log c.f n).ret]) := by
            rw [dispatch, if_pos hneg]
          rw [hd] at ho
          rw [ho]
          exact ⟨rfl, hr₁, hb₁.trans hb, _, hvs₁, hof₁, by simp [hsome]⟩
        | next =>
          obtain ⟨hpos, hr₁⟩ := hfl
          refine ⟨_, todo, _, _, rfl, hr₁, hb₁.trans hb, ?_, hvs₁, hof₁, by simp,
            fun h => absurd h hsome⟩
          rw [← hn] at hpos ⊢
          rw [ho, dispatch, if_neg hpos]
          by_cases hz : (u.react log c.f n).ret = 0 <;> simp [hz])
    (by
      rintro w' ⟨done, todo, log, vs, hl, hr', hb, ho, hvs, hof, hall, hnone⟩
      cases todo with
      | cons c todo => cases hl
      | nil =>
        rw [ho]
        exact ⟨rfl, hr', hb, vs, hvs, hof, fun h => (hall h).symm, fun h => (hnone h).2⟩)
    ⟨[], R.listeners, R.log, [], rfl, hr, rfl, rfl, by simp, by simp, fun _ => rfl,
      fun h => ⟨h, rfl⟩⟩
    hr.ring.fwd.head_next
    (by simpa [World.listFuel, Nat.lt_succ_iff] using hr.listeners_length)
  obtain ⟨hexit, hr', hb, vs, hvs⟩ := hq
  refine ⟨w', vs, ?_, hr', hb, hvs⟩
  simp only [triggerCallbacks, callbacksOf_spec hr he, hw, Option.bind_eq_bind, Option.bind_some,
    hexit]
  rfl

/-! ## Adding a device -/

/-- Putting one more device into a bucket. -/
theorem bucket_cons (e : Entry) (R : Roster) (st : Nat → HsDeviceStatus) (log : List Event) :
    (fun i => (({ R with entries := e :: R.entries, status := st, log := log } : Roster).bucket
      i).map Entry.dev) =
      Function.update (fun i => (R.bucket i).map Entry.dev) (home e.key)
        (e.dev :: (R.bucket (home e.key)).map Entry.dev) := by
  funext i
  by_cases hi : i = home e.key
  · subst hi
    rw [Function.update_self, Roster.bucket, List.filter_cons_of_pos (by simp)]
    rfl
  · have hne : ¬ home e.key = i := fun h => hi h.symm
    rw [Function.update_of_ne hi, Roster.bucket, List.filter_cons_of_neg (by simpa using hne)]
    rfl

theorem refsTo_cons (st : Store) (linked : List Nat) (d : Nat) :
    st.refsTo (d :: linked) =
      Function.update (st.refsTo linked) d (st.refsTo linked d + 1) := by
  funext x
  by_cases hx : x = d
  · subst hx
    simp only [Store.refsTo, List.count_cons_self, Function.update_self]
    omega
  · rw [Function.update_of_ne hx]
    simp only [Store.refsTo, List.count_cons_of_ne (Ne.symm hx)]

/-- The devices and the table after the part of `_hs_monitor_add` that puts `d` into the table. -/
structure Inserted (w : World) (R : Roster) (d : Nat) (key : CStr) (devs : Heap HsDevice)
    (t : HTable Nat) : Prop where
  brk : devs.brk = w.devs.brk
  same : ∀ x D', devs.get x = some D' → ∃ D n, w.devs.get x = some D ∧
    D' = { (if x = d then { D with monitor := w.monitor, state := .online } else D) with
      refcount := n }
  counts : CountedBy devs w.table
    (Function.update (w.toStore.refsTo R.devs) d (w.toStore.refsTo R.devs d + 1))
  size : t.size = w.table.size
  buckets : Buckets t (Function.update (fun i => (R.bucket i).map Entry.dev) (home key)
    (d :: (R.bucket (home key)).map Entry.dev))
  keys : t.keyOf = Function.update w.table.keyOf d (some (hsHtableHashStr key))

theorem insert_run (hr : Rep w m R) (hd : w.devs.get d = some D) (hnew : d ∉ R.devs)
    (hb : D.refcount + 1 < uintMod) (key : CStr) :
    ∃ w₁ devs t, w.setDev d { D with monitor := w.monitor, state := .online } = some w₁ ∧
      hsDeviceRef w₁ d = some { w with devs := devs } ∧
      hsHtableAdd w.table (hsHtableHashStr key) d = some t ∧ Inserted w R d key devs t := by
  obtain ⟨devs₁, e₁, hbrk₁, hg₁⟩ :=
    setDev_some w { D with monitor := w.monitor, state := .online } hd
  obtain ⟨hrc, hpos, hlt⟩ := hr.counted.counts.live d D hd
  have hc₁ : CountedBy devs₁ w.table (w.toStore.refsTo R.devs) :=
    hr.counted.counts.write hd hg₁ hrc hpos hlt fun _ _ => rfl
  have hd₁ : devs₁.get d = some { D with monitor := w.monitor, state := .online } := by
    rw [hg₁, if_pos rfl]
  obtain ⟨devs₂, e₂, hu₂, -, hc₂⟩ := deviceRef_spec (w := { w with devs := devs₁ }) hc₁ hd₁ hb
  have hkey : w.table.keyOf d ≠ none := by
    rw [Ne, hr.counted.counts.node d, hd]
    exact Option.some_ne_none _
  have hfree : ∀ i, d ∉ (R.bucket i).map Entry.dev := by
    intro i hm
    obtain ⟨x, hx, rfl⟩ := List.mem_map.mp hm
    exact hnew (mem_devs (mem_bucket.mp hx).1)
  obtain ⟨t, e₃, hs, hbk, hkeys⟩ := buckets_add (i := home key) hr.buckets
    (by rw [hr.size, home]) hfree hkey
  refine ⟨_, devs₂, t, e₁, e₂, e₃, hu₂.brk.trans hbrk₁, fun x D' hx => ?_, hc₂, hs, hbk, hkeys⟩
  obtain ⟨D₁, n, hD₁, rfl⟩ := hu₂.same x D' hx
  simp only [hg₁] at hD₁
  split at hD₁
  · next hxd =>
    subst hxd
    cases hD₁
    exact ⟨D, n, hd, by simp⟩
  · next hxd => exact ⟨D₁, n, hD₁, by simp [hxd]⟩

/-- The part of `_hs_monitor_add` that puts a device into the table. -/
theorem insert_spec (hr : Rep w m R) (hd : w.devs.get d = some D) (hk : D.key = some key)
    (hv : D.vtable ≠ none) (hnew : d ∉ R.devs) (hb : D.refcount + 1 < uintMod) :
    ∃ w₁ w₂ t, w.setDev d { D with monitor := w.monitor, state := .online } = some w₁ ∧
      hsDeviceRef w₁ d = some w₂ ∧ hsHtableAdd w₂.table (hsHtableHashStr key) d = some t ∧
      Rep ({ w₂ with table := t }.emit (.inserted d key)) m
        (({ R with entries := ⟨d, key, D.iface⟩ :: R.entries }.setStatus d .online).emit
          (.inserted d key)) ∧ w₂.busy = w.busy := by
  obtain ⟨w₁, devs, t, e₁, e₂, e₃, h⟩ := insert_run hr hd hnew hb key
  refine ⟨w₁, { w with devs := devs }, t, e₁, e₂, e₃, ?_, rfl⟩
  have hbk : Buckets t fun i => ((({ R with entries := ⟨d, key, D.iface⟩ :: R.entries }.setStatus d
      .online).emit (.inserted d key)).bucket i).map Entry.dev := by
    have hcons := bucket_cons ⟨d, key, D.iface⟩ R (Function.update R.status d .online)
      (R.log ++ [.inserted d key])
    simp only [Roster.emit, Roster.setStatus, hcons]
    exact h.buckets
  have hcounts := h.counts
  rw [← refsTo_cons] at hcounts
  refine
    { counted := ⟨⟨hcounts.live, hcounts.gone, fun x => ?_⟩, ?_⟩
      distinct := List.nodup_cons.mpr ⟨hnew, hr.distinct⟩
      linked := fun x => linked_of_buckets (w := { w with table := t }) hbk x
      status := ?_, log := ?_
      history := ⟨fun x D' hx => ?_, fun x k hx => ?_, fun v hv' =>
        (hr.history.views v hv').imp_right fun h => h.mono (List.prefix_append _ _)⟩
      monitor := hr.monitor, nextId := hr.nextId, size := h.size.trans hr.size, buckets := hbk
      hash := ?_, fields := ?_, ring := hr.ring, records := hr.records }
  · refine Iff.trans ?_ (hcounts.node x)
    change t.keyOf x = none ↔ w.table.keyOf x = none
    rw [h.keys]
    by_cases hxd : x = d
    · subst hxd
      simp [hr.counted.counts.node, hd]
    · rw [Function.update_of_ne hxd]
  · refine hr.counted.handles.mono (List.Sublist.refl _) rfl fun x D' hx => ?_
    obtain ⟨D₀, n, hD₀, rfl⟩ := h.same x D' hx
    refine ⟨D₀, hD₀, ?_⟩
    split <;> rfl
  · intro x D' hx
    obtain ⟨D₀, n, hD₀, rfl⟩ := h.same x D' hx
    by_cases hxd : x = d
    · subst hxd
      simp [Roster.emit, Roster.setStatus]
    · simp only [hxd, ↓reduceIte, Roster.emit, Roster.setStatus, Function.update_of_ne hxd]
      exact hr.status x D₀ hD₀
  · simp only [World.emit, Roster.emit, Roster.setStatus, hr.log]
  · obtain ⟨D₀, n, hD₀, rfl⟩ := h.same x D' hx
    show _ = statusOf (w.log ++ [.inserted d key]) x ∧ _
    rw [statusOf_snoc]
    by_cases hxd : x = d
    · subst hxd
      rw [hd] at hD₀
      cases hD₀
      simpa [Event.mark] using hv
    · simpa [hxd, Event.mark, Function.update_of_ne] using hr.history.sound x D₀ hD₀
  · show x < devs.brk
    rw [h.brk]
    rcases List.mem_append.mp hx with hx | hx
    · exact hr.history.fresh x k hx
    · cases List.mem_singleton.mp hx
      exact Heap.lt_brk hd
  · intro x hx
    have hx : x = ⟨d, key, D.iface⟩ ∨ x ∈ R.entries := List.mem_cons.mp hx
    simp only [World.emit, h.keys]
    rcases hx with rfl | hx
    · exact Function.update_self ..
    · have hne : x.dev ≠ d := fun he => hnew (he ▸ mem_devs hx)
      rw [Function.update_of_ne hne]
      exact hr.hash x hx
  · intro x hx D' hD'
    have hx : x = ⟨d, key, D.iface⟩ ∨ x ∈ R.entries := List.mem_cons.mp hx
    obtain ⟨D₀, n, hD₀, rfl⟩ := h.same _ D' hD'
    rcases hx with rfl | hx
    · rw [hd] at hD₀
      cases hD₀
      simp [hk, hr.monitor]
    · have hne : x.dev ≠ d := fun he => hnew (he ▸ mem_devs hx)
      simp only [hne, ↓reduceIte]
      exact hr.fields x hx D₀ hD₀

theorem mem_entries {i : Nat} {done todo : List Entry} (hb : R.bucket i = done ++ e :: todo) :
    e ∈ R.entries := by
  have : e ∈ R.bucket i := by
    rw [hb]
    simp
  exact (mem_bucket.mp this).1

/-- The search of `_hs_monitor_add` finds a device with the same key and interface. -/
theorem addSearch_spec (hr : Rep w m R) (key : CStr) (iface : UInt8) :
    ∃ ex, hsHtableForeachHash (fun w => w.table) (hsHtableHashStr key) (addBody key iface)
        w.tableFuel w = some (ex, w) ∧
      match ex with
      | .ret r => r = 0 ∧ (key, iface) ∈ R.entries.map Entry.pair
      | _ => (key, iface) ∉ R.entries.map Entry.pair := by
  have hhome : (hsHtableHashStr key).toNat % w.table.size = home key := by rw [hr.size, home]
  obtain ⟨ex, w', hw, hw', hq⟩ : ∃ ex w', hsHtableForeachHash (fun w => w.table)
      (hsHtableHashStr key) (addBody key iface) w.tableFuel w = some (ex, w') ∧ w' = w ∧
      match ex with
      | .ret r => r = 0 ∧ (key, iface) ∈ R.entries.map Entry.pair
      | _ => (key, iface) ∉ R.entries.map Entry.pair := htableForeachHash_rule
    (l := (R.bucket (home key)).map Entry.dev)
    (I := fun l w' => w' = w ∧ ∃ done todo, l = todo.map Entry.dev ∧
      R.bucket (home key) = done ++ todo ∧ ∀ x ∈ done, x.pair ≠ (key, iface))
    (Q := fun (ex : Exit (HRef Nat) Int) w' => w' = w ∧ match ex with
      | .ret r => r = 0 ∧ (key, iface) ∈ R.entries.map Entry.pair
      | _ => (key, iface) ∉ R.entries.map Entry.pair)
    (by rw [hr.size]; decide) hhome
    (by
      rintro l w' ⟨rfl, done, todo, rfl, hb, -⟩
      have hring := hr.buckets.ring (home key) (by rw [hr.size]; exact home_lt key)
      rw [hb, List.map_append, List.map_append] at hring
      exact hring.rest)
    (by
      rintro x l w' ⟨rfl, done, todo, hl, hb, hdone⟩ hkey
      cases todo with
      | nil => cases hl
      | cons e todo =>
        rw [List.map_cons, List.cons.injEq] at hl
        obtain ⟨rfl, rfl⟩ := hl
        have he : e ∈ R.entries := mem_entries hb
        refine ⟨rfl, done ++ [e], todo, rfl, by simp [hb], fun x hx => ?_⟩
        rcases List.mem_append.mp hx with hx | hx
        · exact hdone x hx
        · rw [List.mem_singleton.mp hx]
          intro hp
          have hek : e.key = key := congrArg Prod.fst hp
          exact hkey (by rw [hr.hash e he, hek]))
    (by
      rintro x l w' ⟨rfl, done, todo, hl, hb, hdone⟩ -
      cases todo with
      | nil => cases hl
      | cons e todo =>
        rw [List.map_cons, List.cons.injEq] at hl
        obtain ⟨rfl, rfl⟩ := hl
        have he : e ∈ R.entries := mem_entries hb
        obtain ⟨D, hD⟩ := hr.live (mem_devs he)
        obtain ⟨hk, hi, -⟩ := hr.fields e he D hD
        -- a device with the key may still have another interface
        by_cases hp : e.key = key ∧ e.iface = iface
        · refine ⟨.ret 0, w', ?_, rfl, rfl, ?_⟩
          · simp only [addBody, hD, hk, hi, hp, Option.bind_eq_bind, Option.bind_some, and_self,
              ↓reduceIte]
          · obtain ⟨rfl, rfl⟩ := hp
            exact List.mem_map_of_mem he
        · refine ⟨.next, w', ?_, rfl, done ++ [e], todo, rfl, by simp [hb], fun x hx => ?_⟩
          · simp only [addBody, hD, hk, hi, hp, Option.bind_eq_bind, Option.bind_some, ↓reduceIte]
          · rcases List.mem_append.mp hx with hx | hx
            · exact hdone x hx
            · rw [List.mem_singleton.mp hx]
              intro hpair
              exact hp ⟨congrArg Prod.fst hpair, congrArg Prod.snd hpair⟩)
    (by
      rintro w' ⟨rfl, done, todo, hl, hb, hdone⟩
      refine ⟨rfl, fun hm => ?_⟩
      cases todo with
      | cons e todo => cases hl
      | nil =>
        obtain ⟨x, hx, hp⟩ := List.mem_map.mp hm
        -- a device that the search missed would be in the bucket
        have hk : x.key = key := congrArg Prod.fst hp
        have hx' : x ∈ R.bucket (home key) := mem_bucket.mpr ⟨hx, by rw [hk]⟩
        rw [hb, List.append_nil] at hx'
        exact hdone x hx' hp)
    ⟨rfl, [], R.bucket (home key), rfl, rfl, fun _ h => absurd h List.not_mem_nil⟩
    (hr.buckets.ring (home key) (by rw [hr.size]; exact home_lt key)).head_next
    (by
      have := hr.bucket_length (home key)
      simp only [List.length_map, World.tableFuel]
      omega)
  subst hw'
  exact ⟨ex, hw, hq⟩

/-- `_hs_monitor_add` of a device that is in no table yet. The callbacks find it in the table. -/
theorem monitorAdd_calls (hu : u.limit ≤ uintMod) (hr : Rep w m R) (hd : w.devs.get d = some D)
    (hk : D.key = some key) (hv : D.vtable ≠ none) (hnew : d ∉ R.devs)
    (hb : D.refcount + 1 < uintMod) :
    ∃ w' vs, hsMonitorAdd u w d = some ((R.add u m ⟨d, key, D.iface⟩).1, w') ∧
      Rep w' m (R.add u m ⟨d, key, D.iface⟩).2 ∧ w'.busy = w.busy ∧ w'.views = w.views ++ vs ∧
      ∀ v ∈ vs, v.dev = d ∧ v.Of m
        ({ R with entries := ⟨d, key, D.iface⟩ :: R.entries }.setStatus d .online) := by
  obtain ⟨ex, hex, hq⟩ := addSearch_spec hr key D.iface
  by_cases hmem : (key, D.iface) ∈ R.entries.map Entry.pair
  · cases ex with
    | fell => exact absurd hmem hq
    | brk x => exact absurd hmem hq
    | ret r =>
      obtain ⟨rfl, -⟩ := hq
      rw [add_of_mem (e := ⟨d, key, D.iface⟩) hmem]
      exact ⟨w, [], by simp only [hsMonitorAdd, hd, hk, hex, Option.bind_eq_bind, Option.bind_some],
        hr, rfl, by simp, by simp⟩
  · obtain ⟨w₁, w₂, t, e₁, e₂, e₃, hr', hbusy⟩ := insert_spec hr hd hk hv hnew hb
    obtain ⟨w', vs, e₄, hr'', hbusy', hvs, hof, -⟩ :=
      triggerCallbacks_calls (e := ⟨d, key, D.iface⟩) hu hr' List.mem_cons_self
    have hviews : w'.views = w.views ++ vs := by
      rw [hvs, ← setDev_views e₁, ← deviceRef_views e₂]
      rfl
    rw [add_of_not_mem (e := ⟨d, key, D.iface⟩) hmem]
    refine ⟨w', vs, ?_, hr'', hbusy'.trans hbusy, hviews, hof⟩
    simp only [hk] at e₁
    cases ex with
    | ret r => exact absurd hq.2 hmem
    | fell =>
      simp only [hsMonitorAdd, hd, hk, hex, e₁, e₂, e₃, Option.bind_eq_bind, Option.bind_some]
      exact e₄
    | brk x =>
      simp only [hsMonitorAdd, hd, hk, hex, e₁, e₂, e₃, Option.bind_eq_bind, Option.bind_some]
      exact e₄

theorem monitorAdd_spec (hu : u.limit ≤ uintMod) (hr : Rep w m R) (hd : w.devs.get d = some D)
    (hk : D.key = some key) (hv : D.vtable ≠ none) (hnew : d ∉ R.devs)
    (hb : D.refcount + 1 < uintMod) :
    ∃ w', hsMonitorAdd u w d = some ((R.add u m ⟨d, key, D.iface⟩).1, w') ∧
      Rep w' m (R.add u m ⟨d, key, D.iface⟩).2 ∧ w'.busy = w.busy := by
  obtain ⟨w', vs, e, hr', hbusy, -⟩ := monitorAdd_calls hu hr hd hk hv hnew hb
  exact ⟨w', e, hr', hbusy⟩

/-! ## Removing devices -/

theorem bucket_drop {done todo : List Entry} (hn : R.devs.Nodup)
    (hb : R.bucket (home e.key) = done ++ e :: todo) (i : Nat) :
    (R.drop e).bucket i = if i = home e.key then done ++ todo else R.bucket i := by
  have he : e ∈ R.entries := mem_entries hb
  have hdrop : (R.drop e).bucket i = (R.bucket i).filter fun x => x.dev ≠ e.dev := by
    simp only [Roster.bucket, Roster.drop, List.filter_filter, Bool.and_comm]
  rw [hdrop]
  split
  · next hi =>
    subst hi
    have hsub : ((R.bucket (home e.key)).map Entry.dev).Nodup :=
      hn.sublist (List.filter_sublist.map _)
    rw [hb, List.map_append, List.map_cons, List.perm_middle.nodup_iff, List.nodup_cons] at hsub
    rw [hb, List.filter_append, List.filter_cons_of_neg (by simp), ← List.filter_append]
    refine List.filter_eq_self.mpr fun x hx => ?_
    have : x.dev ≠ e.dev := by
      intro hxe
      refine hsub.1 ?_
      rw [← hxe, ← List.map_append]
      exact List.mem_map_of_mem hx
    simpa using this
  · next hi =>
    refine List.filter_eq_self.mpr fun x hx => ?_
    have : x.dev ≠ e.dev := by
      intro hxe
      obtain ⟨hx, hh⟩ := mem_bucket.mp hx
      have := List.inj_on_of_nodup_map hn hx he hxe
      subst this
      exact hi hh.symm
    simpa using this

theorem devs_drop (R : Roster) (e : Entry) :
    (R.drop e).devs = R.devs.filter fun d => d ≠ e.dev := by
  simp only [Roster.devs, Roster.drop, List.filter_map]
  rfl

/-- Taking a device out of the table is one reference less. -/
theorem refsTo_drop (st : Store) (hn : R.devs.Nodup) (he : e ∈ R.entries) :
    st.refsTo (R.drop e).devs =
      Function.update (st.refsTo R.devs) e.dev (st.refsTo R.devs e.dev - 1) := by
  funext x
  rw [devs_drop]
  by_cases hx : x = e.dev
  · subst hx
    have h₁ : R.devs.count e.dev = 1 := List.count_eq_one_of_mem hn (mem_devs he)
    have h₀ : (R.devs.filter fun d => d ≠ e.dev).count e.dev = 0 := by
      refine List.count_eq_zero.mpr ?_
      simp
    simp only [Function.update_self, Store.refsTo, h₁, h₀]
    omega
  · have hc : (R.devs.filter fun d => d ≠ e.dev).count x = R.devs.count x :=
      List.count_filter (by simpa using hx)
    simp only [Function.update_of_ne hx, Store.refsTo, hc]

/-- `_hs_htable_remove` and `hs_device_unref` of a device of the table. -/
theorem unlink_spec (hr : Rep w m R) (he : e ∈ R.entries) :
    ∃ t w', hsHtableRemove w.tableFuel w.table e.dev = some t ∧
      hsDeviceUnref { w with table := t } (some e.dev) = some w' ∧ Rep w' m (R.drop e) ∧
      w'.busy = w.busy := by
  obtain ⟨done, todo, hb⟩ := List.append_of_mem (mem_bucket.mpr ⟨he, rfl⟩)
  have hsplit : (R.bucket (home e.key)).map Entry.dev =
      done.map Entry.dev ++ e.dev :: todo.map Entry.dev := by
    rw [hb, List.map_append, List.map_cons]
  have hlen : ((R.bucket (home e.key)).map Entry.dev).length ≤ w.tableFuel := by
    have := hr.bucket_length (home e.key)
    rw [List.length_map]
    unfold World.tableFuel
    omega
  obtain ⟨t, e₁, hs, hbk, hkeys⟩ := buckets_remove hr.buckets hsplit hlen
  have hcounts : CountedBy w.devs t (w.toStore.refsTo R.devs) := by
    refine ⟨hr.counted.counts.live, hr.counted.counts.gone, fun x => ?_⟩
    rw [hkeys]
    exact hr.counted.counts.node x
  have hpos : 0 < w.toStore.refsTo R.devs e.dev := refsTo_pos_of_linked (mem_devs he)
  obtain ⟨w', e₂, hu, hf, hc'⟩ := deviceUnref_spec (w := { w with table := t }) hcounts hpos
  rw [← refsTo_drop w.toStore hr.distinct he] at hc'
  have hsub : (R.drop e).entries.Sublist R.entries := List.filter_sublist
  -- the shape of the table in between, with the device out and not yet unreferenced
  have hshape : Shape { w with table := t } m (R.drop e) := by
    refine ⟨hr.monitor, hr.nextId, hs.trans hr.size, ?_, fun x hx => ?_, fun x hx => ?_, hr.ring,
      hr.records⟩
    · have hB : (fun i => ((R.drop e).bucket i).map Entry.dev) =
          Function.update (fun i => (R.bucket i).map Entry.dev) (home e.key)
            (done.map Entry.dev ++ todo.map Entry.dev) := by
        funext i
        rw [bucket_drop hr.distinct hb]
        by_cases hi : i = home e.key
        · subst hi
          simp
        · simp [hi]
      rw [hB]
      exact hbk
    · change t.keyOf x.dev = _
      rw [hkeys]
      exact hr.hash x (hsub.subset hx)
    · exact hr.fields x (hsub.subset hx)
  have hcounted : Counted w'.toStore (R.drop e).devs := by
    refine ⟨hc'.congr fun x => ?_, hr.counted.handles.mono ?_ ?_ hu.vtable⟩
    · rw [hf]
      rfl
    · rw [hf]
    · rw [hf]
  have hlive : ∀ x ∈ (R.drop e).entries, ∃ D, w'.devs.get x.dev = some D := fun x hx =>
    hcounted.counts.exists_of_pos (refsTo_pos_of_linked (mem_devs hx))
  have hshape' : Shape w' m (R.drop e) := hshape.quiet hu.quiet hlive rfl rfl rfl
  refine ⟨t, w', e₁, e₂, ⟨⟨hcounted, hr.distinct.sublist (hsub.map _),
    linked_of_buckets hshape'.buckets, fun d D' hD' => ?_, ?_, ?_⟩, hshape'⟩, by rw [hf]⟩
  · obtain ⟨D, n, hD, rfl⟩ := hu.same d D' hD'
    exact hr.status d D hD
  · rw [hf]
    exact hr.log
  · exact History.untouched (w := { w with table := t }) ⟨hr.history.sound, hr.history.fresh,
      hr.history.views⟩ hu

/-- Marking a device of the table as disconnected. -/
theorem disconnect_spec (hr : Rep w m R) (he : e ∈ R.entries) :
    ∃ D w', w.devs.get e.dev = some D ∧ D.key = some e.key ∧
      w.setDev e.dev { D with state := .disconnected } = some w' ∧
      Rep (w'.emit (.gone e.dev)) m ((R.setStatus e.dev .disconnected).emit (.gone e.dev)) ∧
      w'.busy = w.busy := by
  obtain ⟨D, hD⟩ := hr.live (mem_devs he)
  obtain ⟨devs', e₁, hbrk, hg⟩ := setDev_some w { D with state := .disconnected } hD
  obtain ⟨hrc, hpos, hlt⟩ := hr.counted.counts.live _ D hD
  have hsame : ∀ x D', devs'.get x = some D' → ∃ D₀, w.devs.get x = some D₀ ∧
      D' = { D₀ with state := if x = e.dev then .disconnected else D₀.state } := by
    intro x D' hx
    rw [hg] at hx
    split at hx
    · next hxe => subst hxe; cases hx; exact ⟨D, hD, by simp⟩
    · next hxe => exact ⟨D', hx, by simp [hxe]⟩
  refine ⟨D, _, hD, (hr.fields e he D hD).1, e₁, ⟨⟨⟨?_, ?_⟩, hr.distinct, hr.linked, ?_, ?_,
    ⟨fun x D' hx => ?_, fun x k hx => ?_, fun v hv =>
      (hr.history.views v hv).imp_right fun h => h.mono (List.prefix_append _ _)⟩⟩,
    ⟨hr.monitor, hr.nextId, hr.size, hr.buckets, hr.hash, ?_, hr.ring, hr.records⟩⟩, rfl⟩
  · exact hr.counted.counts.write hD hg hrc hpos hlt fun _ _ => rfl
  · refine hr.counted.handles.mono (List.Sublist.refl _) rfl fun x D' hx => ?_
    obtain ⟨D₀, hD₀, rfl⟩ := hsame x D' hx
    exact ⟨D₀, hD₀, rfl⟩
  · intro x D' hx
    obtain ⟨D₀, hD₀, rfl⟩ := hsame x D' hx
    by_cases hxe : x = e.dev
    · subst hxe
      simp [Roster.setStatus, Roster.emit]
    · simp only [hxe, ↓reduceIte, Roster.setStatus, Roster.emit, Function.update_of_ne hxe]
      exact hr.status x D₀ hD₀
  · simp only [World.emit, Roster.emit, Roster.setStatus, hr.log]
  · obtain ⟨D₀, hD₀, rfl⟩ := hsame x D' hx
    show _ = statusOf (w.log ++ [.gone e.dev]) x ∧ _
    rw [statusOf_snoc]
    by_cases hxe : x = e.dev
    · subst hxe
      simp [Event.mark]
    · simpa [hxe, Event.mark, Function.update_of_ne] using hr.history.sound x D₀ hD₀
  · show x < devs'.brk
    rw [hbrk]
    rcases List.mem_append.mp hx with hx | hx
    · exact hr.history.fresh x k hx
    · exact absurd (List.mem_singleton.mp hx) (by simp)
  · intro x hx D' hD'
    obtain ⟨D₀, hD₀, rfl⟩ := hsame _ D' hD'
    exact hr.fields x hx D₀ hD₀

/-- The view of a callback that is told of a device that is gone, which is still in the table. -/
def View.Farewell (v : View) (m : Nat) : Prop :=
  ∃ R e, e ∈ R.entries ∧ R.status e.dev = .disconnected ∧ v.dev = e.dev ∧ v.Of m R

/-- One round of `_hs_monitor_remove` on a device with the key. -/
theorem removeBody_spec (hu : u.limit ≤ uintMod) (hr : Rep w m R) (he : e ∈ R.entries) :
    ∃ w' vs, removeBody u e.key e.dev w = some (.next, w') ∧ Rep w' m (R.removeOne u m e) ∧
      w'.busy = w.busy ∧ w'.views = w.views ++ vs ∧ (∀ v ∈ vs, v.Farewell m) ∧
      (vs = [] ↔ R.listeners = []) := by
  obtain ⟨D, w₁, hD, hk, e₁, hr₁, hb₁⟩ := disconnect_spec hr he
  obtain ⟨w₂, vs, e₂, hr₂, hb₂, hvs, hof, hnone⟩ := triggerCallbacks_calls hu hr₁ he
  obtain ⟨t, w₃, e₃, e₄, hr₃, hb₃⟩ := unlink_spec hr₂ he
  have hviews : w₃.views = w.views ++ vs := by
    rw [deviceUnref_views e₄, ← setDev_views e₁]
    exact hvs
  refine ⟨w₃, vs, ?_, hr₃, hb₃.trans (hb₂.trans hb₁), hviews, fun v hv => ?_, hnone⟩
  · simp only [hk] at e₁
    simp only [removeBody, hD, hk, e₁, e₂, e₃, e₄, Option.bind_eq_bind, Option.bind_some, ↓reduceIte]
  · obtain ⟨hdev, hof⟩ := hof v hv
    exact ⟨(R.setStatus e.dev .disconnected).emit (.gone e.dev), e, he, Function.update_self ..,
      hdev, hof⟩

/-- The loop of `_hs_monitor_remove`, which started in `w` with `R` and came to `w'` and `R'`. It has
called the callbacks with the views `vs`, and `todo` is left of the bucket. -/
structure Removing (u : User) (m : Nat) (key : CStr) (w : World) (R : Roster) (todo : List Entry)
    (w' : World) (R' : Roster) (vs : List View) : Prop where
  rep : Rep w' m R'
  busy : w'.busy = w.busy
  bucket : ∃ done, R'.bucket (home key) = done ++ todo
  rest : ((todo.filter fun x => x.key = key).foldl (fun R e => R.removeOne u m e) R').emit
    (.removed key) = R.remove u m key
  views : w'.views = w.views ++ vs
  farewell : ∀ v ∈ vs, v.Farewell m
  uncalled : vs = [] → R.listeners = [] ∨ R'.listeners = R.listeners ∧
    (todo.filter fun x => x.key = key) = R.entries.filter fun x => x.key = key
  unheard : (R.listeners = [] ∨ ∀ e ∈ R.entries, e.key ≠ key) → vs = []
  listeners : R'.listeners.Sublist R.listeners
  entries : R'.entries.Sublist R.entries

theorem removing_start (hr : Rep (w.emit (.removal key)) m (R.emit (.removal key))) :
    Removing u m key w R ((R.emit (.removal key)).bucket (home key)) (w.emit (.removal key))
      (R.emit (.removal key)) [] := by
  have hsame : ((R.emit (.removal key)).bucket (home key)).filter (fun x => x.key = key) =
      R.entries.filter fun x => x.key = key := by
    simp only [Roster.bucket, Roster.emit, List.filter_filter]
    refine List.filter_congr fun x _ => ?_
    by_cases hx : x.key = key <;> simp [hx]
  exact ⟨hr, rfl, ⟨[], rfl⟩, by rw [hsame]; rfl, by simp [World.emit], by simp,
    fun _ => Or.inr ⟨rfl, hsame⟩, fun _ => rfl, List.Sublist.refl _, List.Sublist.refl _⟩

/-- A device with another key is passed by. -/
theorem Removing.pass {w₀ : World} {R₀ : Roster} {todo : List Entry} {vs : List View}
    (h : Removing u m key w₀ R₀ (e :: todo) w R vs) (hne : e.key ≠ key) :
    Removing u m key w₀ R₀ todo w R vs := by
  obtain ⟨done, hb⟩ := h.bucket
  have hfilter : (e :: todo).filter (fun x => x.key = key) = todo.filter fun x => x.key = key :=
    List.filter_cons_of_neg (by simpa using hne)
  exact { h with
    bucket := ⟨done ++ [e], by simp [hb]⟩
    rest := hfilter ▸ h.rest
    uncalled := hfilter ▸ h.uncalled }

/-- A device with the key is removed. -/
theorem Removing.round {w₀ : World} {R₀ : Roster} {todo : List Entry} {vs : List View}
    (hu : u.limit ≤ uintMod) (h : Removing u m e.key w₀ R₀ (e :: todo) w R vs) :
    ∃ w₁ vs₁, removeBody u e.key e.dev w = some (.next, w₁) ∧
      Removing u m e.key w₀ R₀ todo w₁ (R.removeOne u m e) (vs ++ vs₁) := by
  obtain ⟨done, hb⟩ := h.bucket
  have he := mem_entries hb
  obtain ⟨w₁, vs₁, e₁, hr₁, hb₁, hvs₁, hall₁, hnone₁⟩ := removeBody_spec hu h.rep he
  have hrest := h.rest
  rw [List.filter_cons_of_pos (by simp), List.foldl_cons] at hrest
  refine ⟨w₁, vs₁, e₁, hr₁, hb₁.trans h.busy, ?_, hrest, ?_, ?_, fun hno => ?_, fun hno => ?_, ?_,
    List.filter_sublist.trans h.entries⟩
  · exact ⟨done, (bucket_drop h.rep.distinct hb (home e.key)).trans (if_pos rfl)⟩
  · rw [hvs₁, h.views, List.append_assoc]
  · exact List.forall_mem_append.mpr ⟨h.farewell, hall₁⟩
  · -- no view in this round: there is no callback, and there was none before
    obtain ⟨rfl, rfl⟩ := List.append_eq_nil_iff.mp hno
    rcases h.uncalled rfl with hl | ⟨hl, -⟩
    · exact Or.inl hl
    · exact Or.inl (hl.symm.trans (hnone₁.mp rfl))
  · rw [h.unheard hno, List.nil_append, hnone₁]
    rcases hno with hl | hno
    · have hls := h.listeners
      rw [hl] at hls
      exact List.sublist_nil.mp hls
    · exact absurd rfl (hno e (h.entries.subset he))
  · exact (dispatch_sublist R.listeners _).trans h.listeners

/-- The end of the loop. -/
theorem Removing.done {w₀ : World} {R₀ : Roster} {vs : List View}
    (h : Removing u m key w₀ R₀ [] w R vs) :
    Rep (w.emit (.removed key)) m (R₀.remove u m key) ∧
      (vs = [] ↔ R₀.listeners = [] ∨ ∀ e ∈ R₀.entries, e.key ≠ key) := by
  rw [← h.rest]
  refine ⟨h.rep.emit _ (Continues.snoc _ (fun _ => rfl) fun _ _ h => nomatch h), fun hno => ?_,
    h.unheard⟩
  refine (h.uncalled hno).imp_right fun hsame e he hk => ?_
  have hm : e ∈ R₀.entries.filter fun x => x.key = key :=
    List.mem_filter.mpr ⟨he, decide_eq_true hk⟩
  rw [← hsame.2] at hm
  exact absurd hm List.not_mem_nil

/-- `_hs_monitor_remove` removes exactly the devices with the key. A callback is called if there is
one, and a device. -/
theorem monitorRemove_calls (hu : u.limit ≤ uintMod) (hr : Rep w m R) (key : CStr) :
    ∃ w' vs, hsMonitorRemove u w key = some w' ∧ Rep w' m (R.remove u m key) ∧
      w'.busy = w.busy ∧ w'.views = w.views ++ vs ∧ (∀ v ∈ vs, v.Farewell m) ∧
      (vs = [] ↔ R.listeners = [] ∨ ∀ e ∈ R.entries, e.key ≠ key) := by
  have hr₀ := hr.emit (.removal key) (Continues.snoc _ (fun _ => rfl) fun _ _ h => nomatch h)
  have hhome : (hsHtableHashStr key).toNat % (w.emit (.removal key)).table.size = home key := by
    rw [hr₀.size, home]
  obtain ⟨ex, w', hw, R', vs, hq⟩ : ∃ ex w', hsHtableForeachHash (fun w => w.table)
      (hsHtableHashStr key) (removeBody u key) w.tableFuel (w.emit (.removal key)) = some (ex, w') ∧
      ∃ R' vs, Removing u m key w R [] w' R' vs := htableForeachHash_rule
    (l := ((R.emit (.removal key)).bucket (home key)).map Entry.dev)
    (I := fun l w' => ∃ todo R' vs, l = todo.map Entry.dev ∧ Removing u m key w R todo w' R' vs)
    (Q := fun _ w' => ∃ R' vs, Removing u m key w R [] w' R' vs)
    (by rw [hr₀.size]; decide) hhome
    (by
      rintro l w' ⟨todo, R', vs, rfl, h⟩
      obtain ⟨done, hb⟩ := h.bucket
      have hring := h.rep.buckets.ring (home key) (by rw [h.rep.size]; exact home_lt key)
      rw [hb, List.map_append, List.map_append] at hring
      exact hring.rest)
    (by
      rintro x l w' ⟨todo, R', vs, hl, h⟩ hkey
      cases todo with
      | nil => cases hl
      | cons e todo =>
        rw [List.map_cons, List.cons.injEq] at hl
        obtain ⟨rfl, rfl⟩ := hl
        obtain ⟨done, hb⟩ := h.bucket
        have hne : e.key ≠ key := fun hk => hkey (by rw [h.rep.hash e (mem_entries hb), hk])
        exact ⟨todo, R', vs, rfl, h.pass hne⟩)
    (by
      rintro x l w' ⟨todo, R', vs, hl, h⟩ -
      cases todo with
      | nil => cases hl
      | cons e todo =>
        rw [List.map_cons, List.cons.injEq] at hl
        obtain ⟨rfl, rfl⟩ := hl
        by_cases hk : e.key = key
        · subst hk
          obtain ⟨w₁, vs₁, e₁, h₁⟩ := h.round hu
          exact ⟨.next, w₁, e₁, todo, _, _, rfl, h₁⟩
        · -- another key with the same hash
          obtain ⟨done, hb⟩ := h.bucket
          obtain ⟨D, hD⟩ := h.rep.live (mem_devs (mem_entries hb))
          obtain ⟨hDk, -, -⟩ := h.rep.fields e (mem_entries hb) D hD
          refine ⟨.next, w', ?_, todo, R', vs, rfl, h.pass hk⟩
          simp only [removeBody, hD, hDk, hk, Option.bind_eq_bind, Option.bind_some, ↓reduceIte])
    (by
      rintro w' ⟨todo, R', vs, hl, h⟩
      obtain rfl := List.map_eq_nil_iff.mp hl.symm
      exact ⟨R', vs, h⟩)
    ⟨_, _, [], rfl, removing_start hr₀⟩
    (hr₀.buckets.ring (home key) (by rw [hr₀.size]; exact home_lt key)).head_next
    (by
      have := hr₀.bucket_length (home key)
      simp only [List.length_map, World.tableFuel, World.emit] at this ⊢
      omega)
  obtain ⟨hr', hvs⟩ := hq.done
  refine ⟨w'.emit (.removed key), vs, ?_, hr', hq.busy, hq.views, hq.farewell, hvs⟩
  have hfuel : (w.emit (.removal key)).tableFuel = w.tableFuel := rfl
  simp only [hsMonitorRemove, hfuel, hw, Option.bind_eq_bind, Option.bind_some]

theorem monitorRemove_spec (hu : u.limit ≤ uintMod) (hr : Rep w m R) (key : CStr) :
    ∃ w', hsMonitorRemove u w key = some w' ∧ Rep w' m (R.remove u m key) ∧ w'.busy = w.busy := by
  obtain ⟨w', vs, e, hr', hbusy, -⟩ := monitorRemove_calls hu hr key
  exact ⟨w', e, hr', hbusy⟩

/-! ## Enumerating the table -/

/-- The devices in the cells from `i` on. -/
def Roster.orderFrom (R : Roster) (i : Nat) : List Entry :=
  (List.range' i (64 - i)).flatMap R.bucket

theorem orderFrom_zero (R : Roster) : R.orderFrom 0 = R.order := by
  rw [Roster.orderFrom, Roster.order, List.range_eq_range']

theorem orderFrom_succ (R : Roster) {i : Nat} (hi : i < 64) :
    R.orderFrom i = R.bucket i ++ R.orderFrom (i + 1) := by
  obtain ⟨n, hn⟩ : ∃ n, 64 - i = n + 1 := ⟨63 - i, by omega⟩
  have hn' : 64 - (i + 1) = n := by omega
  rw [Roster.orderFrom, Roster.orderFrom, hn, hn', List.range'_succ, List.flatMap_cons]

/-- `hs_monitor_list` visits the devices in table order, up to the first non-zero result. -/
theorem monitorList_spec (hu : u.limit ≤ uintMod) (hr : Rep w m R) (f : Nat) :
    ∃ w', hsMonitorList u w f = some ((R.list u m f).1, w') ∧ Rep w' m (R.list u m f).2 ∧
      w'.busy = w.busy := by
  set note := fun e : Entry => e.notice m (R.status e.dev) with hnote
  set out := visitAll u f (R.order.map note) R.log with hout
  obtain ⟨r, w', hw, hq⟩ : ∃ r w', hsHtableForeach (fun w => w.table) (listBody u f)
      w.tableFuel w = some (r, w') ∧ r.getD 0 = out.1 ∧ Rep w' m { R with log := out.2 } ∧
      w'.busy = w.busy := htableForeach_rule (N := 64)
    (J := fun i w' => ∃ log, Rep w' m { R with log := log } ∧ w'.busy = w.busy ∧
      visitAll u f ((R.orderFrom i).map note) log = out)
    (I := fun i l w' => i < 64 ∧ ∃ done todo log, l = todo.map Entry.dev ∧
      R.bucket i = done ++ todo ∧ Rep w' m { R with log := log } ∧ w'.busy = w.busy ∧
      visitAll u f ((todo ++ R.orderFrom (i + 1)).map note) log = out)
    (Q := fun r w' => r.getD 0 = out.1 ∧ Rep w' m { R with log := out.2 } ∧ w'.busy = w.busy)
    (by
      rintro i w' hi ⟨log, hr', hbusy, hv⟩
      refine ⟨(R.bucket i).map Entry.dev, ⟨hi, [], R.bucket i, log, rfl, rfl, hr', hbusy, ?_⟩, ?_,
        (hr'.buckets.ring i (by rw [hr'.size]; exact hi)).head_next⟩
      · rwa [← orderFrom_succ R hi]
      · have := hr.bucket_length i
        simp only [List.length_map, World.tableFuel]
        omega)
    (by
      rintro i l w' ⟨hi, done, todo, log, rfl, hb, hr', -, -⟩
      have hring := hr'.buckets.ring i (by rw [hr'.size]; exact hi)
      have hb' : ({ R with log := log } : Roster).bucket i = done ++ todo := hb
      rw [hb', List.map_append, List.map_append] at hring
      exact hring.rest)
    (by
      rintro i x l w' ⟨hi, done, todo, log, hl, hb, hr', hbusy, hv⟩
      cases todo with
      | nil => cases hl
      | cons e todo =>
        rw [List.map_cons, List.cons.injEq] at hl
        obtain ⟨rfl, rfl⟩ := hl
        obtain ⟨w₁, e₁, hr₁, hb₁⟩ := runUser_spec f visit_calls hu hr' (mem_entries hb)
        have e₁ : runUser u f .visit w' e.dev = some ((u.react log f (note e)).ret, w₁) := e₁
        rw [List.cons_append, List.map_cons, visitAll] at hv
        -- the first non-zero result ends the enumeration and is returned
        by_cases hz : (u.react log f (note e)).ret = 0
        · rw [if_neg (by simpa using hz)] at hv
          refine ⟨.next, w₁, ?_, hi, done ++ [e], todo, _, rfl, by simp [hb], hr₁,
            hb₁.trans hbusy, hv⟩
          simp only [listBody, e₁, Option.bind_eq_bind, Option.bind_some, hz, ne_eq,
            not_true_eq_false, ↓reduceIte]
        · rw [if_pos hz] at hv
          refine ⟨.ret (u.react log f (note e)).ret, w₁, ?_, ?_, ?_, hb₁.trans hbusy⟩
          · simp only [listBody, e₁, Option.bind_eq_bind, Option.bind_some, hz, ne_eq,
              not_false_eq_true, ↓reduceIte]
          · rw [← hv]
            rfl
          · rw [← hv]
            exact hr₁)
    (by
      rintro i w' ⟨hi, done, todo, log, hl, hb, hr', hbusy, hv⟩
      cases todo with
      | cons e todo => cases hl
      | nil => exact ⟨log, hr', hbusy, hv⟩)
    (by
      rintro w' ⟨log, hr', hbusy, hv⟩
      rw [← hv]
      exact ⟨rfl, hr', hbusy⟩)
    ⟨R.log, hr, rfl, by rw [orderFrom_zero]⟩ hr.size
  refine ⟨w', ?_, hq.2.1, hq.2.2⟩
  simp only [hsMonitorList, hw, Option.bind_eq_bind, Option.bind_some, hq.1]
  rfl

/-! ## Registering callbacks -/

/-- `hs_monitor_register_callback` appends a callback with a new id. -/
theorem registerCallback_spec (hr : Rep w m R) (f : Nat) (callocOk : Bool) :
    ∃ r w', hsMonitorRegisterCallback w f callocOk = some (r, w') ∧ w'.busy = w.busy ∧
      if callocOk then r = R.nextId ∧ ∃ a, Rep w' m (R.register a f)
      else r < 0 ∧ w' = w := by
  cases callocOk with
  | false => exact ⟨_, w, rfl, rfl, hsError_neg _ _, rfl⟩
  | true =>
    have hfresh : ∀ c ∈ R.listeners, c.addr ≠ w.cbs.brk := by
      intro c hc he
      have := hr.records c hc
      rw [he, Heap.get_brk] at this
      cases this
    have hnot : CbRef.record w.cbs.brk ∉ CbRef.head :: R.listeners.map fun c => .record c.addr := by
      intro hm
      rcases List.mem_cons.mp hm with hm | hm
      · cases hm
      · obtain ⟨c, hc, he⟩ := List.mem_map.mp hm
        exact hfresh c hc (by simpa using he)
    have hring : DRing (Function.update w.links (.record w.cbs.brk) (some ⟨none, none⟩)) .head
        (R.listeners.map fun c => CbRef.record c.addr) := by
      refine hr.ring.congr fun y hy => Function.update_of_ne ?_ ..
      rintro rfl
      exact hnot hy
    obtain ⟨links, e₁, hring', -⟩ := listAddTail_spec hring hnot (by simp)
    refine ⟨R.nextId, { w with
        cbs := (w.cbs.alloc ⟨w.callbackId, f⟩).2
        links := links
        callbackId := w.callbackId + 1 }, ?_, rfl, rfl, w.cbs.brk, ?_⟩
    · simp only [hsMonitorRegisterCallback, ↓reduceIte, World.allocCallback, e₁,
        Option.bind_eq_bind, Option.bind_some, hr.nextId]
    · rw [hr.nextId]
      refine hr.relink ?_ fun c hc => ?_
      · simpa using hring'
      · rw [Heap.get_alloc]
        rcases List.mem_append.mp hc with hc | hc
        · rw [if_neg (hfresh c hc)]
          exact hr.records c hc
        · rw [List.mem_singleton.mp hc, if_pos rfl]

/-- The search of `hs_monitor_deregister_callback` drops the first record with the id. -/
theorem deregisterCallback_eq (hr : Rep w m R) (id : Nat) :
    ∃ w', hsMonitorDeregisterCallback w id = some w' ∧
      match R.listeners.find? fun c => c.id = id with
      | none => w' = w
      | some c => dropCallback w c.addr = some w' := by
  obtain ⟨ex, w', hw, hq⟩ : ∃ ex w', hsListForeach World.links .head (deregisterBody id)
      w.listFuel w = some (ex, w') ∧
      match R.listeners.find? fun c => c.id = id with
      | none => w' = w
      | some c => dropCallback w c.addr = some w' := listForeach_rule
    (l := R.listeners.map fun c => .record c.addr)
    (I := fun l w' => w' = w ∧ ∃ done todo, l = todo.map (fun c => CbRef.record c.addr) ∧
      R.listeners = done ++ todo ∧ ∀ c ∈ done, c.id ≠ id)
    (Q := fun _ w' => match R.listeners.find? fun c => c.id = id with
      | none => w' = w
      | some c => dropCallback w c.addr = some w')
    (by
      rintro l w' ⟨rfl, done, todo, rfl, hl, -⟩
      have hring := hr.ring
      rw [hl, List.map_append] at hring
      exact hring.fwd.rest)
    (by
      rintro x l w' ⟨rfl, done, todo, hl, hls, hdone⟩
      cases todo with
      | nil => cases hl
      | cons c todo =>
        rw [List.map_cons, List.cons.injEq] at hl
        obtain ⟨rfl, rfl⟩ := hl
        have hrec := hr.records c (by rw [hls]; simp)
        -- the loop stops at the first record with the id
        by_cases hid : c.id = id
        · subst hid
          have hr' : Rep w' m { R with listeners := done ++ c :: todo } := by
            rw [← hls]
            exact hr
          obtain ⟨w₁, e₁, -⟩ := dropCallback_spec hr'
          refine ⟨.brk, w₁, ?_, ?_⟩
          · simp only [deregisterBody, hrec, e₁, Option.bind_eq_bind, Option.bind_some, ↓reduceIte]
          · have hnone : done.find? (fun x => x.id = c.id) = none :=
              List.find?_eq_none.mpr fun x hx => by simpa using hdone x hx
            simpa only [Round, hls, List.find?_append, hnone, Option.none_or, List.find?_cons,
              decide_true] using e₁
        · refine ⟨.next, w', ?_, rfl, done ++ [c], todo, rfl, by simp [hls], fun x hx => ?_⟩
          · simp only [deregisterBody, hrec, hid, Option.bind_eq_bind, Option.bind_some,
              ↓reduceIte]
          · rcases List.mem_append.mp hx with hx | hx
            · exact hdone x hx
            · rw [List.mem_singleton.mp hx]
              exact hid)
    (by
      rintro w' ⟨rfl, done, todo, hl, hls, hdone⟩
      cases todo with
      | cons c todo => cases hl
      | nil =>
        have hnone : R.listeners.find? (fun x => x.id = id) = none := by
          rw [hls, List.append_nil]
          exact List.find?_eq_none.mpr fun x hx => by simpa using hdone x hx
        rw [hnone])
    ⟨rfl, [], R.listeners, rfl, rfl, fun _ h => absurd h List.not_mem_nil⟩ hr.ring.fwd.head_next
    (by simpa [World.listFuel, Nat.lt_succ_iff] using hr.listeners_length)
  exact ⟨w', by simp only [hsMonitorDeregisterCallback, hw, Option.bind_eq_bind, Option.bind_some],
    hq⟩

/-- `hs_monitor_deregister_callback` drops the callback with the id, if there is one. -/
theorem deregisterCallback_spec (hr : Rep w m R) (id : Nat) :
    ∃ w', hsMonitorDeregisterCallback w id = some w' ∧ Rep w' m (R.deregister id) ∧
      w'.busy = w.busy := by
  obtain ⟨w', e, h⟩ := deregisterCallback_eq hr id
  cases hfind : R.listeners.find? fun c => c.id = id with
  | none =>
    rw [hfind] at h
    obtain rfl : w' = w := h
    have hsame : R.listeners.eraseP (fun c => c.id = id) = R.listeners :=
      List.eraseP_of_forall_not fun x hx => by
        simpa using List.find?_eq_none.mp hfind x hx
    exact ⟨w', e, by rw [Roster.deregister, hsame]; exact hr, rfl⟩
  | some c =>
    rw [hfind] at h
    obtain ⟨hid, done, todo, hls, hdone⟩ := List.find?_eq_some_iff_append.mp hfind
    have hr' : Rep w m { R with listeners := done ++ c :: todo } := by
      rw [← hls]
      exact hr
    obtain ⟨w₁, e₁, hr₁, hb₁⟩ := dropCallback_spec hr'
    obtain rfl : w₁ = w' := Option.some.inj (e₁.symm.trans h)
    have herase : (c :: todo).eraseP (fun x => x.id = id) = todo := List.eraseP_cons_of_pos hid
    have hgone : R.deregister id = { R with listeners := done ++ todo } := by
      rw [Roster.deregister, hls, List.eraseP_append_right _ (fun x hx => by simpa using hdone x hx),
        herase]
    exact ⟨w₁, e, by rw [hgone]; exact hr₁, hb₁⟩

end Libhs
