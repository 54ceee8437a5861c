import Libhs.TableRefinement

/-!
# The notifications of a callback mirror the table

A callback that always returns 0 is told of every change of the table, among
callbacks that come and go: `dispatch_heard` for one dispatch, `steps_follow` for
one operation, `eventStream_mirrors_table` for a whole run.
-/

namespace Libhs
open Pointer Keyed

/-- The notice that the callback `id` was given. -/
def heardBy (id : Nat) : Event → Option Notice
  | .notify i n _ => if i = id then some n else none
  | _ => none

/-- A notice as news about a (key, interface) pair: it came, or it left. -/
def Notice.news (n : Notice) : (Option CStr × UInt8) × Bool := (n.pair, n.status = .online)

/-- What the callback `id` was told in a stretch of the log. -/
def heard (id : Nat) (evs : List Event) : List ((Option CStr × UInt8) × Bool) :=
  (evs.filterMap (heardBy id)).map Notice.news

/-- What `hs_monitor_list` enumerates to a callback that returns 0. -/
def listed (w : World) : Set (Option CStr × UInt8) :=
  {p | ∃ w' n, hsMonitorList (.returning fun _ _ _ => 0) w 0 = some (0, w') ∧
    .visit n 0 ∈ w'.log.drop w.log.length ∧ n.pair = p}

/-- The event does not show `p` to an enumeration. -/
def Event.omits (p : Option CStr × UInt8) : Event → Bool
  | .visit n _ => n.pair ≠ p
  | _ => true

/-- The devices of the table as a callback names them. -/
def Roster.seen (R : Roster) : Set (Option CStr × UInt8) :=
  {p | p ∈ R.entries.map fun e => (some e.key, e.iface)}

variable {u : User} {w : World} {R R' : Roster} {m f id : Nat} {n : Notice} {e : Entry}
  {c : Listener} {op : MonitorOp}

theorem heard_append (evs evs' : List Event) :
    heard id (evs ++ evs') = heard id evs ++ heard id evs' := by
  simp [heard]

theorem not_listed_of_omits {p : Option CStr × UInt8}
    (h : (hsMonitorList (.returning fun _ _ _ => 0) w 0).all (fun x =>
      (x.2.log.drop w.log.length).all (Event.omits p)) = true) : p ∉ listed w := by
  rintro ⟨w', n, e, hn, hpair⟩
  rw [e] at h
  exact absurd hpair (of_decide_eq_true (List.all_eq_true.mp h _ hn))

theorem listed_eq (hr : Rep w m R) : listed w = R.seen := by
  obtain ⟨w', e, hlog⟩ := (list_enumerates hr).1 0
  have hvis : w'.log.drop w.log.length = (R.notices m).map (.visit · 0) := by
    rw [hlog, List.drop_left]
  have hmap : (R.notices m).map Notice.pair = R.order.map fun e => (some e.key, e.iface) := by
    rw [Roster.notices, List.map_map]
    rfl
  ext p
  have hperm := ((order_perm R).map fun e => ((some e.key, e.iface) : Option CStr × UInt8)).mem_iff
    (a := p)
  simp only [listed, Roster.seen, Set.mem_ofPred_eq]
  rw [← hperm, ← hmap]
  constructor
  · rintro ⟨w'', n, e', hn, rfl⟩
    rw [e] at e'
    cases e'
    rw [hvis] at hn
    obtain ⟨n', hn', he⟩ := List.mem_map.mp hn
    cases he
    exact List.mem_map_of_mem hn'
  · intro hp
    obtain ⟨n, hn, rfl⟩ := List.mem_map.mp hp
    exact ⟨w', n, e, by rw [hvis]; exact List.mem_map_of_mem hn, rfl⟩

/-! ## One dispatch -/

section Patient

variable (hpos : ∀ log f n, 0 ≤ (u.react log f n).ret)
include hpos

/-- When no callback fails, each callback of the list hears the notice once. -/
theorem dispatch_heard (id : Nat) (n : Notice) (cs : List Listener) (log : List Event)
    (hnd : (cs.map Listener.id).Nodup) :
    ∃ evs, (dispatch u n cs log).2.2 = log ++ evs ∧
      evs.filterMap (heardBy id) = if id ∈ cs.map Listener.id then [n] else [] := by
  induction cs generalizing log with
  | nil => exact ⟨[], by simp [dispatch], by simp⟩
  | cons c cs ih =>
    rw [List.map_cons, List.nodup_cons] at hnd
    obtain ⟨evs, hlog, hheard⟩ := ih (log ++ [.notify c.id n (u.react log c.f n).ret]) hnd.2
    refine ⟨.notify c.id n (u.react log c.f n).ret :: evs, ?_, ?_⟩
    · rw [dispatch, if_neg (Int.not_lt.mpr (hpos log c.f n))]
      simp only [hlog, List.append_assoc, List.singleton_append]
    · by_cases hid : c.id = id
      · subst hid
        rw [List.filterMap_cons, hheard]
        simp [heardBy, hnd.1]
      · rw [List.filterMap_cons, hheard]
        simp [heardBy, hid, Ne.symm hid]

/-- A callback that returns 0 stays registered. -/
theorem dispatch_keeps (hzero : ∀ log n, (u.react log c.f n).ret = 0) (cs : List Listener)
    (log : List Event) (hc : c ∈ cs) : c ∈ (dispatch u n cs log).2.1 := by
  induction cs generalizing log with
  | nil => exact absurd hc List.not_mem_nil
  | cons x cs ih =>
    rw [dispatch, if_neg (Int.not_lt.mpr (hpos log x.f n))]
    dsimp only
    rcases List.mem_cons.mp hc with rfl | hc
    · rw [if_neg (by simp [hzero])]
      exact List.mem_cons_self
    · split
      · exact ih _ hc
      · exact List.mem_cons_of_mem x (ih _ hc)

/-! ## One operation -/

/-- The callback `c` is still there, and what it heard leads from one table to the other. -/
def Follows (c : Listener) (R R' : Roster) : Prop :=
  c ∈ R'.listeners ∧
    ∃ evs, R'.log = R.log ++ evs ∧ Tracks R.seen (heard c.id evs) R'.seen

omit hpos in
theorem Follows.trans {R'' : Roster} (h₁ : Follows c R R') (h₂ : Follows c R' R'') :
    Follows c R R'' := by
  obtain ⟨-, evs, hl, ht⟩ := h₁
  obtain ⟨hc, evs', hl', ht'⟩ := h₂
  refine ⟨hc, evs ++ evs', by rw [hl', hl, List.append_assoc], ?_⟩
  rw [heard_append]
  exact ht.append ht'

omit hpos in
/-- Operations that tell nobody anything and leave the table alone. -/
theorem follows_of_silent (hc : c ∈ R'.listeners) (hlog : R'.log = R.log)
    (he : R'.entries = R.entries) : Follows c R R' := by
  refine ⟨hc, [], by rw [hlog, List.append_nil], ?_⟩
  show R.seen = R'.seen
  rw [Roster.seen, Roster.seen, he]

theorem add_follows (hzero : ∀ log n, (u.react log c.f n).ret = 0) (hok : R.Ok)
    (hc : c ∈ R.listeners) : Follows c R (R.add u m e).2 := by
  by_cases h : e.pair ∈ R.entries.map Entry.pair
  · rw [add_of_mem h]
    exact follows_of_silent hc rfl rfl
  · rw [add_of_not_mem h]
    refine ⟨dispatch_keeps hpos hzero R.listeners _ hc, ?_⟩
    obtain ⟨evs, hlog, hh⟩ := dispatch_heard hpos c.id (e.notice m .online)
      R.listeners (R.log ++ [.inserted e.dev e.key]) hok.ids
    refine ⟨.inserted e.dev e.key :: evs, ?_, ?_⟩
    · simp only [Roster.trigger, Roster.emit, Roster.setStatus, Function.update_self]
      rw [hlog, List.append_assoc]
      rfl
    · have hnews : heard c.id (.inserted e.dev e.key :: evs) = [((some e.key, e.iface), true)] := by
        rw [heard, List.filterMap_cons]
        simp only [heardBy]
        rw [hh, if_pos (List.mem_map_of_mem hc)]
        rfl
      rw [hnews]
      have hnot : (some e.key, e.iface) ∉ R.seen := by
        intro hm
        obtain ⟨x, hx, he⟩ := List.mem_map.mp hm
        simp only [Prod.mk.injEq, Option.some.injEq] at he
        refine h (List.mem_map.mpr ⟨x, hx, ?_⟩)
        rw [Entry.pair, Entry.pair, he.1, he.2]
      refine ⟨by simpa using hnot, ?_⟩
      ext p
      simp only [note, Roster.seen, Set.mem_ofPred_eq, trigger_entries, Roster.emit,
        Roster.setStatus, List.map_cons, List.mem_cons, and_true, ne_eq]
      constructor
      · rintro (hp | ⟨-, hp⟩)
        · exact Or.inl hp
        · exact Or.inr hp
      · rintro (hp | hp)
        · exact Or.inl hp
        · by_cases hpe : p = (some e.key, e.iface)
          · exact Or.inl hpe
          · exact Or.inr ⟨hpe, hp⟩

/-- No device, no pair and no callback is there twice. Unlike `Roster.Ok`, it also holds in the
middle of a removal. -/
structure Roster.Distinct (R : Roster) : Prop where
  devs : R.devs.Nodup
  pairs : (R.entries.map Entry.pair).Nodup
  ids : (R.listeners.map Listener.id).Nodup

omit hpos in
theorem Roster.Distinct.removeOne (hok : R.Distinct) : (R.removeOne u m e).Distinct := by
  have hsub : (R.removeOne u m e).entries.Sublist R.entries := List.filter_sublist
  have hls : (R.removeOne u m e).listeners.Sublist R.listeners := dispatch_sublist R.listeners _
  exact ⟨hok.devs.sublist (hsub.map _), hok.pairs.sublist (hsub.map _),
    hok.ids.sublist (hls.map _)⟩

theorem removeOne_follows (hzero : ∀ log n, (u.react log c.f n).ret = 0) (hok : R.Distinct)
    (hc : c ∈ R.listeners) (he : e ∈ R.entries) : Follows c R (R.removeOne u m e) := by
  refine ⟨dispatch_keeps hpos hzero R.listeners _ hc, ?_⟩
  obtain ⟨evs, hlog, hh⟩ := dispatch_heard hpos c.id (e.notice m .disconnected)
    R.listeners (R.log ++ [.gone e.dev]) hok.ids
  refine ⟨.gone e.dev :: evs, ?_, ?_⟩
  · simp only [Roster.removeOne, Roster.trigger, Roster.emit, Roster.drop, Roster.setStatus,
      Function.update_self]
    rw [hlog, List.append_assoc]
    rfl
  · have hnews : heard c.id (.gone e.dev :: evs) = [((some e.key, e.iface), false)] := by
      rw [heard, List.filterMap_cons]
      simp only [heardBy]
      rw [hh, if_pos (List.mem_map_of_mem hc)]
      rfl
    rw [hnews]
    have hin : (some e.key, e.iface) ∈ R.seen := List.mem_map.mpr ⟨e, he, rfl⟩
    refine ⟨by simpa using hin, ?_⟩
    ext p
    simp only [note, Roster.seen, Set.mem_ofPred_eq, removeOne_entries, List.mem_map,
      List.mem_filter, Bool.false_eq_true, and_false, false_or, ne_eq, decide_not,
      Bool.not_eq_true', decide_eq_false_iff_not]
    constructor
    · rintro ⟨hp, x, hx, rfl⟩
      refine ⟨x, ⟨hx, fun hd => hp ?_⟩, rfl⟩
      rw [List.inj_on_of_nodup_map hok.devs hx he hd]
    · rintro ⟨x, ⟨hx, hd⟩, rfl⟩
      refine ⟨fun hp => hd ?_, x, hx, rfl⟩
      simp only [Prod.mk.injEq, Option.some.injEq] at hp
      have hpair : x.pair = e.pair := by rw [Entry.pair, Entry.pair, hp.1, hp.2]
      rw [List.inj_on_of_nodup_map hok.pairs hx he hpair]

theorem removeEach_follows (hzero : ∀ log n, (u.react log c.f n).ret = 0) (es : List Entry)
    (hok : R.Distinct) (hc : c ∈ R.listeners) (hes : ∀ e ∈ es, e ∈ R.entries)
    (hnd : (es.map Entry.dev).Nodup) :
    Follows c R (es.foldl (fun R e => R.removeOne u m e) R) := by
  induction es generalizing R with
  | nil => exact follows_of_silent hc rfl rfl
  | cons e es ih =>
    rw [List.map_cons, List.nodup_cons] at hnd
    have h₁ := removeOne_follows (m := m) hpos hzero hok hc (hes e List.mem_cons_self)
    refine h₁.trans (ih hok.removeOne h₁.1 (fun x hx => ?_) hnd.2)
    rw [removeOne_entries]
    refine List.mem_filter.mpr ⟨hes x (List.mem_cons_of_mem e hx), ?_⟩
    have hne : x.dev ≠ e.dev := fun hd => hnd.1 (hd ▸ List.mem_map_of_mem hx)
    simpa using hne

theorem remove_follows (hzero : ∀ log n, (u.react log c.f n).ret = 0) (hok : R.Ok)
    (hc : c ∈ R.listeners) (key : CStr) : Follows c R (R.remove u m key) := by
  have hbegin : Follows c R (R.emit (.removal key)) := ⟨hc, [.removal key], rfl, rfl⟩
  have hok' : (R.emit (.removal key)).Distinct := ⟨hok.devs, hok.pairs, hok.ids⟩
  have hrounds := removeEach_follows (m := m) hpos hzero (R.entries.filter fun e => e.key = key)
    hok' hc (fun e he => (List.mem_filter.mp he).1)
    (hok.devs.sublist (List.filter_sublist.map _))
  exact (hbegin.trans hrounds).trans ⟨hrounds.1, [.removed key], rfl, rfl⟩

/-- Every operation but the deregistration of `c` itself. -/
theorem steps_follow (hzero : ∀ log n, (u.react log c.f n).ret = 0) (hok : R.Ok)
    (hc : c ∈ R.listeners) (hop : op ≠ .deregister c.id) (h : op.Steps u m R R') :
    Follows c R R' := by
  cases op with
  | register f callocOk =>
    cases callocOk with
    | false => cases h; exact follows_of_silent hc rfl rfl
    | true =>
      obtain ⟨a, rfl⟩ := h
      exact follows_of_silent (List.mem_append_left _ hc) rfl rfl
  | deregister id =>
    cases h
    refine follows_of_silent ?_ rfl rfl
    have hid : c.id ≠ id := fun he => hop (by rw [he])
    exact (List.mem_eraseP_of_neg (by simpa using hid)).mpr hc
  | add key iface driver rest =>
    obtain ⟨d, hd, rfl⟩ := h
    have hok' : (R.setStatus d .disconnected).Ok := hok.setStatus hd.1 _
    exact (follows_of_silent hc rfl rfl : Follows c R (R.setStatus d .disconnected)).trans
      (add_follows hpos hzero hok' hc)
  | remove key => cases h; exact remove_follows hpos hzero hok hc key
  | user a => cases h; exact follows_of_silent hc rfl rfl

/-! ## Whole runs -/

theorem execAll_follows (hu : u.limit ≤ uintMod) (hzero : ∀ log n, (u.react log c.f n).ret = 0)
    (hr : Rep w m R) (hok : R.Ok) (hc : c ∈ R.listeners) (ops : List MonitorOp)
    (hops : .deregister c.id ∉ ops) :
    ∃ w' R', execAll u w ops = some w' ∧ Rep w' m R' ∧ Follows c R R' := by
  induction ops generalizing w R with
  | nil => exact ⟨w, R, rfl, hr, follows_of_silent hc rfl rfl⟩
  | cons op ops ih =>
    obtain ⟨w₁, R₁, e₁, hr₁, hs⟩ := exec_spec hu hr op
    have hne : op ≠ .deregister c.id := fun he => hops (he ▸ List.mem_cons_self)
    have h₁ := steps_follow hpos hzero hok hc hne hs
    obtain ⟨w', R', e, hr', h'⟩ := ih hr₁ (steps_spec hok hs).1 h₁.1
      fun hm => hops (List.mem_cons_of_mem op hm)
    exact ⟨w', R', by simp [execAll, e₁, e], hr', h₁.trans h'⟩

end Patient

/-- Register a callback that always returns 0 on any monitor, and go on with any operations, while
the other callbacks never fail. What the callback is told turns the set enumerated when it was
registered into the set enumerated at the end, and tells of each pair in alternation. -/
theorem eventStream_mirrors_table (react₁ react : List Event → Nat → Notice → Reaction) (fC : Nat)
    (before after : List MonitorOp) (hzero : ∀ log n, (react log fC n).ret = 0)
    (hpos : ∀ log f n, 0 ≤ (react log f n).ret) :
    ∃ w₁ id w₂, monitorAfter (.careful react₁) before = some w₁ ∧
      hsMonitorRegisterCallback w₁ fC true = some (Int.ofNat id, w₂) ∧
      (.deregister id ∉ after → ∃ w₃ evs, execAll (.careful react) w₂ after = some w₃ ∧
        w₃.log = w₂.log ++ evs ∧ (heard id evs).foldl note (listed w₁) = listed w₃ ∧
        ∀ p, Alternates (p ∈ listed w₁) (((heard id evs).filter fun e => e.1 = p).map Prod.snd)) := by
  obtain ⟨w₁, R₁, e₁, hr₁, hok₁, -⟩ :=
    monitorAfter_spec (u := .careful react₁) (Nat.le_refl uintMod) before
  obtain ⟨r, w₂, e₂, -, rfl, a, hr₂⟩ := registerCallback_spec hr₁ fC true
  refine ⟨w₁, R₁.nextId, w₂, e₁, e₂, fun hafter => ?_⟩
  have hc : (⟨a, R₁.nextId, fC⟩ : Listener) ∈ (R₁.register a fC).listeners := by
    simp [Roster.register]
  obtain ⟨w₃, R₃, e₃, hr₃, -, evs, hlog, ht⟩ := execAll_follows (u := .careful react)
    (c := ⟨a, R₁.nextId, fC⟩) hpos (Nat.le_refl uintMod) hzero hr₂ (hok₁.register a fC) hc after hafter
  refine ⟨w₃, evs, e₃, by rw [hr₃.log, hlog, hr₂.log], ?_, fun p => ?_⟩
  · rw [listed_eq hr₁, listed_eq hr₃]
    exact ht.foldl_note
  · rw [listed_eq hr₁]
    exact ht.alternates p

/-- A device comes and goes. -/
theorem eventStream_mirrors_table_once :
    ∃ w₁ id w₂ w₃ evs, monitorAfter (.careful fun _ _ _ => ⟨[], 0⟩) [] = some w₁ ∧
      hsMonitorRegisterCallback w₁ 0 true = some (Int.ofNat id, w₂) ∧
      execAll (.careful fun _ _ _ => ⟨[], 0⟩) w₂ [.add ⟨[97], by decide⟩ 0 .posix .zero,
        .remove ⟨[97], by decide⟩] = some w₃ ∧ w₃.log = w₂.log ++ evs ∧
      (heard id evs).foldl note (listed w₁) = listed w₃ := by
  obtain ⟨w₁, id, w₂, e₁, e₂, h⟩ := eventStream_mirrors_table (fun _ _ _ => ⟨[], 0⟩)
    (fun _ _ _ => ⟨[], 0⟩) 0 [] [.add ⟨[97], by decide⟩ 0 .posix .zero, .remove ⟨[97], by decide⟩]
    (fun _ _ => rfl) (fun _ _ _ => Int.le_refl 0)
  obtain ⟨w₃, evs, e₃, hlog, hfold, -⟩ := h (by simp)
  exact ⟨w₁, id, w₂, w₃, evs, e₁, e₂, e₃, hlog, hfold⟩

end Libhs
