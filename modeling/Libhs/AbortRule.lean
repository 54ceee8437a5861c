import Libhs.Converge

/-!
# What a callback result does to a refresh

The header promises that a non-zero result interrupts a refresh and is returned
(`AbortRule`). The code keeps this promise exactly in the refreshes in which every
non-zero result is negative and answers an arrival (`refresh_abortRule_iff`): a
positive result only drops the callback, and the result for a removal is ignored.
-/

namespace Libhs
open Pointer

/-- A non-zero result of a callback is the last thing that happens, and is returned; and 0 is
returned only if all results were 0. -/
def AbortRule (evs : List Event) (r : Int) : Prop :=
  (∀ front id n ret back, evs = front ++ .notify id n ret :: back → ret ≠ 0 → r = ret ∧ back = []) ∧
    (r = 0 → ∀ id n ret, .notify id n ret ∈ evs → ret = 0)

/-- Every non-zero result is negative and answers an arrival. -/
def NoneSwallowed (evs : List Event) : Prop :=
  ∀ id n ret, .notify id n ret ∈ evs → ret ≠ 0 → ret < 0 ∧ n.status = .online

/-- A refresh of the monitor after the operations `before`: what it returns and logs. -/
def refreshTrace (u : User) (before : List MonitorOp) (queue : List (UdevDevice × ReadOs))
    (nomem : Bool) : Option (Int × List Event) := do
  let w ← monitorAfter u before
  let ((r, _), w') ← hsMonitorRefresh u queue nomem w
  some (r, w'.log.drop w.log.length)

variable {u : User} {R R' : Roster} {m : Nat} {nomem : Bool} {r : Int} {os : ReadOs}
  {udevDev : UdevDevice} {queue rest : List (UdevDevice × ReadOs)} {n : Notice} {evs : List Event}

/-! ## Traces -/

/-- No callback returned a negative value. -/
def NoneFailed (evs : List Event) : Prop := ∀ id n ret, .notify id n ret ∈ evs → 0 ≤ ret

/-- The calls that one dispatch makes. -/
theorem dispatch_trace (cs : List Listener) (log : List Event) :
    ∃ evs, (dispatch u n cs log).2.2 = log ++ evs ∧
      (∀ ev ∈ evs, ∃ id ret, ev = .notify id n ret) ∧
      ((¬ (dispatch u n cs log).1 < 0 ∧ NoneFailed evs) ∨
        ((dispatch u n cs log).1 < 0 ∧ ∃ front id,
          evs = front ++ [.notify id n (dispatch u n cs log).1] ∧ NoneFailed front)) := by
  induction cs generalizing log with
  | nil =>
    exact ⟨[], by simp [dispatch], by simp, Or.inl ⟨Int.lt_irrefl 0, by simp [NoneFailed]⟩⟩
  | cons c cs ih =>
    rw [dispatch]
    by_cases hneg : (u.react log c.f n).ret < 0
    · simp only [hneg, ↓reduceIte]
      exact ⟨[.notify c.id n (u.react log c.f n).ret], rfl, by simp,
        Or.inr ⟨trivial, [], c.id, rfl, by simp [NoneFailed]⟩⟩
    · simp only [hneg, ↓reduceIte]
      obtain ⟨evs, hlog, hall, h⟩ := ih (log ++ [.notify c.id n (u.react log c.f n).ret])
      have hcons : ∀ {front : List Event}, NoneFailed front →
          NoneFailed (.notify c.id n (u.react log c.f n).ret :: front) := by
        intro front hf id n' ret hm
        rcases List.mem_cons.mp hm with hm | hm
        · cases hm
          exact Int.not_lt.mp hneg
        · exact hf id n' ret hm
      refine ⟨.notify c.id n (u.react log c.f n).ret :: evs, by rw [hlog, List.append_assoc]; rfl,
        List.forall_mem_cons.mpr ⟨⟨_, _, rfl⟩, hall⟩, ?_⟩
      rcases h with ⟨hpos, hh⟩ | ⟨hlt, front, id, rfl, hh⟩
      · exact Or.inl ⟨hpos, hcons hh⟩
      · exact Or.inr ⟨hlt, .notify c.id n (u.react log c.f n).ret :: front, id, rfl, hcons hh⟩

/-- Every callback that was called was told of a device that is gone. -/
def Farewells (evs : List Event) : Prop :=
  ∀ id n ret, .notify id n ret ∈ evs → n.status = .disconnected

/-- Removals call callbacks on disconnected devices only. -/
theorem removeEach_trace (es : List Entry) (R : Roster) :
    ∃ evs, (es.foldl (fun R e => R.removeOne u m e) R).log = R.log ++ evs ∧ Farewells evs := by
  induction es generalizing R with
  | nil => exact ⟨[], by simp, by simp [Farewells]⟩
  | cons e es ih =>
    obtain ⟨evs, hlog, h⟩ := ih (R.removeOne u m e)
    obtain ⟨evs₁, hlog₁, hall, -⟩ := dispatch_trace (u := u)
      (n := e.notice m ((R.setStatus e.dev .disconnected).status e.dev)) R.listeners
      (R.log ++ [.gone e.dev])
    refine ⟨.gone e.dev :: evs₁ ++ evs, ?_, fun id n ret hev => ?_⟩
    · rw [List.foldl_cons, hlog]
      have : (R.removeOne u m e).log = R.log ++ [.gone e.dev] ++ evs₁ := hlog₁
      rw [this]
      simp
    · rcases List.mem_append.mp hev with hev | hev
      · rcases List.mem_cons.mp hev with hev | hev
        · cases hev
        · obtain ⟨id', ret', he⟩ := hall _ hev
          cases he
          exact Function.update_self ..
      · exact h id n ret hev

/-- No callback was called, or the last one returned `r` for an arrival. -/
def CutShort (evs : List Event) (r : Int) : Prop :=
  (∀ id n ret, .notify id n ret ∉ evs) ∨
    ∃ front id n, evs = front ++ [.notify id n r] ∧ n.status = .online ∧ NoneFailed front

theorem add_trace (e : Entry) (R : Roster) :
    ∃ evs, (R.add u m e).2.log = R.log ++ evs ∧
      (¬ (R.add u m e).1 < 0 → NoneFailed evs) ∧
      ((R.add u m e).1 < 0 → CutShort evs (R.add u m e).1) := by
  by_cases h : e.pair ∈ R.entries.map Entry.pair
  · rw [add_of_mem h]
    exact ⟨[], by simp, fun _ => by simp [NoneFailed], fun hlt => absurd hlt (Int.lt_irrefl 0)⟩
  · rw [add_of_not_mem h]
    set R₁ := ({ R with entries := e :: R.entries }.setStatus e.dev .online).emit
      (.inserted e.dev e.key) with hR₁
    obtain ⟨evs, hlog, -, hcase⟩ := dispatch_trace (u := u) (n := e.notice m (R₁.status e.dev))
      R₁.listeners R₁.log
    have hst : (e.notice m (R₁.status e.dev)).status = .online := Function.update_self ..
    have hskip : ∀ {front : List Event}, NoneFailed front →
        NoneFailed (.inserted e.dev e.key :: front) := by
      intro front hf id n ret hm
      rcases List.mem_cons.mp hm with hm | hm
      · cases hm
      · exact hf id n ret hm
    refine ⟨.inserted e.dev e.key :: evs, ?_, fun hpos => ?_, fun hneg => ?_⟩
    · have : (R₁.trigger u m e).2.log = R₁.log ++ evs := hlog
      rw [this, hR₁]
      simp [Roster.emit, Roster.setStatus]
    · rcases hcase with ⟨-, hnone⟩ | ⟨hlt, -⟩
      · exact hskip hnone
      · exact absurd hlt hpos
    · rcases hcase with ⟨hpos, -⟩ | ⟨-, front, id, rfl, hnone⟩
      · exact absurd hneg hpos
      · exact Or.inr ⟨.inserted e.dev e.key :: front, id, _, rfl, hst, hskip hnone⟩

/-- One event of a refresh. -/
theorem refreshesOne_trace (h : RefreshesOne u m udevDev os R r R') :
    ∃ evs, R'.log = R.log ++ evs ∧
      (¬ r < 0 → ∀ id n ret, .notify id n ret ∈ evs → 0 ≤ ret ∨ n.status = .disconnected) ∧
      (r < 0 → CutShort evs r) := by
  unfold RefreshesOne at h
  by_cases hadd : udevDev.action.is "add"
  · rw [if_pos hadd] at h
    obtain ⟨d, hd, h⟩ := h
    cases hres : udevDev.read os with
    | error e =>
      rw [hres] at h
      obtain ⟨-, rfl⟩ := h
      exact ⟨[], by simp [Roster.setStatus], fun _ => by simp, fun _ => Or.inl (by simp)⟩
    | ok D =>
      rw [hres] at h
      have hr : r = ((R.setStatus d .disconnected).add u m ⟨d, udevDev.devpath, D.iface⟩).1 :=
        congrArg Prod.fst h
      have hR : R' = ((R.setStatus d .disconnected).add u m ⟨d, udevDev.devpath, D.iface⟩).2 :=
        congrArg Prod.snd h
      subst hr hR
      obtain ⟨evs, hlog, hpos, hneg⟩ := add_trace (u := u) (m := m) ⟨d, udevDev.devpath, D.iface⟩
        (R.setStatus d .disconnected)
      exact ⟨evs, hlog, fun hn id n ret hm => Or.inl (hpos hn id n ret hm), hneg⟩
  · rw [if_neg hadd] at h
    by_cases hrem : udevDev.action.is "remove"
    · rw [if_pos hrem] at h
      obtain ⟨rfl, rfl⟩ := h
      obtain ⟨evs, hlog, hall⟩ := removeEach_trace (u := u) (m := m)
        (R.entries.filter fun e => e.key = udevDev.devpath) (R.emit (.removal udevDev.devpath))
      refine ⟨.removal udevDev.devpath :: evs ++ [.removed udevDev.devpath], ?_,
        fun _ id n ret hm => Or.inr ?_, fun hlt => absurd hlt (Int.lt_irrefl 0)⟩
      · rw [Roster.remove, Roster.emit, hlog]
        simp [Roster.emit]
      · exact hall id n ret (by simpa using hm)
    · rw [if_neg hrem] at h
      obtain ⟨rfl, rfl⟩ := h
      exact ⟨[], by simp, fun _ => by simp, fun hlt => absurd hlt (Int.lt_irrefl 0)⟩

/-! ## Whole refreshes -/

/-- An element that is not in the front part of a list is in the back part. -/
theorem split_behind {α : Type} {a b front back : List α} {x : α}
    (h : a ++ b = front ++ x :: back) (hx : x ∉ a) : ∃ front', b = front' ++ x :: back := by
  rcases List.append_eq_append_iff.mp h with ⟨c, -, hc⟩ | ⟨c, hc, hb⟩
  · exact ⟨c, hc⟩
  · cases c with
    | nil => exact ⟨[], hb.symm⟩
    | cons y c =>
      rw [List.cons_append, List.cons.injEq] at hb
      refine absurd ?_ hx
      rw [hc, hb.1]
      simp

theorem refreshes_trace (h : Refreshes u m nomem queue R r rest R') :
    ∃ evs, R'.log = R.log ++ evs ∧ evs ≠ [] ∧
      (NoneSwallowed evs → ∀ front id n ret back, evs = front ++ .notify id n ret :: back →
        ret ≠ 0 → r = ret ∧ back = []) ∧
      ∀ front id n ret, evs = front ++ [.notify id n ret] → r < 0 ∧ n.status = .online := by
  induction h with
  | drained =>
    refine ⟨[.receive false], rfl, by simp, fun _ front id n ret back he => ?_,
      fun front id n ret he => ?_⟩
    · have : Event.notify id n ret ∈ [Event.receive false] := by rw [he]; simp
      simp at this
    · have : Event.notify id n ret ∈ [Event.receive false] := by rw [he]; simp
      simp at this
  | @abort udevDev os queue R R' r hone hneg =>
    obtain ⟨evs, hlog, -, hcut⟩ := refreshesOne_trace hone
    refine ⟨.receive true :: evs, ?_, by simp, fun hns front id n ret back he hz => ?_,
      fun front id n ret he => ⟨hneg, ?_⟩⟩
    · rw [hlog, Roster.emit, List.append_assoc]
      rfl
    · rcases hcut hneg with hno | ⟨front', id', n', rfl, -, hnone⟩
      · have hm : Event.notify id n ret ∈ Event.receive true :: evs := by rw [he]; simp
        simp only [List.mem_cons, reduceCtorEq, false_or] at hm
        exact absurd hm (hno id n ret)
      -- the callback that ended the refresh is the first one with a non-zero result
      · have hnot : Event.notify id n ret ∉ Event.receive true :: front' := by
          intro hm
          have hm' : Event.notify id n ret ∈ front' := by simpa using hm
          have hlt := (hns id n ret (by simp [hm']) hz).1
          exact absurd (hnone id n ret hm') (Int.not_le.mpr hlt)
        rw [← List.cons_append] at he
        obtain ⟨front'', he'⟩ := split_behind he hnot
        cases front'' with
        | nil =>
          simp only [List.nil_append, List.cons.injEq, Event.notify.injEq] at he'
          exact ⟨he'.1.2.2, he'.2.symm⟩
        | cons x front'' => simp at he'
    · rcases hcut hneg with hno | ⟨front', id', n', rfl, hon, -⟩
      · have hm : Event.notify id n ret ∈ Event.receive true :: evs := by rw [he]; simp
        simp only [List.mem_cons, reduceCtorEq, false_or] at hm
        exact absurd hm (hno id n ret)
      · rw [← List.cons_append] at he
        have hlast := List.append_inj_right' he rfl
        simp only [List.cons.injEq, Event.notify.injEq, and_true] at hlast
        rw [← hlast.2.1]
        exact hon
  | @next udevDev os queue rest R R₁ R' r₁ r hone hpos _ ih =>
    obtain ⟨evs₁, hlog₁, hnone, -⟩ := refreshesOne_trace hone
    obtain ⟨evs, hlog, hne, hrule, hlast⟩ := ih
    refine ⟨.receive true :: evs₁ ++ evs, ?_, by simp, fun hns front id n ret back he hz => ?_,
      fun front id n ret he => ?_⟩
    · rw [hlog, hlog₁, Roster.emit]
      simp
    · have hnot : Event.notify id n ret ∉ Event.receive true :: evs₁ := by
        intro hm
        have hm' : Event.notify id n ret ∈ evs₁ := by simpa using hm
        obtain ⟨hlt, hon⟩ := hns id n ret (by simp [hm']) hz
        rcases hnone hpos id n ret hm' with h | h
        · exact absurd h (Int.not_le.mpr hlt)
        · rw [hon] at h
          cases h
      obtain ⟨front', he'⟩ := split_behind he hnot
      exact hrule (fun id n ret hm => hns id n ret (by simp [hm])) front' id n ret back he' hz
    -- the last event belongs to what follows, which is not empty
    · obtain ⟨init, x, rfl⟩ : ∃ init x, evs = init ++ [x] :=
        ⟨evs.dropLast, evs.getLast hne, (List.dropLast_append_getLast hne).symm⟩
      rw [← List.append_assoc] at he
      have hx := List.append_inj_right' he rfl
      simp only [List.cons.injEq, and_true] at hx
      exact hlast init id n ret (by rw [hx])

/-- A refresh of any monitor with any events keeps the promise of the header if and only if every
non-zero result of a callback in it is negative and answers an arrival. -/
theorem refresh_abortRule_iff (react : List Event → Nat → Notice → Reaction)
    (before : List MonitorOp) (queue : List (UdevDevice × ReadOs)) (nomem : Bool) :
    ∃ r evs, refreshTrace (.careful react) before queue nomem = some (r, evs) ∧
      (AbortRule evs r ↔ NoneSwallowed evs) := by
  obtain ⟨w, R, e, hr, -, -⟩ :=
    monitorAfter_spec (u := .careful react) (Nat.le_refl uintMod) before
  obtain ⟨r, rest, w', R', e', hr', -, h⟩ :=
    monitorRefresh_spec (u := .careful react) (Nat.le_refl uintMod) hr queue nomem
  obtain ⟨evs, hlog, -, hrule, hlast⟩ := refreshes_trace h
  have hdrop : w'.log.drop w.log.length = evs := by
    rw [hr'.log, hr.log, hlog, List.drop_left]
  refine ⟨r, evs, ?_, fun habort => ?_, fun hns => ⟨hrule hns, fun hz id n ret hm => ?_⟩⟩
  · simp only [refreshTrace, e, e', hdrop, Option.bind_eq_bind, Option.bind_some]
  · intro id n ret hm hz
    obtain ⟨front, back, he⟩ := List.append_of_mem hm
    obtain ⟨rfl, rfl⟩ := habort.1 front id n ret back he hz
    exact hlast front id n r he
  · by_contra hne
    obtain ⟨front, back, he⟩ := List.append_of_mem hm
    exact hne ((hrule hns front id n ret back he hne).1 ▸ hz)

/-- What a callback of the first monitor is told about the adapter. -/
def serialNotice (st : HsDeviceStatus) : Notice := ⟨0, some serialAdapter.devpath, 0, st, some 0⟩

/-- A callback that returns 1 for an arrival, and one that returns -1 for a removal: both refreshes
go on and return 0. -/
theorem refresh_swallows_results :
    (∃ r evs, refreshTrace (.returning fun _ _ _ => 1) [.register 0 true] [(serialAdapter, .ok)]
      false = some (r, evs) ∧ ¬ AbortRule evs r) ∧
    ∃ r evs, refreshTrace (.returning fun _ _ n => if n.status = .disconnected then -1 else 0)
      [.register 0 true]
      [(serialAdapter, .ok), ({ serialAdapter with action := .lit "remove" }, .ok)] false =
        some (r, evs) ∧ ¬ AbortRule evs r := by
  refine ⟨⟨0, [.receive true, .inserted 0 serialAdapter.devpath,
    .notify 0 (serialNotice .online) 1, .receive false], by decide +kernel, fun h => ?_⟩,
    0, [.receive true, .inserted 0 serialAdapter.devpath, .notify 0 (serialNotice .online) 0,
    .receive true, .removal serialAdapter.devpath, .gone 0,
    .notify 0 (serialNotice .disconnected) (-1), .removed serialAdapter.devpath, .receive false],
    by decide +kernel, fun h => ?_⟩
  · have := (h.1 [.receive true, .inserted 0 serialAdapter.devpath] 0 (serialNotice .online) 1
      [.receive false] rfl (by decide)).1
    exact absurd this (by decide)
  · have := (h.1 [.receive true, .inserted 0 serialAdapter.devpath,
      .notify 0 (serialNotice .online) 0, .receive true, .removal serialAdapter.devpath, .gone 0]
      0 (serialNotice .disconnected) (-1) [.removed serialAdapter.devpath, .receive false] rfl
      (by decide)).1
    exact absurd this (by decide)

end Libhs
