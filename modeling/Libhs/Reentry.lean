import Libhs.Registry

/-!
# Callbacks that deregister callbacks

While it is notified, a callback may call `hs_monitor_deregister_callback`. During the
call `trigger_callbacks` holds two pointers: one to the record it called, which it uses
again when the result is positive, and one to the next record.

`dispatchReentrant` is what a dispatch should do: it calls the callbacks that are still
there. The source does that if and only if no callback with a result of 0 or more
deregisters the one behind it, and none with a positive result deregisters itself
(`Careful`).
-/

namespace Libhs
open Pointer

/-! ## The functions of `monitor.c` -/

/-- The ids that a callback passes to `hs_monitor_deregister_callback`, like `User.react`. -/
abbrev Drops := List Event → Nat → Notice → List Nat

def deregisterAll : World → List Nat → Option World
  | w, [] => some w
  | w, id :: ids => do
    let w ← hsMonitorDeregisterCallback w id
    deregisterAll w ids

/-- `(*callback->f)(dev, callback->udata)`, with the deregistrations. -/
def callReentrant (u : User) (drops : Drops) (d : Nat) (callback : Callback) (w : World) :
    Option (Int × World) := do
  let D ← w.devs.get d
  let ids := drops w.log callback.f (D.notice d)
  let (r, w) ← runUser u callback.f (.notify callback.id) w d
  let w ← deregisterAll w ids
  some (r, w)

/-- The loop body of `trigger_callbacks`, for any way to call a callback. -/
def triggerBodyWith (call : Callback → World → Option (Int × World)) (d : Nat) :
    CbRef → World → Option (Flow Int × World)
  | .head, _ => none
  | .record a, w => do
    let callback ← w.cbs.get a
    let (r, w) ← call callback w
    if r < 0 then some (.ret r, w)
    else if r ≠ 0 then do
      let w ← dropCallback w a
      let _ ← callbacksOf w d
      some (.next, w)
    else do
      let _ ← callbacksOf w d
      some (.next, w)

/-- `trigger_callbacks`, with callbacks that deregister callbacks. -/
def triggerReentrant (u : User) (drops : Drops) (w : World) (d : Nat) : Option (Int × World) := do
  let list ← callbacksOf w d
  let (e, w) ← hsListForeach World.links list (triggerBodyWith (callReentrant u drops d) d)
    w.listFuel w
  some (exitValue e, w)

/-- Callbacks that deregister nothing. -/
theorem triggerReentrant_nil (u : User) (w : World) (d : Nat) :
    triggerReentrant u (fun _ _ _ => []) w d = triggerCallbacks u w d := by
  have hbody : triggerBodyWith (callReentrant u (fun _ _ _ => []) d) d = triggerBody u d := by
    funext x w
    cases x with
    | head => rfl
    | record a =>
      have hcall : ∀ c : Callback, callReentrant u (fun _ _ _ => []) d c w =
          runUser u c.f (.notify c.id) w d := by
        intro c
        unfold callReentrant runUser
        cases w.devs.get d with
        | none => rfl
        | some D => simp only [deregisterAll, Option.bind_eq_bind, Option.bind_some,
            Option.bind_assoc]
      simp only [triggerBodyWith, triggerBody, hcall]
  rw [triggerReentrant, hbody, triggerCallbacks]

/-! ## What a dispatch should do -/

/-- A dispatch on its way: the callbacks behind it, the one that is called unless that is gone, and
those ahead. -/
structure Position where
  done : List Listener
  cur : Option Listener
  todo : List Listener
deriving DecidableEq

namespace Position

/-- The callbacks that are registered. -/
def listeners (p : Position) : List Listener := p.done ++ p.cur.toList ++ p.todo

/-- The first callback with the id goes. -/
def deregister (p : Position) (id : Nat) : Position :=
  if p.done.any fun c => c.id = id then { p with done := p.done.eraseP fun c => c.id = id }
  else if p.cur.any fun c => c.id = id then { p with cur := none }
  else { p with todo := p.todo.eraseP fun c => c.id = id }

def deregisterAll (p : Position) (ids : List Nat) : Position := ids.foldl deregister p

end Position

/-- The position behind the call of `c`. -/
def afterCall (drops : Drops) (n : Notice) (log : List Event) (done : List Listener) (c : Listener)
    (todo : List Listener) : Position :=
  Position.deregisterAll ⟨done, some c, todo⟩ (drops log c.f n)

/-- The callbacks behind the next call: `c` stays if it is still there and returned 0. -/
def Position.passed (p : Position) (ret : Int) : List Listener :=
  p.done ++ if ret = 0 then p.cur.toList else []

theorem deregister_todo (p : Position) (id : Nat) : (p.deregister id).todo.Sublist p.todo := by
  unfold Position.deregister
  split
  · exact List.Sublist.refl _
  · split
    · exact List.Sublist.refl _
    · exact List.eraseP_sublist

theorem deregisterAll_todo (ids : List Nat) (p : Position) :
    (p.deregisterAll ids).todo.Sublist p.todo := by
  induction ids generalizing p with
  | nil => exact List.Sublist.refl _
  | cons id ids ih => exact (ih (p.deregister id)).trans (deregister_todo p id)

theorem afterCall_todo (drops : Drops) (n : Notice) (log : List Event) (done : List Listener)
    (c : Listener) (todo : List Listener) :
    (afterCall drops n log done c todo).todo.Sublist todo := deregisterAll_todo _ _

/-- `trigger_callbacks` as it is meant: the value, the callbacks left, the log. -/
def dispatchReentrant (u : User) (drops : Drops) (n : Notice) (done : List Listener) :
    List Listener → List Event → Int × List Listener × List Event
  | [], log => (0, done, log)
  | c :: todo, log =>
    let ret := (u.react log c.f n).ret
    let p := afterCall drops n log done c todo
    let log := log ++ [.notify c.id n ret]
    if ret < 0 then (ret, p.listeners, log)
    else dispatchReentrant u drops n (p.passed ret) p.todo log
termination_by todo => todo.length
decreasing_by
  exact Nat.lt_succ_of_le (afterCall_todo ..).length_le

/-- No callback takes away a record that the loop still needs.

* `aborts`: the loop needs nothing behind a negative result.
* `goes`: the next record is still there, and so is the record of a callback that is to be dropped. -/
inductive Careful (u : User) (drops : Drops) (n : Notice) :
    List Listener → List Listener → List Event → Prop
  | done {done : List Listener} {log : List Event} : Careful u drops n done [] log
  | aborts {done todo : List Listener} {c : Listener} {log : List Event} :
      (u.react log c.f n).ret < 0 → Careful u drops n done (c :: todo) log
  | goes {done todo : List Listener} {c : Listener} {log : List Event} :
      0 ≤ (u.react log c.f n).ret →
      (afterCall drops n log done c todo).todo.head? = todo.head? →
      (0 < (u.react log c.f n).ret → (afterCall drops n log done c todo).cur = some c) →
      Careful u drops n ((afterCall drops n log done c todo).passed (u.react log c.f n).ret)
        (afterCall drops n log done c todo).todo (log ++ [.notify c.id n (u.react log c.f n).ret]) →
      Careful u drops n done (c :: todo) log

/-! ## Positions -/

variable {p : Position} {id : Nat} {c : Listener} {done todo : List Listener}

theorem deregister_listeners (p : Position) (id : Nat) :
    (p.deregister id).listeners = p.listeners.eraseP fun c => c.id = id := by
  obtain ⟨done, cur, todo⟩ := p
  by_cases hdone : done.any fun c => c.id = id
  · obtain ⟨x, hx, hid⟩ := List.any_eq_true.mp hdone
    have herase : (done ++ (cur.toList ++ todo)).eraseP (fun c => c.id = id) =
        done.eraseP (fun c => c.id = id) ++ (cur.toList ++ todo) :=
      List.eraseP_append_left (p := fun c => decide (c.id = id)) hid _ hx
    simp only [Position.deregister, hdone, ↓reduceIte, Position.listeners, List.append_assoc, herase]
  · have hskip : ∀ l, (done ++ l).eraseP (fun c => c.id = id) =
        done ++ l.eraseP fun c => c.id = id := fun l =>
      List.eraseP_append_right l fun x hx hid => hdone (List.any_eq_true.mpr ⟨x, hx, hid⟩)
    cases cur with
    | none => simp [Position.deregister, hdone, Position.listeners, hskip]
    | some x =>
      by_cases hid : x.id = id
      · simp [Position.deregister, hdone, Position.listeners, hskip, hid]
      · simp [Position.deregister, hdone, Position.listeners, hskip, hid]

/-- A position behind another one: callbacks went, none came. -/
structure Position.Within (q p : Position) : Prop where
  done : q.done.Sublist p.done
  cur : q.cur = p.cur ∨ q.cur = none
  todo : q.todo.Sublist p.todo

theorem deregister_within (p : Position) (id : Nat) : (p.deregister id).Within p := by
  refine ⟨?_, ?_, deregister_todo p id⟩
  · unfold Position.deregister
    split
    · exact List.eraseP_sublist
    · split <;> exact List.Sublist.refl _
  · unfold Position.deregister
    split
    · exact Or.inl rfl
    · split
      · exact Or.inr rfl
      · exact Or.inl rfl

theorem deregisterAll_within (ids : List Nat) (p : Position) :
    (p.deregisterAll ids).Within p := by
  induction ids generalizing p with
  | nil => exact ⟨List.Sublist.refl _, Or.inl rfl, List.Sublist.refl _⟩
  | cons id ids ih =>
    have hone := deregister_within p id
    have hrest := ih (p.deregister id)
    refine ⟨hrest.done.trans hone.done, ?_, hrest.todo.trans hone.todo⟩
    rcases hrest.cur with h | h
    · rcases hone.cur with h' | h'
      · exact Or.inl (h.trans h')
      · exact Or.inr (h.trans h')
    · exact Or.inr h

/-- A callback that went from its place went for good, as there is only one of it. -/
theorem Position.Within.gone (h : p.Within ⟨done, some c, todo⟩)
    (hn : (done ++ c :: todo).Nodup) :
    (p.cur ≠ some c → c ∉ p.listeners) ∧ ∀ x ∈ todo, x ∉ p.todo → x ∉ p.listeners := by
  obtain ⟨-, hn', hdisj⟩ := List.nodup_append.mp hn
  have hc : c ∉ todo := (List.nodup_cons.mp hn').1
  have hcur : ∀ x, p.cur = some x → x = c := by
    intro x hx
    rcases h.cur with hp | hp
    · exact Option.some.inj (hx.symm.trans hp)
    · exact absurd (hx.symm.trans hp) (Option.some_ne_none x)
  refine ⟨fun hne hm => ?_, fun x hx hnot hm => ?_⟩
  · rcases List.mem_append.mp hm with hm | hm
    · rcases List.mem_append.mp hm with hm | hm
      · exact hdisj c (h.done.subset hm) c List.mem_cons_self rfl
      · exact hne (Option.mem_toList.mp hm)
    · exact hc (h.todo.subset hm)
  · rcases List.mem_append.mp hm with hm | hm
    · rcases List.mem_append.mp hm with hm | hm
      · exact hdisj x (h.done.subset hm) x (List.mem_cons_of_mem c hx) rfl
      · exact hc (hcur x (Option.mem_toList.mp hm) ▸ hx)
    · exact hnot hm

/-- The first of the callbacks ahead is the same, or it went. -/
theorem head_or_gone {l : List Listener} (h : l.Sublist (c :: todo)) (hc : c ∉ todo) :
    l.head? = some c ∨ c ∉ l := by
  cases h with
  | cons _ h => exact Or.inr fun hm => hc (h.subset hm)
  | cons_cons _ h => exact Or.inl rfl

/-! ## Freed records -/

variable {u : User} {drops : Drops} {w w' : World} {R : Roster} {m a : Nat} {e : Entry}
  {log : List Event}

theorem dropCallback_frees (h : dropCallback w a = some w') :
    w'.links (.record a) = none ∧ ∀ x, w.links x = none → w'.links x = none := by
  obtain ⟨links, hlinks, h⟩ := Option.bind_eq_some_iff.mp h
  obtain ⟨cbs, -, h⟩ := Option.bind_eq_some_iff.mp h
  cases h
  refine ⟨Function.update_self .., fun x hx => ?_⟩
  have hkept : links x = none := by
    obtain ⟨k₁, -, hlinks⟩ := Option.bind_eq_some_iff.mp hlinks
    obtain ⟨l₁, h₁, hlinks⟩ := Option.bind_eq_some_iff.mp hlinks
    obtain ⟨k₂, -, hlinks⟩ := Option.bind_eq_some_iff.mp hlinks
    obtain ⟨l₂, h₂, hlinks⟩ := Option.bind_eq_some_iff.mp hlinks
    obtain ⟨l₃, h₃, h₄⟩ := Option.bind_eq_some_iff.mp hlinks
    exact storeNext_none h₄ (storePrev_none h₃ (storePrev_none h₂ (storeNext_none h₁ hx)))
  by_cases hxa : x = .record a
  · rw [hxa]
    exact Function.update_self ..
  · exact (Function.update_of_ne hxa ..).trans hkept

/-- A second removal of a record is a use of freed memory. -/
theorem dropCallback_freed (h : w.links (.record a) = none) : dropCallback w a = none := by
  simp only [dropCallback, hsListRemove, h, Option.bind_eq_bind, Option.bind_none]

theorem deregister_frees (hr : Rep w m R) (id : Nat) :
    ∃ w', hsMonitorDeregisterCallback w id = some w' ∧ Rep w' m (R.deregister id) ∧
      (∀ c ∈ R.listeners, c ∉ (R.deregister id).listeners → w'.links (.record c.addr) = none) ∧
      ∀ x, w.links x = none → w'.links x = none := by
  obtain ⟨w', e, hr', -⟩ := deregisterCallback_spec hr id
  obtain ⟨w₁, e₁, h⟩ := deregisterCallback_eq hr id
  obtain rfl : w₁ = w' := Option.some.inj (e₁.symm.trans e)
  refine ⟨w₁, e, hr', ?_⟩
  cases hfind : R.listeners.find? fun c => c.id = id with
  | none =>
    rw [hfind] at h
    obtain rfl : w₁ = w := h
    have hsame : (R.deregister id).listeners = R.listeners :=
      List.eraseP_of_forall_not fun x hx => by simpa using List.find?_eq_none.mp hfind x hx
    exact ⟨fun c hc hnot => absurd (hsame ▸ hc) hnot, fun x hx => hx⟩
  | some c =>
    rw [hfind] at h
    obtain ⟨hself, hkeep⟩ := dropCallback_frees h
    refine ⟨fun x hx hnot => ?_, hkeep⟩
    -- the only callback that went is the one that was found
    obtain ⟨hid, front, back, hls, hfront⟩ := List.find?_eq_some_iff_append.mp hfind
    have herase : (c :: back).eraseP (fun x => x.id = id) = back := List.eraseP_cons_of_pos hid
    have hleft : (R.deregister id).listeners = front ++ back := by
      rw [Roster.deregister, hls,
        List.eraseP_append_right _ (fun x hx => by simpa using hfront x hx), herase]
    rw [hleft] at hnot
    rw [hls] at hx
    have hxc : x = c := by
      simp only [List.mem_append, List.mem_cons] at hx hnot
      tauto
    rw [hxc]
    exact hself

theorem deregisterAll_frees (ids : List Nat) (p : Position)
    (hr : Rep w m { R with listeners := p.listeners, log := log }) :
    ∃ w', deregisterAll w ids = some w' ∧
      Rep w' m { R with listeners := (p.deregisterAll ids).listeners, log := log } ∧
      (∀ c ∈ p.listeners, c ∉ (p.deregisterAll ids).listeners →
        w'.links (.record c.addr) = none) ∧
      ∀ x, w.links x = none → w'.links x = none := by
  induction ids generalizing w p with
  | nil => exact ⟨w, rfl, hr, fun c hc hnot => absurd hc hnot, fun x hx => hx⟩
  | cons id ids ih =>
    obtain ⟨w₁, e₁, hr₁, hgone₁, hkeep₁⟩ := deregister_frees hr id
    have hls : ({ R with listeners := p.listeners, log := log } : Roster).deregister id =
        { R with listeners := (p.deregister id).listeners, log := log } := by
      rw [deregister_listeners]
      rfl
    rw [hls] at hr₁ hgone₁
    obtain ⟨w', e, hr', hgone, hkeep⟩ := ih (p.deregister id) hr₁
    refine ⟨w', ?_, hr', fun c hc hnot => ?_, fun x hx => hkeep x (hkeep₁ x hx)⟩
    · simp only [deregisterAll, e₁, Option.bind_eq_bind, Option.bind_some, e]
    · by_cases hmid : c ∈ (p.deregister id).listeners
      · exact hgone c hmid hnot
      · exact hkeep _ (hgone₁ c hc hmid)

/-! ## One round -/

theorem Rep.listeners_nodup (hr : Rep w m R) : R.listeners.Nodup := hr.ring.fwd.nodup.of_map

section Round

variable {n : Notice} {ret : Int} {p : Position} (hu : u.limit ≤ uintMod) (he : e ∈ R.entries)
  (hr : Rep w m { R with listeners := done ++ c :: todo, log := log })
  (hn : n = e.notice m (R.status e.dev)) (hret : ret = (u.react log c.f n).ret)
  (hp : p = afterCall drops n log done c todo)

include hu he hr hn hret hp

/-- The call of `c`, which leaves the callbacks of `afterCall`; the others are freed. -/
theorem callReentrant_spec :
    ∃ w', callReentrant u drops e.dev ⟨c.id, c.f⟩ w = some (ret, w') ∧
      Rep w' m { R with listeners := p.listeners, log := log ++ [.notify c.id n ret] } ∧
      (p.cur ≠ some c → w'.links (.record c.addr) = none) ∧
      ∀ x ∈ todo, x ∉ p.todo → w'.links (.record x.addr) = none := by
  obtain ⟨D, hD, -, hnotice⟩ := hr.notice (e := e) he
  obtain ⟨w₁, e₁, hr₁, -⟩ := runUser_spec (e := e) c.f (notify_calls c.id) hu hr he
  have hlog : w.log = log := hr.log
  have hnotice : D.notice e.dev = n := hnotice.trans hn.symm
  have e₁ : runUser u c.f (.notify c.id) w e.dev = some (ret, w₁) := by
    rw [hret, hn]
    exact e₁
  have hr₁ : Rep w₁ m { R with
      listeners := Position.listeners ⟨done, some c, todo⟩
      log := log ++ [.notify c.id n ret] } := by
    have hls : Position.listeners ⟨done, some c, todo⟩ = done ++ c :: todo := by
      simp [Position.listeners]
    rw [hls, hret, hn]
    exact hr₁
  obtain ⟨w', e', hr', hgone, -⟩ := deregisterAll_frees (drops log c.f n) _ hr₁
  have hlost := (deregisterAll_within (drops log c.f n) ⟨done, some c, todo⟩).gone
    hr.listeners_nodup
  subst hp
  refine ⟨w', ?_, hr', fun hne => ?_, fun x hx hnot => ?_⟩
  · simp only [callReentrant, hD, hlog, hnotice, e₁, e', Option.bind_eq_bind, Option.bind_some]
  · exact hgone c (by simp [Position.listeners]) (hlost.1 hne)
  · exact hgone x (by simp [Position.listeners, hx]) (hlost.2 x hx hnot)

theorem reentrantBody_ret (hneg : ret < 0) :
    ∃ w', triggerBodyWith (callReentrant u drops e.dev) e.dev (.record c.addr) w =
        some (.ret ret, w') ∧
      Rep w' m { R with listeners := p.listeners, log := log ++ [.notify c.id n ret] } := by
  have hrec : w.cbs.get c.addr = some ⟨c.id, c.f⟩ := hr.records c (by simp)
  obtain ⟨w', e', hr', -⟩ := callReentrant_spec hu he hr hn hret hp
  refine ⟨w', ?_, hr'⟩
  simp only [triggerBodyWith, hrec, e', Option.bind_eq_bind, Option.bind_some, hneg, ↓reduceIte]

theorem reentrantBody_next (hneg : 0 ≤ ret) (hcur : 0 < ret → p.cur = some c) :
    ∃ w', triggerBodyWith (callReentrant u drops e.dev) e.dev (.record c.addr) w =
        some (.next, w') ∧
      Rep w' m { R with
        listeners := p.passed ret ++ p.todo
        log := log ++ [.notify c.id n ret] } ∧
      ∀ x ∈ todo, x ∉ p.todo → w'.links (.record x.addr) = none := by
  have hrec : w.cbs.get c.addr = some ⟨c.id, c.f⟩ := hr.records c (by simp)
  obtain ⟨w₁, e₁, hr₁, -, hgone⟩ := callReentrant_spec hu he hr hn hret hp
  have hpos : ¬ ret < 0 := Int.not_lt.mpr hneg
  by_cases hz : ret = 0
  · have hls : p.listeners = p.passed ret ++ p.todo := by
      simp only [Position.listeners, Position.passed, hz, ↓reduceIte]
    rw [hls] at hr₁
    have hlist := callbacksOf_spec (e := e) hr₁ he
    refine ⟨w₁, ?_, hr₁, hgone⟩
    simp only [triggerBodyWith, hrec, e₁, Option.bind_eq_bind, Option.bind_some, ↓reduceIte,
      ne_eq, hz, not_true_eq_false, hlist, Int.lt_irrefl]
  · have hc : p.cur = some c := hcur (by omega)
    have hls : p.listeners = p.done ++ c :: p.todo := by
      simp [Position.listeners, hc]
    rw [hls] at hr₁
    obtain ⟨w₂, e₂, hr₂, -⟩ :=
      dropCallback_spec (R := { R with log := log ++ [.notify c.id n ret] }) hr₁
    have hlist := callbacksOf_spec (e := e) hr₂ he
    refine ⟨w₂, ?_, ?_, fun x hx hnot => (dropCallback_frees e₂).2 _ (hgone x hx hnot)⟩
    · simp only [triggerBodyWith, hrec, e₁, Option.bind_eq_bind, Option.bind_some, hpos,
        ↓reduceIte, ne_eq, hz, not_false_eq_true, e₂, hlist]
    · simpa only [Position.passed, hz, ↓reduceIte, List.append_nil] using hr₂

/-- The record of the callback is gone, and `trigger_callbacks` unlinks it again. -/
theorem reentrantBody_stuck (hpos : 0 < ret) (hcur : p.cur ≠ some c) :
    triggerBodyWith (callReentrant u drops e.dev) e.dev (.record c.addr) w = none := by
  have hrec : w.cbs.get c.addr = some ⟨c.id, c.f⟩ := hr.records c (by simp)
  obtain ⟨w₁, e₁, -, hself, -⟩ := callReentrant_spec hu he hr hn hret hp
  simp only [triggerBodyWith, hrec, e₁, Option.bind_eq_bind, Option.bind_some,
    Int.not_lt.mpr (Int.le_of_lt hpos), ↓reduceIte, ne_eq, (Int.ne_of_lt hpos).symm,
    not_false_eq_true, dropCallback_freed (hself hcur), Option.bind_none]

end Round

/-! ## The whole loop -/

/-- Where the next load of the loop leads. -/
theorem nextOf_todo (hr : Rep w m { R with listeners := done ++ todo, log := log }) :
    ∃ v, nextOf w.links (firstOr .head (todo.map fun c => .record c.addr)) = some v ∧
      ∀ c rest, todo = c :: rest → v = some (firstOr .head (rest.map fun c => .record c.addr)) := by
  have hring := hr.ring
  rw [List.map_append] at hring
  have hrest : Rest nextOf CbRef.head (todo.map fun c => .record c.addr) w.links := hring.fwd.rest
  obtain ⟨v, hv, hnext⟩ := hrest.load
  refine ⟨v, hv, ?_⟩
  rintro c rest rfl
  exact hnext _ _ rfl

theorem firstOr_head {l l' : List Listener} (h : l.head? = l'.head?) :
    firstOr CbRef.head (l.map fun c => .record c.addr) =
      firstOr CbRef.head (l'.map fun c => .record c.addr) := by
  cases l <;> cases l' <;> simp_all

/-- If no callback takes away a record that is needed, the loop does what it should. -/
theorem walk_careful (hu : u.limit ≤ uintMod) (he : e ∈ R.entries) {n : Notice}
    (hn : n = e.notice m (R.status e.dev)) (h : Careful u drops n done todo log)
    (hr : Rep w m { R with listeners := done ++ todo, log := log }) {fuel : Nat}
    {nxt : Option CbRef} (hfuel : todo.length < fuel) (hnxt : ∀ c rest, todo = c :: rest →
      nxt = some (firstOr .head (rest.map fun c => .record c.addr))) :
    ∃ ex w', walk (fun w => nextOf w.links) CbRef.head
        (triggerBodyWith (callReentrant u drops e.dev) e.dev) fuel
        (some (firstOr .head (todo.map fun c => .record c.addr))) nxt w = some (ex, w') ∧
      exitValue ex = (dispatchReentrant u drops n done todo log).1 ∧
      Rep w' m { R with
        listeners := (dispatchReentrant u drops n done todo log).2.1
        log := (dispatchReentrant u drops n done todo log).2.2 } := by
  induction h generalizing w fuel nxt with
  | done =>
    obtain ⟨fuel, rfl⟩ := Nat.exists_eq_add_of_lt hfuel
    refine ⟨.fell, w, by simp [walk], by simp [dispatchReentrant, exitValue], ?_⟩
    simpa only [dispatchReentrant, List.append_nil] using hr
  | @aborts done todo c log hneg =>
    obtain ⟨fuel, rfl⟩ := Nat.exists_eq_add_of_lt hfuel
    obtain ⟨w', e', hr'⟩ := reentrantBody_ret hu he hr hn rfl rfl hneg
    have hspec : dispatchReentrant u drops n done (c :: todo) log =
        ((u.react log c.f n).ret, (afterCall drops n log done c todo).listeners,
          log ++ [.notify c.id n (u.react log c.f n).ret]) := by
      rw [dispatchReentrant, if_pos hneg]
    rw [hspec]
    exact ⟨.ret _, w', by simp [walk, e'], rfl, hr'⟩
  | @goes done todo c log hneg hhead hcur hrest ih =>
    obtain ⟨fuel, rfl⟩ := Nat.exists_eq_add_of_lt hfuel
    obtain ⟨w₁, e₁, hr₁, -⟩ := reentrantBody_next hu he hr hn rfl rfl hneg hcur
    obtain ⟨v, hv, hnext⟩ := nextOf_todo hr₁
    have hlen := (afterCall_todo drops n log done c todo).length_le
    have hfuel' : (afterCall drops n log done c todo).todo.length < (c :: todo).length + fuel :=
      Nat.lt_of_le_of_lt hlen (by rw [List.length_cons]; omega)
    obtain ⟨ex, w', hw, hexit, hr'⟩ := ih hr₁ hfuel' hnext
    have hspec : dispatchReentrant u drops n done (c :: todo) log =
        dispatchReentrant u drops n
          ((afterCall drops n log done c todo).passed (u.react log c.f n).ret)
          (afterCall drops n log done c todo).todo
          (log ++ [.notify c.id n (u.react log c.f n).ret]) := by
      rw [dispatchReentrant, if_neg (Int.not_lt.mpr hneg)]
    rw [hspec]
    refine ⟨ex, w', ?_, hexit, hr'⟩
    -- the next record is still the one that was cached
    rw [firstOr_head hhead] at hv hw
    rw [hnxt c todo rfl]
    simpa [walk, e₁, hv] using hw

/-- If the loop gets through, no callback took away a record that it needed. -/
theorem careful_of_walk (hu : u.limit ≤ uintMod) (he : e ∈ R.entries) {n : Notice}
    (hn : n = e.notice m (R.status e.dev)) {fuel : Nat} {nxt : Option CbRef}
    {out : Exit CbRef Int × World}
    (hr : Rep w m { R with listeners := done ++ todo, log := log })
    (hnxt : ∀ c rest, todo = c :: rest →
      nxt = some (firstOr .head (rest.map fun c => .record c.addr)))
    (hw : walk (fun w => nextOf w.links) CbRef.head
      (triggerBodyWith (callReentrant u drops e.dev) e.dev) fuel
      (some (firstOr .head (todo.map fun c => .record c.addr))) nxt w = some out) :
    Careful u drops n done todo log := by
  induction fuel generalizing done todo log w nxt with
  | zero => cases hw
  | succ fuel ih =>
    cases todo with
    | nil => exact .done
    | cons c todo =>
      rcases Int.lt_or_le (u.react log c.f n).ret 0 with hneg | hneg
      · exact .aborts hneg
      have hnd := hr.listeners_nodup
      have hc : c ∉ todo := (List.nodup_cons.mp (List.nodup_append.mp hnd).2.1).1
      rw [List.map_cons, firstOr, walk, if_neg (by simp), hnxt c todo rfl] at hw
      have hcur : 0 < (u.react log c.f n).ret →
          (afterCall drops n log done c todo).cur = some c := by
        intro hpos
        by_contra hne
        have hstuck := reentrantBody_stuck hu he hr hn rfl rfl hpos hne
        simp [hstuck] at hw
      obtain ⟨w₁, e₁, hr₁, hgone⟩ :=
        reentrantBody_next hu he hr hn rfl rfl hneg hcur
      simp only [Option.bind_eq_bind, Option.bind_some, e₁] at hw
      obtain ⟨v, hv, hw⟩ := Option.bind_eq_some_iff.mp hw
      have hhead : (afterCall drops n log done c todo).todo.head? = todo.head? := by
        cases todo with
        | nil => rw [List.sublist_nil.mp (afterCall_todo drops n log done c [])]
        | cons x todo =>
          have hx : x ∉ todo :=
            (List.nodup_cons.mp (List.nodup_cons.mp (List.nodup_append.mp hnd).2.1).2).1
          refine (head_or_gone (afterCall_todo drops n log done c (x :: todo)) hx).resolve_right
            fun hnot => ?_
          -- the loop loads the next record from freed memory
          have hfreed := hgone x List.mem_cons_self hnot
          simp [nextOf, hfreed] at hv
      obtain ⟨v', hv', hnext⟩ := nextOf_todo hr₁
      rw [firstOr_head hhead] at hv'
      obtain rfl : v = v' := Option.some.inj (hv.symm.trans hv')
      refine .goes hneg hhead hcur (ih hr₁ hnext ?_)
      rw [firstOr_head hhead]
      exact hw

/-- A dispatch does what it should if and only if the callbacks are careful. -/
theorem triggerReentrant_iff (hu : u.limit ≤ uintMod) (drops : Drops) (hr : Rep w m R)
    (he : e ∈ R.entries) {n : Notice} (hn : n = e.notice m (R.status e.dev)) :
    (Careful u drops n [] R.listeners R.log →
      ∃ w', triggerReentrant u drops w e.dev =
          some ((dispatchReentrant u drops n [] R.listeners R.log).1, w') ∧
        Rep w' m { R with
          listeners := (dispatchReentrant u drops n [] R.listeners R.log).2.1
          log := (dispatchReentrant u drops n [] R.listeners R.log).2.2 }) ∧
    ((triggerReentrant u drops w e.dev).isSome → Careful u drops n [] R.listeners R.log) := by
  have hr₀ : Rep w m { R with listeners := [] ++ R.listeners, log := R.log } := hr
  obtain ⟨v, hv, hnext⟩ := nextOf_todo hr₀
  have hhead := hr.ring.head
  have hloop : triggerReentrant u drops w e.dev = (do
      let (ex, w) ← walk (fun w => nextOf w.links) CbRef.head
        (triggerBodyWith (callReentrant u drops e.dev) e.dev) w.listFuel
        (some (firstOr .head (R.listeners.map fun c => .record c.addr))) v w
      some (exitValue ex, w)) := by
    simp only [triggerReentrant, callbacksOf_spec hr he, hsListForeach, foreach, hhead,
      nextOf_some hhead, hv, Option.bind_eq_bind, Option.bind_some]
  rw [hloop]
  refine ⟨fun h => ?_, fun h => ?_⟩
  · obtain ⟨ex, w', hw, hexit, hr'⟩ := walk_careful hu he hn h hr₀
      (Nat.lt_succ_of_le hr.listeners_length) hnext
    refine ⟨w', ?_, hr'⟩
    simp only [World.listFuel, hw, Option.bind_eq_bind, Option.bind_some, hexit]
  · obtain ⟨out, hout⟩ := Option.isSome_iff_exists.mp h
    obtain ⟨res, hres, -⟩ := Option.bind_eq_some_iff.mp hout
    exact careful_of_walk hu he hn hr₀ hnext hres

/-! ## What is left -/

/-- The ids that were deregistered during the calls. -/
def droppedIds (drops : Drops) (n : Notice) : List Event → List (Listener × Int) → List Nat
  | _, [] => []
  | log, call :: calls =>
    drops log call.1.f n ++ droppedIds drops n (log ++ [notified n call]) calls

/-- A dispatch over the callbacks `todo`, with those of `done` registered too, makes the calls `calls`,
returns `r` and leaves `ls`.

* `live`: no callback is called after it was deregistered.
* `left`: the callbacks that were neither deregistered nor dropped for a positive result.
* `missed`: a callback is not called if it was deregistered before, or behind a negative result. -/
structure Survived (u : User) (drops : Drops) (n : Notice) (log : List Event)
    (done todo : List Listener) (calls : List (Listener × Int)) (r : Int) (ls : List Listener) :
    Prop where
  answered : Answered u n log calls
  order : (calls.map Prod.fst).Sublist todo
  live : ∀ front call back, calls = front ++ call :: back →
    call.1.id ∉ droppedIds drops n log front
  left : ls = (done ++ todo).filter fun c =>
    c.id ∉ droppedIds drops n log calls ∧ ∀ call ∈ calls, call.1 = c → call.2 ≤ 0
  missed : ∀ c ∈ todo, c ∉ calls.map Prod.fst →
    c.id ∈ droppedIds drops n log calls ∨ ∃ call ∈ calls, call.2 < 0
  result : r = 0 ∧ (∀ call ∈ calls, 0 ≤ call.2) ∨
    ∃ front last, calls = front ++ [last] ∧ (∀ call ∈ front, 0 ≤ call.2) ∧ last.2 < 0 ∧ r = last.2

theorem deregisterAll_listeners (ids : List Nat) (p : Position)
    (hn : (p.listeners.map Listener.id).Nodup) :
    (p.deregisterAll ids).listeners = p.listeners.filter fun c => c.id ∉ ids := by
  induction ids generalizing p with
  | nil => simp [Position.deregisterAll]
  | cons id ids ih =>
    have hone : (p.deregister id).listeners = p.listeners.filter fun c => c.id ≠ id := by
      rw [deregister_listeners, eraseP_id hn]
    have hn' : ((p.deregister id).listeners.map Listener.id).Nodup := by
      rw [hone]
      exact hn.sublist (List.filter_sublist.map _)
    have hrest := ih (p.deregister id) hn'
    rw [hone, List.filter_filter] at hrest
    refine hrest.trans (List.filter_congr fun x _ => ?_)
    by_cases hid : x.id = id <;> simp [hid]

section Calls

variable {n : Notice} {ret : Int}

theorem afterCall_listeners (drops : Drops) (n : Notice) (log : List Event)
    (hn : ((done ++ c :: todo).map Listener.id).Nodup) :
    (afterCall drops n log done c todo).listeners =
      (done ++ c :: todo).filter fun x => x.id ∉ drops log c.f n := by
  have hls : Position.listeners ⟨done, some c, todo⟩ = done ++ c :: todo := by
    simp [Position.listeners]
  have hall := deregisterAll_listeners (drops log c.f n) ⟨done, some c, todo⟩ (by rwa [hls])
  rwa [hls] at hall

/-- The callbacks behind a call whose result is not negative. -/
theorem passed_listeners (hn : ((done ++ c :: todo).map Listener.id).Nodup) (hret : 0 ≤ ret) :
    (afterCall drops n log done c todo).passed ret ++ (afterCall drops n log done c todo).todo =
      (done ++ c :: todo).filter fun x => x.id ∉ drops log c.f n ∧ (x = c → ret ≤ 0) := by
  have hall := afterCall_listeners drops n log hn
  by_cases hz : ret = 0
  · have hpassed : (afterCall drops n log done c todo).passed ret ++
        (afterCall drops n log done c todo).todo =
        (afterCall drops n log done c todo).listeners := by
      simp only [Position.passed, Position.listeners, hz, ↓reduceIte]
    rw [hpassed, hall]
    simp [hz]
  · -- the callback itself goes, if it is still there
    have hwithin : (afterCall drops n log done c todo).Within ⟨done, some c, todo⟩ :=
      deregisterAll_within _ _
    obtain ⟨-, hn', hdisj⟩ := List.nodup_append.mp hn.of_map
    have hdone : ∀ x ∈ (afterCall drops n log done c todo).done, x ≠ c := fun x hx =>
      hdisj x (hwithin.done.subset hx) c List.mem_cons_self
    have htodo : ∀ x ∈ (afterCall drops n log done c todo).todo, x ≠ c := by
      rintro x hx rfl
      exact (List.nodup_cons.mp hn').1 (hwithin.todo.subset hx)
    have hcur : (afterCall drops n log done c todo).cur.toList.filter (fun x => x ≠ c) = [] := by
      rcases hwithin.cur with h | h <;> simp [h]
    have hdrop : (afterCall drops n log done c todo).passed ret ++
        (afterCall drops n log done c todo).todo =
        (afterCall drops n log done c todo).listeners.filter fun x => x ≠ c := by
      rw [Position.listeners, List.filter_append, List.filter_append, hcur,
        List.filter_eq_self.mpr fun x hx => decide_eq_true (hdone x hx),
        List.filter_eq_self.mpr fun x hx => decide_eq_true (htodo x hx)]
      simp only [Position.passed, hz, ↓reduceIte]
    rw [hdrop, hall, List.filter_filter]
    refine List.filter_congr fun x _ => ?_
    have hpos : ¬ ret ≤ 0 := by omega
    by_cases hx : x = c <;> simp [hx, hpos]

/-- A callback that is not ahead any more was deregistered. -/
theorem dropped_of_gone (hn : ((done ++ c :: todo).map Listener.id).Nodup) {x : Listener}
    (hx : x ∈ todo) (hnot : x ∉ (afterCall drops n log done c todo).todo) :
    x.id ∈ drops log c.f n := by
  have hwithin : (afterCall drops n log done c todo).Within ⟨done, some c, todo⟩ :=
    deregisterAll_within _ _
  have hgone := (hwithin.gone hn.of_map).2 x hx hnot
  rw [afterCall_listeners drops n log hn, List.mem_filter] at hgone
  by_contra hid
  exact hgone ⟨by simp [hx], decide_eq_true hid⟩

/-- What a dispatch should do leaves what it should leave. -/
theorem dispatchReentrant_survived (u : User) (drops : Drops) (n : Notice)
    (done todo : List Listener) (log : List Event)
    (hn : ((done ++ todo).map Listener.id).Nodup) :
    ∃ calls, (dispatchReentrant u drops n done todo log).2.2 = log ++ calls.map (notified n) ∧
      Survived u drops n log done todo calls (dispatchReentrant u drops n done todo log).1
        (dispatchReentrant u drops n done todo log).2.1 := by
  fun_induction dispatchReentrant u drops n done todo log with
  | case1 done log =>
    refine ⟨[], by simp, fun front call back h => by simp at h, List.Sublist.refl _,
      fun front call back h => by simp at h, ?_, fun c hc => absurd hc List.not_mem_nil,
      Or.inl ⟨rfl, fun call hc => absurd hc List.not_mem_nil⟩⟩
    simp [droppedIds]
  | case2 done c todo log ret p log' hneg =>
    refine ⟨[(c, ret)], rfl, answered_cons fun front call back h => by simp at h,
      List.singleton_sublist.mpr List.mem_cons_self, fun front call back h => ?_, ?_,
      fun x _ _ => Or.inr ⟨(c, ret), List.mem_singleton_self _, hneg⟩,
      Or.inr ⟨[], (c, ret), rfl, fun call hc => absurd hc List.not_mem_nil, hneg, rfl⟩⟩
    · obtain ⟨rfl, -⟩ := List.singleton_eq_append_iff.mp h |>.resolve_right (by simp)
      simp [droppedIds]
    · show p.listeners = _
      rw [show p.listeners = _ from afterCall_listeners drops n log hn]
      refine List.filter_congr fun x _ => ?_
      simp [droppedIds, Int.le_of_lt hneg]
  | case3 done c todo log ret p log' hneg ih =>
    have hret : 0 ≤ ret := Int.not_lt.mp hneg
    have hpassed : p.passed ret ++ p.todo = _ := passed_listeners hn hret
    have hids : ((p.passed ret ++ p.todo).map Listener.id).Nodup := by
      rw [hpassed]
      exact hn.sublist (List.filter_sublist.map _)
    have htodo : p.todo.Sublist todo := afterCall_todo drops n log done c todo
    obtain ⟨calls, hlog, h⟩ := ih hids
    refine ⟨(c, ret) :: calls, ?_, answered_cons h.answered, ?_, fun front call back hsplit => ?_,
      ?_, fun x hx hnot => ?_, ?_⟩
    · rw [hlog, List.append_assoc]
      rfl
    · exact (h.order.trans htodo).cons_cons c
    · cases front with
      | nil => simp [droppedIds]
      | cons first front =>
        obtain ⟨rfl, hback⟩ := List.cons.inj hsplit
        have hcall : call.1 ∈ p.passed ret ++ p.todo := by
          refine List.mem_append_right _ (h.order.subset ?_)
          rw [hback]
          simp
        rw [hpassed, List.mem_filter] at hcall
        rw [droppedIds, List.mem_append, not_or]
        exact ⟨(of_decide_eq_true hcall.2).1, h.live front call back hback⟩
    · rw [h.left, hpassed, List.filter_filter]
      refine List.filter_congr fun x _ => ?_
      simp only [droppedIds, List.mem_append, List.mem_cons, forall_eq_or_imp, notified]
      grind
    · rw [List.map_cons, List.mem_cons, not_or] at hnot
      have hx : x ∈ todo := (List.mem_cons.mp hx).resolve_left hnot.1
      rw [droppedIds, List.mem_append]
      by_cases hp : x ∈ p.todo
      · rcases h.missed x hp hnot.2 with hid | ⟨call, hcall, hlt⟩
        · exact Or.inl (Or.inr hid)
        · exact Or.inr ⟨call, List.mem_cons_of_mem _ hcall, hlt⟩
      · exact Or.inl (Or.inl (dropped_of_gone hn hx hp))
    · rcases h.result with ⟨hr, hall⟩ | ⟨front, last, rfl, hfront, hlast, hr⟩
      · exact Or.inl ⟨hr, List.forall_mem_cons.mpr ⟨hret, hall⟩⟩
      · exact Or.inr ⟨(c, ret) :: front, last, rfl, List.forall_mem_cons.mpr ⟨hret, hfront⟩, hlast, hr⟩

end Calls

/-- Callbacks that deregister nothing are careful. -/
theorem careful_of_none (u : User) (n : Notice) (done todo : List Listener) (log : List Event) :
    Careful u (fun _ _ _ => []) n done todo log := by
  induction todo generalizing done log with
  | nil => exact .done
  | cons c todo ih =>
    rcases Int.lt_or_le (u.react log c.f n).ret 0 with hneg | hneg
    · exact .aborts hneg
    · exact .goes hneg rfl (fun _ => rfl) (ih _ _)

/-- A dispatch over any registered callbacks, which may deregister each other, touches no freed record
and leaves the callbacks that it should, if and only if no callback with a result of 0 or more
deregisters the next one, and none with a positive result deregisters itself. -/
theorem reentry_survives_iff (react : List Event → Nat → Notice → Reaction)
    (setup : List MonitorOp) {w : World} {d : Nat}
    (hsetup : monitorAfter (.careful react) setup = some w) (hd : InTable w.table d)
    (react' : List Event → Nat → Notice → Reaction) (drops : Drops) :
    ∃ D ls, w.devs.get d = some D ∧ Registered w ls ∧
      ((∃ r w' ls' calls, triggerReentrant (.careful react') drops w d = some (r, w') ∧
          w'.log = w.log ++ calls.map (notified (D.notice d)) ∧ Registered w' ls' ∧
          Survived (.careful react') drops (D.notice d) w.log [] ls calls r ls') ↔
        Careful (.careful react') drops (D.notice d) [] ls w.log) := by
  obtain ⟨w₁, R, e₁, hr, hok, -⟩ := monitorAfter_spec (u := .careful react) (Nat.le_refl uintMod)
    setup
  obtain rfl : w₁ = w := Option.some.inj (e₁.symm.trans hsetup)
  obtain ⟨e, he, rfl⟩ := List.mem_map.mp ((hr.linked d).mpr hd)
  obtain ⟨D, hD, -, hn⟩ := hr.notice he
  obtain ⟨hcode, hcareful⟩ := triggerReentrant_iff (u := .careful react') (Nat.le_refl uintMod)
    drops hr he hn
  rw [← hr.log] at hcode hcareful
  refine ⟨D, R.listeners, hD, hr.registered, fun ⟨_, _, _, _, hrun, _⟩ => ?_, fun h => ?_⟩
  · exact hcareful (by rw [hrun]; rfl)
  · obtain ⟨w', hrun, hr'⟩ := hcode h
    obtain ⟨calls, hlog, hsurvived⟩ := dispatchReentrant_survived (.careful react') drops
      (D.notice e.dev) [] R.listeners w₁.log hok.ids
    exact ⟨_, w', _, calls, hrun, hr'.log.trans hlog, hr'.registered, hsurvived⟩

/-- A serial device and two callbacks. -/
def plugAndWatch : List MonitorOp := plugSerial ++ [.register 0 true, .register 1 true]

theorem plugAndWatch_inTable (react : List Event → Nat → Notice → Reaction) {w : World}
    (h : monitorAfter (.careful react) plugAndWatch = some w) (hbrk : w.devs.brk = 1) :
    InTable w.table 0 := by
  obtain ⟨w₁, R, e, hr, -, hp⟩ := monitorAfter_spec (u := .careful react) (Nat.le_refl uintMod)
    plugAndWatch
  obtain rfl : w₁ = w := Option.some.inj (e.symm.trans h)
  have hmem : (CStr.lit "usb-1-2", (0 : UInt8)) ∈ R.pairs := by
    rw [hp]
    exact Set.mem_insert _ _
  obtain ⟨x, hx, -⟩ := List.mem_map.mp hmem
  obtain ⟨D, hD⟩ := hr.live (mem_devs hx)
  have hlt := Heap.lt_brk hD
  obtain h0 : x.dev = 0 := by omega
  exact h0 ▸ (hr.linked x.dev).mp (mem_devs hx)

theorem reentry_survives_two : ∃ w D ls r w' ls' calls,
    monitorAfter (.careful fun _ _ _ => ⟨[], 0⟩) plugAndWatch = some w ∧
      w.devs.get 0 = some D ∧ Registered w ls ∧
      triggerReentrant (.careful fun _ _ _ => ⟨[], 1⟩) (fun _ _ _ => []) w 0 = some (r, w') ∧
      Registered w' ls' ∧
      Survived (.careful fun _ _ _ => ⟨[], 1⟩) (fun _ _ _ => []) (D.notice 0) w.log [] ls calls r
        ls' := by
  obtain ⟨w, hsetup, hbrk⟩ := Option.map_eq_some_iff.mp (by decide +kernel :
    (monitorAfter (.careful fun _ _ _ => ⟨[], 0⟩) plugAndWatch).map (fun w => w.devs.brk) = some 1)
  obtain ⟨D, ls, hD, hls, hiff⟩ := reentry_survives_iff _ plugAndWatch hsetup
    (plugAndWatch_inTable _ hsetup hbrk) (fun _ _ _ => ⟨[], 1⟩) (fun _ _ _ => [])
  obtain ⟨r, w', ls', calls, hrun, -, hls', h⟩ := hiff.mpr (careful_of_none _ _ _ _ _)
  exact ⟨w, D, ls, r, w', ls', calls, hsetup, hD, hls, hrun, hls', h⟩

/-- The first of two callbacks deregisters the second one and returns 0: the loop goes on in the freed
record. -/
theorem reentry_uses_freed : ∃ w,
    monitorAfter (.careful fun _ _ _ => ⟨[], 0⟩) plugAndWatch = some w ∧ InTable w.table 0 ∧
      triggerReentrant (.careful fun _ _ _ => ⟨[], 0⟩) (fun _ f _ => if f = 0 then [1] else []) w 0 =
        none := by
  obtain ⟨w, hsetup, h⟩ := Option.map_eq_some_iff.mp (by decide +kernel :
    (monitorAfter (.careful fun _ _ _ => ⟨[], 0⟩) plugAndWatch).map (fun w => (w.devs.brk,
      (triggerReentrant (.careful fun _ _ _ => ⟨[], 0⟩) (fun _ f _ => if f = 0 then [1] else [])
        w 0).isNone)) = some (1, true))
  exact ⟨w, hsetup, plugAndWatch_inTable _ hsetup (congrArg Prod.fst h),
    Option.isNone_iff_eq_none.mp (congrArg Prod.snd h)⟩

end Libhs
