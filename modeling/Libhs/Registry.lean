import Libhs.TableRefinement

/-!
# The callback registry

Callbacks are registered, deregistered and dispatched in any order (`execRegistry`).
The list keeps the order of registration, every id is handed out once (`issued`), and
a dispatch calls the callbacks from the front up to the first one that returns a
negative value (`Dispatched`).

An id is an `int`; it does not run over in fewer than 2^31 registrations.
-/

namespace Libhs
open Pointer

/-! ## Calls on the registry -/

/-- One call on the registry; `dispatch d` is `trigger_callbacks` for the device `d`. -/
inductive RegistryOp
  | register (f : Nat) (callocOk : Bool)
  | deregister (id : Nat)
  | dispatch (d : Nat)

/-- The call and its result, which is 0 for `hs_monitor_deregister_callback`. -/
def RegistryOp.exec (u : User) (w : World) : RegistryOp → Option (Int × World)
  | .register f callocOk => hsMonitorRegisterCallback w f callocOk
  | .deregister id => do
    let w ← hsMonitorDeregisterCallback w id
    some (0, w)
  | .dispatch d => triggerCallbacks u w d

/-- A sequence of calls, and their results. -/
def execRegistry (u : User) : World → List RegistryOp → Option (List Int × World)
  | w, [] => some ([], w)
  | w, op :: ops => do
    let (r, w) ← op.exec u w
    let (rs, w) ← execRegistry u w ops
    some (r :: rs, w)

/-- The id that a call with the result `r` handed out. -/
def RegistryOp.issues (r : Int) : RegistryOp → Option Nat
  | .register _ _ => if 0 ≤ r then some r.toNat else none
  | _ => none

/-- The ids that a sequence of calls handed out, in order. -/
def issued (ops : List RegistryOp) (rs : List Int) : List Nat :=
  (ops.zip rs).filterMap fun call => call.1.issues call.2

/-! ## What the calls do -/

/-- The callback list of `w` spells `ls`, in order of registration. -/
structure Registered (w : World) (ls : List Listener) : Prop where
  ring : DRing w.links .head (ls.map fun c => .record c.addr)
  records : ∀ c ∈ ls, w.cbs.get c.addr = some ⟨c.id, c.f⟩

/-- The log entry of a callback that was called, with its result. -/
def notified (n : Notice) (call : Listener × Int) : Event := .notify call.1.id n call.2

/-- Each result is the one its callback gave when it was called. -/
def Answered (u : User) (n : Notice) (log : List Event) (calls : List (Listener × Int)) : Prop :=
  ∀ front call back, calls = front ++ call :: back →
    call.2 = (u.react (log ++ front.map (notified n)) call.1.f n).ret

/-- Of the callbacks `ls` those in front were called: all of them, and the result is 0, or up to the
first one with a negative result, which is passed on. Those with a positive result are dropped. -/
def Dispatched (ls : List Listener) (calls : List (Listener × Int)) (r : Int)
    (ls' : List Listener) : Prop :=
  ∃ rest, ls = calls.map Prod.fst ++ rest ∧
    ls' = (calls.filter fun call => call.2 ≤ 0).map Prod.fst ++ rest ∧
    (rest = [] ∧ r = 0 ∧ (∀ call ∈ calls, 0 ≤ call.2) ∨
      ∃ front last, calls = front ++ [last] ∧ (∀ call ∈ front, 0 ≤ call.2) ∧ last.2 < 0 ∧
        r = last.2)

/-- What a call does to the registry `ls`. -/
def RegistryOp.Does (u : User) (w : World) (ls : List Listener) (r : Int) (w' : World)
    (ls' : List Listener) : RegistryOp → Prop
  | .register f callocOk =>
    if callocOk then r = w.callbackId ∧ w'.callbackId = w.callbackId + 1 ∧
      ∃ a, ls' = ls ++ [⟨a, w.callbackId, f⟩]
    else r < 0 ∧ w' = w ∧ ls' = ls
  | .deregister id => w'.callbackId = w.callbackId ∧ ls' = ls.filter fun c => c.id ≠ id
  | .dispatch d => w'.callbackId = w.callbackId ∧ ∃ D calls, w.devs.get d = some D ∧
      w'.log = w.log ++ calls.map (notified (D.notice d)) ∧
      Answered u (D.notice d) w.log calls ∧ Dispatched ls calls r ls'

variable {u : User} {w w' : World} {R R' : Roster} {m : Nat} {n : Notice}

theorem Rep.registered (hr : Rep w m R) : Registered w R.listeners := ⟨hr.ring, hr.records⟩

theorem answered_cons {c : Listener} {log : List Event} {calls : List (Listener × Int)}
    (h : Answered u n (log ++ [.notify c.id n (u.react log c.f n).ret]) calls) :
    Answered u n log ((c, (u.react log c.f n).ret) :: calls) := by
  intro front call back hsplit
  cases front with
  | nil =>
    obtain ⟨rfl, -⟩ := List.cons.inj hsplit
    simp
  | cons first front =>
    obtain ⟨rfl, hback⟩ := List.cons.inj hsplit
    have hcall := h front call back hback
    rwa [List.append_assoc] at hcall

/-- `trigger_callbacks` on lists. -/
theorem dispatch_calls (ls : List Listener) (log : List Event) :
    ∃ calls, (dispatch u n ls log).2.2 = log ++ calls.map (notified n) ∧
      Answered u n log calls ∧
      Dispatched ls calls (dispatch u n ls log).1 (dispatch u n ls log).2.1 := by
  induction ls generalizing log with
  | nil =>
    exact ⟨[], by simp [dispatch], fun front call back h => by simp at h,
      [], rfl, rfl, Or.inl ⟨rfl, rfl, by simp⟩⟩
  | cons c ls ih =>
    set ret := (u.react log c.f n).ret with hret
    by_cases hneg : ret < 0
    · have hd : dispatch u n (c :: ls) log = (ret, c :: ls, log ++ [.notify c.id n ret]) := by
        rw [dispatch, if_pos hneg]
      refine ⟨[(c, ret)], by rw [hd]; rfl, ?_, ls, rfl, ?_, Or.inr ⟨[], (c, ret), rfl, by simp, hneg,
        by rw [hd]⟩⟩
      · exact answered_cons fun front call back h => by simp at h
      · rw [hd]
        simp [Int.le_of_lt hneg]
    · obtain ⟨calls, hlog, hans, rest, hls, hls', hend⟩ := ih (log ++ [.notify c.id n ret])
      have hd : dispatch u n (c :: ls) log =
          ((dispatch u n ls (log ++ [.notify c.id n ret])).1,
            if ret ≠ 0 then (dispatch u n ls (log ++ [.notify c.id n ret])).2.1
            else c :: (dispatch u n ls (log ++ [.notify c.id n ret])).2.1,
            (dispatch u n ls (log ++ [.notify c.id n ret])).2.2) := by
        rw [dispatch, if_neg hneg]
      refine ⟨(c, ret) :: calls, ?_, answered_cons hans, rest, ?_, ?_, ?_⟩
      · rw [hd]
        dsimp only
        rw [hlog, List.append_assoc]
        rfl
      · rw [List.map_cons, List.cons_append, ← hls]
      · rw [hd]
        dsimp only
        rw [hls']
        by_cases hz : ret = 0
        · simp [hz]
        · have hpos : ¬ ret ≤ 0 := by omega
          simp [hz, hpos]
      · rw [hd]
        rcases hend with ⟨hrest, hr, hall⟩ | ⟨front, last, rfl, hfront, hlast, hr⟩
        · refine Or.inl ⟨hrest, hr, fun call hc => ?_⟩
          rcases List.mem_cons.mp hc with rfl | hc
          · exact Int.not_lt.mp hneg
          · exact hall call hc
        · refine Or.inr ⟨(c, ret) :: front, last, rfl, fun call hc => ?_, hlast, hr⟩
          rcases List.mem_cons.mp hc with rfl | hc
          · exact Int.not_lt.mp hneg
          · exact hfront call hc

/-! ## Ids -/

/-- No two callbacks have the same id, and the next id is new. -/
structure Roster.Numbered (R : Roster) : Prop where
  ids : (R.listeners.map Listener.id).Nodup
  below : ∀ c ∈ R.listeners, c.id < R.nextId

theorem Roster.Ok.numbered (hok : R.Ok) : R.Numbered := ⟨hok.ids, hok.below⟩

theorem Roster.Numbered.sublist (hn : R.Numbered) (hl : R'.listeners.Sublist R.listeners)
    (hid : R'.nextId = R.nextId) : R'.Numbered :=
  ⟨hn.ids.sublist (hl.map _), fun c hc => hid ▸ hn.below c (hl.subset hc)⟩

theorem Roster.Numbered.register (hn : R.Numbered) (a f : Nat) : (R.register a f).Numbered where
  ids := by
    rw [Roster.register, List.map_append, List.nodup_append]
    refine ⟨hn.ids, List.nodup_singleton _, ?_⟩
    rintro i hi j hj rfl
    obtain ⟨c, hc, rfl⟩ := List.mem_map.mp hi
    exact absurd (List.mem_singleton.mp hj) (Nat.ne_of_lt (hn.below c hc))
  below c hc := by
    rcases List.mem_append.mp hc with hc | hc
    · exact Nat.lt_succ_of_lt (hn.below c hc)
    · rw [List.mem_singleton.mp hc]
      exact Nat.lt_succ_self _

/-- As ids are distinct, the first callback with an id is the only one. -/
theorem eraseP_id {ls : List Listener} (hn : (ls.map Listener.id).Nodup) (id : Nat) :
    (ls.eraseP fun c => c.id = id) = ls.filter fun c => c.id ≠ id := by
  induction ls with
  | nil => rfl
  | cons c ls ih =>
    obtain ⟨hc, hn⟩ := List.nodup_cons.mp hn
    by_cases hid : c.id = id
    · subst hid
      have hall : ls.filter (fun x => x.id ≠ c.id) = ls :=
        List.filter_eq_self.mpr fun x hx => by
          simpa using fun he : x.id = c.id => hc (he ▸ List.mem_map_of_mem hx)
      rw [List.eraseP_cons_of_pos (by simp), List.filter_cons_of_neg (by simp), hall]
    · rw [List.eraseP_cons_of_neg (by simpa using hid), List.filter_cons_of_pos (by simpa using hid),
        ih hn]

/-! ## Every sequence of calls -/

/-- The registry of a roster, and the ids that are left. -/
theorem registryOp_spec (hu : u.limit ≤ uintMod) (hr : Rep w m R) (hn : R.Numbered)
    (op : RegistryOp) (hop : ∀ d, op = .dispatch d → d ∈ R.devs) :
    ∃ r w' R', op.exec u w = some (r, w') ∧ Rep w' m R' ∧ R'.Numbered ∧ R'.devs = R.devs ∧
      op.Does u w R.listeners r w' R'.listeners ∧
      (op.issues r).toList = List.range' w.callbackId (w'.callbackId - w.callbackId) ∧
      w.callbackId ≤ w'.callbackId := by
  cases op with
  | register f callocOk =>
    obtain ⟨r, w', e, -, h⟩ := registerCallback_spec hr f callocOk
    cases callocOk with
    | false =>
      obtain ⟨hneg, rfl⟩ : r < 0 ∧ w' = w := h
      refine ⟨r, w', R, e, hr, hn, rfl, ⟨hneg, rfl, rfl⟩, ?_, Nat.le_refl _⟩
      simp [RegistryOp.issues, Int.not_le.mpr hneg]
    | true =>
      obtain ⟨rfl, a, hr'⟩ : r = R.nextId ∧ ∃ a, Rep w' m (R.register a f) := h
      have hid : w'.callbackId = w.callbackId + 1 := by
        rw [hr'.nextId, hr.nextId]
        rfl
      refine ⟨_, w', _, e, hr', hn.register a f, rfl, ⟨by rw [hr.nextId], hid, a, ?_⟩, ?_, by omega⟩
      · rw [hr.nextId]
        rfl
      · rw [hid, Nat.add_sub_cancel_left, hr.nextId]
        simp [RegistryOp.issues]
  | deregister id =>
    obtain ⟨w', e, hr', -⟩ := deregisterCallback_spec hr id
    have hid : w'.callbackId = w.callbackId := by
      rw [hr'.nextId, hr.nextId]
      rfl
    refine ⟨0, w', _, ?_, hr', hn.sublist List.eraseP_sublist rfl, rfl,
      ⟨hid, eraseP_id hn.ids id⟩, by simp [RegistryOp.issues, hid], by omega⟩
    simp only [RegistryOp.exec, e, Option.bind_eq_bind, Option.bind_some]
  | dispatch d =>
    obtain ⟨e, he, rfl⟩ := List.mem_map.mp (hop d rfl)
    obtain ⟨D, hD, -, hnotice⟩ := hr.notice he
    obtain ⟨w', -, hw, hr', -⟩ := triggerCallbacks_calls hu hr he
    have hid : w'.callbackId = w.callbackId := by
      rw [hr'.nextId, hr.nextId, trigger_nextId]
    obtain ⟨calls, hlog, hans, hdisp⟩ := dispatch_calls (u := u)
      (n := e.notice m (R.status e.dev)) R.listeners R.log
    refine ⟨_, w', _, hw, hr', hn.sublist (dispatch_sublist R.listeners R.log) (trigger_nextId R),
      rfl,
      ⟨hid, D, calls, hD, ?_, ?_, hdisp⟩, by simp [RegistryOp.issues, hid], by omega⟩
    · rw [hr'.log, hr.log, hnotice]
      exact hlog
    · rw [hr.log, hnotice]
      exact hans

theorem execRegistry_spec (hu : u.limit ≤ uintMod) (ops : List RegistryOp) (hr : Rep w m R)
    (hn : R.Numbered) (hops : ∀ d, .dispatch d ∈ ops → d ∈ R.devs) :
    ∃ rs w' R', execRegistry u w ops = some (rs, w') ∧ Rep w' m R' ∧ R'.Numbered ∧
      R'.devs = R.devs ∧
      issued ops rs = List.range' w.callbackId (w'.callbackId - w.callbackId) ∧
      w.callbackId ≤ w'.callbackId := by
  induction ops generalizing w R with
  | nil => exact ⟨[], w, R, rfl, hr, hn, rfl, by simp [issued], Nat.le_refl _⟩
  | cons op ops ih =>
    obtain ⟨r, w₁, R₁, e₁, hr₁, hn₁, hdevs₁, -, hissues, hle₁⟩ := registryOp_spec hu hr hn op
      fun d h => hops d (h ▸ List.mem_cons_self)
    obtain ⟨rs, w', R', e, hr', hn', hdevs, hissued, hle⟩ := ih hr₁ hn₁ fun d h => by
      rw [hdevs₁]
      exact hops d (List.mem_cons_of_mem _ h)
    refine ⟨r :: rs, w', R', ?_, hr', hn', hdevs.trans hdevs₁, ?_, hle₁.trans hle⟩
    · simp only [execRegistry, e₁, e, Option.bind_eq_bind, Option.bind_some]
    · have hcons : issued (op :: ops) (r :: rs) = (op.issues r).toList ++ issued ops rs := by
        cases h : op.issues r <;> simp [issued, h]
      have hstart : w₁.callbackId = w.callbackId + (w₁.callbackId - w.callbackId) := by omega
      rw [hcons, hissues, hissued]
      nth_rewrite 2 [hstart]
      rw [List.range'_append_1]
      congr 1
      omega

/-- After any calls on the registry of a monitor: the ids of the registered callbacks are distinct,
every id was handed out once, and the next call does what it should. -/
theorem registry_kept (react : List Event → Nat → Notice → Reaction) (setup : List MonitorOp)
    (ops : List RegistryOp) {w₀ : World} (hsetup : monitorAfter (.careful react) setup = some w₀)
    (hops : ∀ d, .dispatch d ∈ ops → InTable w₀.table d) :
    ∃ rs w ls, execRegistry (.careful react) w₀ ops = some (rs, w) ∧ Registered w ls ∧
      (ls.map Listener.id).Nodup ∧ (∀ c ∈ ls, c.id < w.callbackId) ∧
      issued ops rs = List.range' w₀.callbackId (w.callbackId - w₀.callbackId) ∧
      ∀ op : RegistryOp, (∀ d, op = .dispatch d → InTable w₀.table d) →
        ∃ r w' ls', op.exec (.careful react) w = some (r, w') ∧ Registered w' ls' ∧
          op.Does (.careful react) w ls r w' ls' := by
  have hu : (User.careful react).limit ≤ uintMod := Nat.le_refl uintMod
  obtain ⟨w₁, R₀, e₀, hr₀, hok, -⟩ := monitorAfter_spec hu setup
  obtain rfl : w₁ = w₀ := Option.some.inj (e₀.symm.trans hsetup)
  obtain ⟨rs, w, R, e, hr, hn, hdevs, hissued, -⟩ := execRegistry_spec hu ops hr₀ hok.numbered
    fun d h => (hr₀.linked d).mpr (hops d h)
  refine ⟨rs, w, R.listeners, e, hr.registered, hn.ids, fun c hc => hr.nextId ▸ hn.below c hc,
    hissued, fun op hop => ?_⟩
  obtain ⟨r, w', R', e', hr', -, -, hdoes, -⟩ := registryOp_spec hu hr hn op fun d h =>
    hdevs ▸ (hr₀.linked d).mpr (hop d h)
  exact ⟨r, w', R'.listeners, e', hr'.registered, hdoes⟩

/-- A serial device comes up. -/
def plugSerial : List MonitorOp := [.add (CStr.lit "usb-1-2") 0 .posix HsDevice.zero]

theorem plugSerial_inTable (react : List Event → Nat → Notice → Reaction) :
    ∃ w d, monitorAfter (.careful react) plugSerial = some w ∧ InTable w.table d := by
  obtain ⟨w, R, e, hr, -, hp⟩ := monitorAfter_spec (u := .careful react) (Nat.le_refl uintMod)
    plugSerial
  have hmem : (CStr.lit "usb-1-2", (0 : UInt8)) ∈ R.pairs := by
    rw [hp]
    exact Set.mem_insert _ _
  obtain ⟨x, hx, -⟩ := List.mem_map.mp hmem
  exact ⟨w, x.dev, e, (hr.linked x.dev).mp (mem_devs hx)⟩

/-- Two registrations and a dispatch. -/
theorem registry_kept_twice : ∃ w₀ d rs w ls,
    monitorAfter (.careful fun _ _ _ => ⟨[], 1⟩) plugSerial = some w₀ ∧ InTable w₀.table d ∧
      execRegistry (.careful fun _ _ _ => ⟨[], 1⟩) w₀
        [.register 0 true, .register 1 true, .dispatch d] = some (rs, w) ∧
      Registered w ls ∧ (ls.map Listener.id).Nodup := by
  obtain ⟨w₀, d, hsetup, hd⟩ := plugSerial_inTable fun _ _ _ => ⟨[], 1⟩
  obtain ⟨rs, w, ls, e, hreg, hids, -⟩ := registry_kept _ plugSerial
    [.register 0 true, .register 1 true, .dispatch d] hsetup fun d' h => by
      simp only [List.mem_cons, RegistryOp.dispatch.injEq, reduceCtorEq, List.not_mem_nil, or_false,
        false_or] at h
      exact h ▸ hd
  exact ⟨w₀, d, rs, w, ls, hsetup, hd, e, hreg, hids⟩

end Libhs
