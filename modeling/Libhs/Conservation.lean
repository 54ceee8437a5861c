import Libhs.AbortRule

/-!
# Reference counts over whole Linux runs

A run interleaves the calls of the Linux back-end with what the user does with
devices. Every step keeps the representation (`linuxOp_spec`), so at the end of
every run and at every callback the counter of a device is the number of
references to it, and without references there are no devices (`refs_conserved`).
The counters have 32 bits: a user who takes 2^32 references breaks the equation
(`refcount_wraps`).
-/

namespace Libhs
open Pointer

/-! ## Runs -/

/-- A call of the library on Linux, or something the user does with a device. -/
inductive LinuxOp
  | newMonitor (os : NewOs)
  | refresh (queue : List (UdevDevice × ReadOs)) (nomem : Bool)
  | freeMonitor
  | register (f : Nat) (callocOk : Bool)
  | deregister (id : Nat)
  | list (f : Nat)
  | enumerate (f : Nat) (os : EnumOs)
  | user (a : UserAct)

/-- Run `f` if there is a monitor to call it on. -/
def withMonitor (w : World) (f : World → Option World) : Option World :=
  if w.monitor.isSome then f w else some w

/-- One operation. A monitor is made when there is none, and used when there is one. -/
def LinuxOp.exec (u : User) (w : World) : LinuxOp → Option World
  | .newMonitor os =>
    if w.monitor.isNone then do
      let (_, w) ← hsMonitorNew u os w
      some w
    else some w
  | .refresh queue nomem => withMonitor w fun w => do
    let (_, w) ← hsMonitorRefresh u queue nomem w
    some w
  | .freeMonitor => hsMonitorFree w
  | .register f callocOk => withMonitor w fun w => do
    let (_, w) ← hsMonitorRegisterCallback w f callocOk
    some w
  | .deregister id => withMonitor w fun w => hsMonitorDeregisterCallback w id
  | .list f => withMonitor w fun w => do
    let (_, w) ← hsMonitorList u w f
    some w
  | .enumerate f os => do
    let (_, w) ← hsEnumerate (userEnumerate u f) os w
    some w
  | .user a => userAct u.limit w a

def runLinux (u : User) : World → List LinuxOp → Option World
  | w, [] => some w
  | w, op :: ops => do
    let w ← op.exec u w
    runLinux u w ops

/-! ## The invariant -/

variable {u : User} {w : World} {R R' : Roster} {mon : Option Nat} {m d : Nat} {D : HsDevice}

/-- An operation on a monitor, from what it does to the representation. -/
theorem withMonitor_spec {f : World → Option World} (hs : Settled w mon R)
    (hf : ∀ m, Rep w m R → ∃ w' R', f w = some w' ∧ Rep w' m R' ∧ R'.Ok ∧ w'.busy = w.busy ∧
      NoFinds R.log R'.log) :
    ∃ w' R', withMonitor w f = some w' ∧ Settled w' mon R' ∧ NoFinds R.log R'.log := by
  have hm := hs.bound.monitor
  cases mon with
  | none => exact ⟨w, R, by simp [withMonitor, hm], hs, .refl R.log⟩
  | some m =>
    obtain ⟨w', R', e, hr, hok, hb, hfinds⟩ := hf m hs.bound
    exact ⟨w', R', by simp [withMonitor, hm, e], ⟨hr, hok, hb.trans hs.busy⟩, hfinds⟩

/-- A plain enumeration gets to no device. -/
def LinuxOp.showsNone : LinuxOp → Prop
  | .enumerate _ os => os.findsNone
  | _ => True

/-- No operation fails, and each of them keeps the invariant. -/
theorem linuxOp_spec (hu : u.limit ≤ uintMod) (hs : Settled w mon R) (op : LinuxOp) :
    ∃ w' mon' R', op.exec u w = some w' ∧ Settled w' mon' R' ∧
      (op.showsNone → NoFinds R.log R'.log) := by
  cases op with
  | newMonitor os =>
    have hm := hs.bound.monitor
    cases mon with
    | some m => exact ⟨w, some m, R, by simp [LinuxOp.exec, hm], hs, fun _ => .refl R.log⟩
    | none =>
      obtain ⟨r, w', R', e, h, hfinds⟩ := monitorNew_spec hu hs os
      have he : LinuxOp.exec u w (.newMonitor os) = some w' := by
        simp [LinuxOp.exec, hm, e]
      -- a call that fails has freed what it made
      rcases h with ⟨-, hs', -⟩ | ⟨-, -, hs', -⟩
      · exact ⟨w', none, R', he, hs', fun _ => hfinds⟩
      · exact ⟨w', some w.monitors, R', he, hs', fun _ => hfinds⟩
  | refresh queue nomem =>
    obtain ⟨w', R', e, hs', hfinds⟩ := withMonitor_spec (f := fun w => do
        let (_, w) ← hsMonitorRefresh u queue nomem w
        some w) hs fun m hr => by
      obtain ⟨r, rest, w', R', e, hr', hb, h⟩ := monitorRefresh_spec hu hr queue nomem
      exact ⟨w', R', by simp [e], hr', (refreshes_pairs hs.ok h).1, hb, (refreshes_routine h).noFinds⟩
    exact ⟨w', mon, R', e, hs', fun _ => hfinds⟩
  | freeMonitor =>
    have hm := hs.bound.monitor
    cases mon with
    | none =>
      exact ⟨w, none, R, by simp [LinuxOp.exec, hsMonitorFree, hm], hs, fun _ => .refl R.log⟩
    | some m =>
      obtain ⟨w', e, hs'⟩ := monitorFree_spec hs
      exact ⟨w', none, R.release, e, hs', fun _ => released_noFinds R.log⟩
  | register f callocOk =>
    obtain ⟨w', R', e, hs', hfinds⟩ := withMonitor_spec (f := fun w => do
        let (_, w) ← hsMonitorRegisterCallback w f callocOk
        some w) hs fun m hr => by
      obtain ⟨r, w', e, hb, h⟩ := registerCallback_spec hr f callocOk
      cases callocOk with
      | false =>
        obtain ⟨-, rfl⟩ := h
        exact ⟨w', R, by simp [e], hr, hs.ok, hb, .refl R.log⟩
      | true =>
        obtain ⟨-, a, hr'⟩ := h
        exact ⟨w', R.register a f, by simp [e], hr', hs.ok.register a f, hb, .refl R.log⟩
    exact ⟨w', mon, R', e, hs', fun _ => hfinds⟩
  | deregister id =>
    obtain ⟨w', R', e, hs', hfinds⟩ := withMonitor_spec
      (f := fun w => hsMonitorDeregisterCallback w id) hs fun m hr => by
        obtain ⟨w', e, hr', hb⟩ := deregisterCallback_spec hr id
        exact ⟨w', _, e, hr', hs.ok.deregister id, hb, .refl R.log⟩
    exact ⟨w', mon, R', e, hs', fun _ => hfinds⟩
  | list f =>
    obtain ⟨w', R', e, hs', hfinds⟩ := withMonitor_spec (f := fun w => do
        let (_, w) ← hsMonitorList u w f
        some w) hs fun m hr => by
      obtain ⟨w', e, hr', hb⟩ := monitorList_spec hu hr f
      exact ⟨w', _, by simp [e], hr', hs.ok.list f, hb, list_routine.noFinds⟩
    exact ⟨w', mon, R', e, hs', fun _ => hfinds⟩
  | enumerate f os =>
    rcases enumerate_cases (userEnumerate u f) os w with ⟨r, -, e⟩ | ⟨hflags, e⟩
    · exact ⟨w, mon, R, by simp [LinuxOp.exec, e], hs, fun _ => .refl R.log⟩
    · obtain ⟨r, w', R', e', hb, hbusy, hk, hlog⟩ := userEnumerate_spec hu hs.bound f os.entries
      refine ⟨w', mon, R', by simp [LinuxOp.exec, e, e'], ⟨hb, hk.ok hs.ok, hbusy.trans hs.busy⟩,
        fun hno => ?_⟩
      rw [hlog (hno hflags)]
      exact .refl R.log
  | user a =>
    obtain ⟨w', e, hb, hbusy⟩ := hs.bound.userAct hu a
    exact ⟨w', mon, R, e, ⟨hb, hs.ok, hbusy.trans hs.busy⟩, fun _ => .refl R.log⟩

theorem runLinux_spec (hu : u.limit ≤ uintMod) (hs : Settled w mon R) (ops : List LinuxOp) :
    ∃ w' mon' R', runLinux u w ops = some w' ∧ Settled w' mon' R' := by
  induction ops generalizing w mon R with
  | nil => exact ⟨w, mon, R, rfl, hs⟩
  | cons op ops ih =>
    obtain ⟨w₁, mon₁, R₁, e₁, hs₁, -⟩ := linuxOp_spec hu hs op
    obtain ⟨w', mon', R', e, hs'⟩ := ih hs₁
    exact ⟨w', mon', R', by simp [runLinux, e₁, e], hs'⟩

/-! ## Conservation -/

open Classical in
/-- The counter of every existing device is the number of references to it: from the table, of the
user, of open handles, and of library calls in progress. -/
def RefsCounted (st : Store) : Prop :=
  ∀ d D, st.devs.get d = some D → D.refcount = (if InTable st.table d then 1 else 0) +
    st.userRefs d + st.handles.countP (fun h => h.dev = d) + st.busy.count d

theorem Conserved.refsCounted {st : Store} (h : Conserved st) : RefsCounted st := by
  obtain ⟨linked, hnd, hmem, hc⟩ := h
  intro d D hD
  rw [(hc.counts.live d D hD).1, Store.refsTo]
  congr 3
  split
  · next hd => exact List.count_eq_one_of_mem hnd ((hmem d).mpr hd)
  · next hd => exact List.count_eq_zero.mpr fun hm => hd ((hmem d).mp hm)

/-- No step of any run touches or frees a device that is gone. Between the operations and at every
callback the counters are the numbers of references, and when the monitor is freed, the handles are
closed and the user holds nothing, every device has been freed. The user does not raise a counter
past `2^32 - 1`. -/
theorem refs_conserved (react : List Event → Nat → Notice → Reaction) (ops : List LinuxOp) :
    ∃ w, runLinux (.careful react) .start ops = some w ∧ RefsCounted w.toStore ∧ w.busy = [] ∧
      (∀ v ∈ w.views, RefsCounted v.store) ∧
      (w.monitor = none → w.handles = [] → (∀ d, w.userRefs d = 0) → ∀ d, w.devs.get d = none) := by
  obtain ⟨w, mon, R, e, hs⟩ :=
    runLinux_spec (u := .careful react) (Nat.le_refl uintMod) settled_start ops
  have hh := hs.bound.held
  refine ⟨w, e, hh.conserved.refsCounted, hs.busy, fun v hv => (hh.history.views v hv).1.conserved.refsCounted,
    fun hmon hhandles huser d => ?_⟩
  have hm := hs.bound.monitor
  rw [hmon] at hm
  subst hm
  have hi : Idle w R := hs.bound
  by_contra hne
  obtain ⟨D, hD⟩ := Option.ne_none_iff_exists'.mp hne
  have hpos := (hh.counted.counts.live d D hD).2.1
  have hdevs : R.devs = [] := by rw [Roster.devs, hi.entries]; rfl
  rw [Store.refsTo, hdevs, huser, hhandles, hs.busy] at hpos
  exact absurd hpos (by simp)

/-! ## The counter has 32 bits -/

/-- `n` references of a user who does not watch the counter. -/
theorem refs_wrap (limit : Nat) (hlim : uintMod < limit) (n : Nat) (hd : w.devs.get d = some D)
    (hD : D.refcount < uintMod) :
    ∃ w', runLinux ⟨u.react, limit⟩ w (List.replicate n (.user (.ref d))) = some w' ∧
      w'.devs.get d = some { D with refcount := (D.refcount + n) % uintMod } ∧
      w'.userRefs d = w.userRefs d + n := by
  induction n generalizing w D with
  | zero => exact ⟨w, rfl, by rw [Nat.add_zero, Nat.mod_eq_of_lt hD]; exact hd, rfl⟩
  | succ n ih =>
    obtain ⟨devs', e, -, hg⟩ := setDev_some w
      { D with refcount := (D.refcount + 1) % uintMod } hd
    have hmay : mayRef limit w d = true := by
      simp only [mayRef, hd, decide_eq_true_eq]
      omega
    set w₁ : World := { w with
      devs := devs'
      userRefs := Function.update w.userRefs d (w.userRefs d + 1) } with hw₁
    have hd₁ : w₁.devs.get d = some { D with refcount := (D.refcount + 1) % uintMod } := by
      rw [hw₁, hg, if_pos rfl]
    obtain ⟨w', e', hd', hrefs⟩ := ih hd₁ (Nat.mod_lt _ (by decide))
    refine ⟨w', ?_, ?_, ?_⟩
    · rw [List.replicate_succ]
      simp only [runLinux, LinuxOp.exec, userAct, hmay, ↓reduceIte, hsDeviceRef, hd, e,
        Option.bind_eq_bind, Option.bind_some]
      exact e'
    · rw [hd', Nat.mod_add_mod, Nat.add_assoc, Nat.add_comm 1 n]
    · rw [hrefs, hw₁]
      simp only [Function.update_self]
      omega

/-- User code that does nothing when it is called, but may raise a counter beyond 32 bits. -/
def reckless : User := ⟨fun _ _ _ => ⟨[], 0⟩, 2 ^ 33⟩

theorem serialStartUp_dev :
    (((LinuxOp.newMonitor serialStartUp).exec reckless .start).bind fun w =>
      w.devs.get 0).map (fun D => (D.refcount, D.state, D.vtable)) =
        some (1, .online, some .posix) := by
  decide +kernel

theorem refcount_wraps_of_le {n : Nat} (hn : uintMod ≤ n) :
    ∃ w, runLinux reckless .start
        (.newMonitor serialStartUp :: List.replicate n (.user (.ref 0))) = some w ∧
      ¬ RefsCounted w.toStore := by
  obtain ⟨D, hD, hfields⟩ := Option.map_eq_some_iff.mp serialStartUp_dev
  have hone : D.refcount = 1 := congrArg Prod.fst hfields
  obtain ⟨w₀, e₀, hD⟩ := Option.bind_eq_some_iff.mp hD
  obtain ⟨w, e, hD', hrefs⟩ := refs_wrap (u := reckless) (2 ^ 33) (by decide) n hD
    (by rw [hone]; decide)
  have hlt : (D.refcount + n) % uintMod < uintMod := Nat.mod_lt _ (by decide)
  refine ⟨w, ?_, fun hcounted => ?_⟩
  · simp only [runLinux, e₀, Option.bind_eq_bind, Option.bind_some]
    exact e
  · have hcount := hcounted 0 _ hD'
    rw [hrefs] at hcount
    dsimp only at hcount
    omega

/-- With `2^32` references of the user the counter of a device of the table has run over. -/
theorem refcount_wraps :
    ∃ w, runLinux reckless .start
        (.newMonitor serialStartUp :: List.replicate (2 ^ 32) (.user (.ref 0))) = some w ∧
      ¬ RefsCounted w.toStore :=
  refcount_wraps_of_le (Nat.le_refl uintMod)

end Libhs
