import Libhs.MakeMonitor

/-!
# With and without a monitor

What the back-ends share. `Bound mon w R`: the world represents the roster, with the
monitor `mon` or with none. Between the calls of the library it is `Settled`: no call
holds a reference, and the roster is in order.

A back-end makes a device (`Made`), hands it to `_hs_monitor_add` or to the user, and
drops its reference.
-/

namespace Libhs
open Pointer

/-! ## Results -/

/-- What a computation that fails with a non-positive value yields. -/
def Yields {α : Type} (x : Except Int α) (P : α → Prop) : Prop :=
  match x with
  | .ok a => P a
  | .error r => r ≤ 0

theorem Yields.bind {α β : Type} {x : Except Int α} {f : α → Except Int β} {P : α → Prop}
    {Q : β → Prop} (hx : Yields x P) (hf : ∀ a, P a → Yields (f a) Q) : Yields (x >>= f) Q := by
  cases x with
  | ok a => exact hf a hx
  | error r => exact hx

theorem Yields.mono {α : Type} {x : Except Int α} {P Q : α → Prop} (hx : Yields x P)
    (hPQ : ∀ a, P a → Q a) : Yields x Q := by
  cases x with
  | ok a => exact hPQ a hx
  | error r => exact hx

theorem ok_of_bind {α β : Type} {x : Except Int α} {f : α → Except Int β} {b : β}
    (h : x >>= f = .ok b) : ∃ a, x = .ok a ∧ f a = .ok b := by
  cases x with
  | ok a => exact ⟨a, rfl, h⟩
  | error r => cases h

theorem hsError_nonpos (err : HsErrorCode) (fmt : Option String) : hsError err fmt ≤ 0 :=
  Int.le_of_lt (hsError_neg err fmt)

theorem orReturn_yields {r : Int} (hr : r ≤ 0) (ok : Bool) :
    Yields (orReturn r ok) fun _ => True := by
  cases ok with
  | true => trivial
  | false => exact hr

theorem someOrReturn_yields {α : Type} (x : Option α) :
    Yields (someOrReturn 0 x) fun a => x = some a := by
  cases x with
  | none => exact Int.le_refl 0
  | some a => rfl

/-- A device as the back-ends hand it on. -/
structure Made (key : CStr) (dev : HsDevice) : Prop where
  refcount : dev.refcount = 1
  state : dev.state = .disconnected
  key : dev.key = some key
  driver : dev.vtable ≠ none

/-! ## With and without a monitor -/

/-- The world represents the roster, with the monitor `mon`, or without one. -/
def Bound (mon : Option Nat) (w : World) (R : Roster) : Prop :=
  match mon with
  | none => Idle w R
  | some m => Rep w m R

variable {u : User} {w w' : World} {R R' : Roster} {mon : Option Nat} {m d f : Nat} {D : HsDevice}
  {key : CStr}

theorem Bound.held (hb : Bound mon w R) : Held w R := by
  cases mon with
  | none => exact Idle.toHeld hb
  | some m => exact Rep.toHeld hb

theorem Bound.quiet (hb : Bound mon w R) (hq : Quiet w w') (hh : Held w' R')
    (he : R'.entries = R.entries) (hl : R'.listeners = R.listeners) (hn : R'.nextId = R.nextId) :
    Bound mon w' R' := by
  cases mon with
  | some m => exact Rep.quiet hb hq hh he hl hn
  | none =>
    have hi : Idle w R := hb
    refine (⟨hh, he.trans hi.entries, ?_, hq.size.trans hi.size⟩ : Idle w' R')
    rw [hq.frame]
    exact hi.monitor

theorem Bound.userAct {limit : Nat} (hlim : limit ≤ uintMod) (hb : Bound mon w R) (a : UserAct) :
    ∃ w', Libhs.userAct limit w a = some w' ∧ Bound mon w' R ∧ w'.busy = w.busy := by
  obtain ⟨w', e, hq, hbusy, hh⟩ := userAct_held hlim hb.held a
  exact ⟨w', e, hb.quiet hq hh rfl rfl rfl, hbusy⟩

theorem Bound.unrefBusy (hb : Bound mon w R) (hd : d ∈ w.busy) :
    ∃ w', w.unrefBusy (some d) = some w' ∧ Bound mon w' R ∧ w'.busy = w.busy.erase d := by
  obtain ⟨w', e, hq, hbusy, hh⟩ := unrefBusy_held hb.held hd
  exact ⟨w', e, hb.quiet hq hh rfl rfl rfl, hbusy⟩

theorem Bound.runUser (hu : u.limit ≤ uintMod) (hb : Bound mon w R) (hd : w.devs.get d = some D)
    (f : Nat) {mk : Notice → Int → Event} (hmk : Event.Calls mk) :
    ∃ w', Libhs.runUser u f mk w d = some ((u.react R.log f (D.notice d)).ret, w') ∧
      Bound mon w' (R.emit (mk (D.notice d) (u.react R.log f (D.notice d)).ret)) ∧
      w'.busy = w.busy := by
  obtain ⟨w', e, hq, hbusy, hh⟩ := runUser_held f hmk hu hb.held hd
  exact ⟨w', e, hb.quiet hq hh rfl rfl rfl, hbusy⟩

/-- The status of an object that does not exist does not matter. -/
theorem Bound.setStatus (hb : Bound mon w R) (hd : w.devs.get d = none) (st : HsDeviceStatus) :
    Bound mon w (R.setStatus d st) := by
  have hq : Quiet w w := (Untouched.refl w).quiet
  have hh := hb.held
  refine hb.quiet hq ⟨hh.counted, hh.distinct, hh.linked, fun x X hx => ?_, hh.log,
    hh.history⟩ rfl rfl rfl
  have hne : x ≠ d := by
    rintro rfl
    rw [hd] at hx
    cases hx
  exact (hh.status x X hx).trans (Function.update_of_ne hne ..).symm

/-- A new device that a library call holds. -/
theorem Bound.alloc (hb : Bound mon w R) (hD : D.refcount = 1) (hs : D.state = .disconnected) :
    Bound mon { (w.allocDev D).2 with busy := w.devs.brk :: w.busy }
      (R.setStatus w.devs.brk .disconnected) := by
  have hown : ∀ x, w.userRefs x + (w.devs.brk :: w.busy).count x =
      w.userRefs x + w.busy.count x + if x = w.devs.brk then 1 else 0 := by
    intro x
    by_cases hx : x = w.devs.brk
    · subst hx
      rw [List.count_cons_self, if_pos rfl]
      omega
    · rw [List.count_cons_of_ne (Ne.symm hx), if_neg hx]
      omega
  cases mon with
  | some m => exact allocDev_rep hb hD hs hown
  | none =>
    have hi : Idle w R := hb
    exact (⟨allocDev_held hi.toHeld hD hs hown, hi.entries, hi.monitor, hi.size⟩ : Idle _ _)

/-- Writing over a device that was just allocated. -/
theorem setDev_alloc (w : World) (D D' : HsDevice) (busy : List Nat) :
    ({ (w.allocDev D).2 with busy := busy } : World).setDev w.devs.brk D' =
      some { (w.allocDev D').2 with busy := busy } := by
  simp [World.setDev, World.allocDev, Heap.set, Heap.alloc]

/-- Making a device either fails and leaves nothing behind, or gives the device to the caller. -/
theorem Bound.makeDevice (hb : Bound mon w R) (fill : HsDevice → Except Int HsDevice)
    (hy : Yields (fill blankDevice) fun D => ∃ key, Made key D) :
    ∃ r dev w', w.makeDevice fill = some ((r, dev), w') ∧
      Bound mon w' (R.setStatus w.devs.brk .disconnected) ∧
      match fill blankDevice with
      | .error e => r = e ∧ dev = none ∧ w'.busy = w.busy
      | .ok D => r = 1 ∧ dev = some w.devs.brk ∧ w'.busy = w.devs.brk :: w.busy ∧
          w'.devs.get w.devs.brk = some D := by
  cases hfill : fill blankDevice with
  | error r =>
    have hb₁ : Bound mon { (w.allocDev blankDevice).2 with busy := w.devs.brk :: w.busy }
        (R.setStatus w.devs.brk .disconnected) := hb.alloc rfl rfl
    obtain ⟨w', e, hb', hbusy⟩ := hb₁.unrefBusy List.mem_cons_self
    refine ⟨r, none, w', ?_, hb', rfl, rfl, ?_⟩
    · simp only [World.makeDevice, hfill]
      exact (congrArg (Option.bind · _) e).trans rfl
    · rw [hbusy]
      exact List.erase_cons_head ..
  | ok D =>
    rw [hfill] at hy
    obtain ⟨key, hmade⟩ := hy
    refine ⟨1, some w.devs.brk, { (w.allocDev D).2 with busy := w.devs.brk :: w.busy }, ?_,
      hb.alloc hmade.refcount hmade.state, rfl, rfl, rfl, ?_⟩
    · simp only [World.makeDevice, hfill]
      exact (congrArg (Option.bind · _) (setDev_alloc w blankDevice D _)).trans rfl
    · simp [World.allocDev, Heap.get_alloc]

/-- `_hs_monitor_add` of a new device, and the caller drops its reference. -/
theorem addMade_spec (hu : u.limit ≤ uintMod) (hr : Rep w m (R.setStatus d .disconnected))
    (hD : w.devs.get d = some D) (hm : Made key D) (hnew : R.Unused d) (hd : d ∈ w.busy) :
    let R' := ((R.setStatus d .disconnected).add u m ⟨d, key, D.iface⟩).2
    ∃ w₁ w₂, hsMonitorAdd u w d = some
        (((R.setStatus d .disconnected).add u m ⟨d, key, D.iface⟩).1, w₁) ∧
      w₁.unrefBusy (some d) = some w₂ ∧ Rep w₂ m R' ∧ w₂.busy = w.busy.erase d := by
  intro R'
  obtain ⟨w₁, e₁, hr₁, hb₁⟩ := monitorAdd_spec hu hr hD hm.key hm.driver hnew.1 (by
    rw [hm.refcount]
    decide)
  have hb : Bound (some m) w₁ R' := hr₁
  obtain ⟨w₂, e₂, hb₂, hbusy⟩ := hb.unrefBusy (d := d) (by rwa [hb₁])
  exact ⟨w₁, w₂, e₁, e₂, hb₂, by rw [hbusy, hb₁]⟩

/-! ## Between the calls -/

/-- Between operations the world represents a roster, and no call is in progress. -/
structure Settled (w : World) (mon : Option Nat) (R : Roster) : Prop where
  bound : Bound mon w R
  ok : R.Ok
  busy : w.busy = []

theorem Bound.monitor (hb : Bound mon w R) : w.monitor = mon := by
  cases mon with
  | none => exact Idle.monitor hb
  | some m => exact (Rep.toShape hb).monitor

theorem settled_start : Settled World.start none Roster.empty := ⟨idle_start, ok_empty, rfl⟩

theorem ok_of_same (hok : R.Ok) (he : R'.entries = R.entries) (hl : R'.listeners = R.listeners)
    (hn : R'.nextId = R.nextId) (hs : ∀ d ∈ R.devs, R'.status d = R.status d)
    (hlife : Life R'.log R.members none) : R'.Ok := by
  refine ⟨?_, ?_, fun e hm => ?_, ?_, ?_, ?_⟩
  · rw [Roster.devs, he]
    exact hok.devs
  · rw [he]
    exact hok.pairs
  · rw [he] at hm
    rw [hs _ (mem_devs hm)]
    exact hok.online e hm
  · rw [hl]
    exact hok.ids
  · rw [hl, hn]
    exact hok.below
  · rw [Roster.members, he]
    exact hlife

theorem Roster.Ok.list (hok : R.Ok) (f : Nat) : (R.list u m f).2.Ok := by
  refine ok_of_same hok rfl rfl rfl (fun _ _ => rfl) (visitAll_life _ hok.life fun n hn => ?_)
  obtain ⟨e, he, rfl⟩ := List.mem_map.mp hn
  exact ⟨e.key, hok.life.entry ((order_perm R).mem_iff.mp he)⟩

theorem Roster.Ok.emit_receive (hok : R.Ok) (got : Bool) : (R.emit (.receive got)).Ok :=
  ok_of_same hok rfl rfl rfl (fun _ _ => rfl) (.receive got hok.life)

/-- The lists of a new monitor are in order. -/
theorem ok_fresh (h : Life R.log [] none) : R.fresh.Ok :=
  ⟨List.nodup_nil, List.nodup_nil, fun _ h => absurd h List.not_mem_nil, List.nodup_nil,
    fun _ h => absurd h List.not_mem_nil, h⟩

theorem Roster.Ok.release (hok : R.Ok) : R.release.Ok :=
  ⟨List.nodup_nil, List.nodup_nil, fun _ h => absurd h List.not_mem_nil, List.nodup_nil,
    fun _ h => absurd h List.not_mem_nil, .released hok.life⟩

theorem Idle.life (hi : Idle w R) (hok : R.Ok) : Life R.log [] none := by
  have h := hok.life
  rwa [Roster.members, hi.entries] at h

/-! ## What the calls leave -/

variable {r : Int}

/-- Registering and deregistering callbacks leaves the table and the log alone. -/
theorem Settled.register {callocOk : Bool} (hs : Settled w (some m) R)
    (h : hsMonitorRegisterCallback w f callocOk = some (r, w')) :
    ∃ R', Settled w' (some m) R' ∧ R'.entries = R.entries ∧ R'.log = R.log := by
  obtain ⟨r', w₁, e, hb, hcase⟩ := registerCallback_spec hs.bound f callocOk
  rw [e] at h
  cases h
  cases callocOk with
  | false =>
    obtain ⟨-, rfl⟩ := hcase
    exact ⟨R, hs, rfl, rfl⟩
  | true =>
    obtain ⟨-, a, hr⟩ := hcase
    exact ⟨R.register a f, ⟨hr, hs.ok.register a f, hb.trans hs.busy⟩, rfl, rfl⟩

theorem Settled.deregister {id : Nat} (hs : Settled w (some m) R)
    (h : hsMonitorDeregisterCallback w id = some w') : Settled w' (some m) (R.deregister id) := by
  obtain ⟨w₁, e, hr, hb⟩ := deregisterCallback_spec hs.bound id
  rw [e] at h
  cases h
  exact ⟨hr, hs.ok.deregister id, hb.trans hs.busy⟩

theorem Settled.list (hu : u.limit ≤ uintMod) (hs : Settled w (some m) R)
    (h : hsMonitorList u w f = some (r, w')) : Settled w' (some m) (R.list u m f).2 := by
  obtain ⟨w₁, e, hr, hb⟩ := monitorList_spec hu hs.bound f
  rw [e] at h
  cases h
  exact ⟨hr, hs.ok.list f, hb.trans hs.busy⟩

theorem Settled.remove (hu : u.limit ≤ uintMod) (hs : Settled w (some m) R)
    (h : hsMonitorRemove u w key = some w') : Settled w' (some m) (R.remove u m key) := by
  obtain ⟨w₁, e, hr, hb⟩ := monitorRemove_spec hu hs.bound key
  rw [e] at h
  cases h
  exact ⟨hr, hs.ok.remove, hb.trans hs.busy⟩

theorem Settled.userAct {a : UserAct} (hu : u.limit ≤ uintMod) (hs : Settled w mon R)
    (h : Libhs.userAct u.limit w a = some w') : Settled w' mon R := by
  obtain ⟨w₁, e, hb, hbusy⟩ := hs.bound.userAct hu a
  rw [e] at h
  cases h
  exact ⟨hb, hs.ok, hbusy.trans hs.busy⟩

theorem Settled.release (hs : Settled w (some m) R) (h : hsMonitorRelease w = some w') :
    Settled w'.freeMonitor none R.release := by
  obtain ⟨w₁, e, hi, hb⟩ := monitorRelease_spec hs.bound
  rw [e] at h
  cases h
  exact ⟨hi, hs.ok.release, hb.trans hs.busy⟩

/-- Releasing a monitor that `_hs_monitor_init` did not set up. -/
theorem Settled.releaseBlank {links : Links CbRef} (hs : Settled w none R)
    (hh : links .head = some ⟨none, none⟩ ∨ DRing links .head [])
    (h : hsMonitorRelease { w.allocMonitor with links := links } = some w') :
    Settled w'.freeMonitor none R.release := by
  obtain ⟨w₁, e, hi, hb⟩ := releaseBlank_spec hs.bound hh
  rw [e] at h
  cases h
  exact ⟨hi, hs.ok.release, hb.trans hs.busy⟩

/-- `_hs_monitor_init` makes an empty monitor, or leaves one that can be released. -/
theorem Settled.init {mallocOk : Bool} (hs : Settled w none R)
    (h : hsMonitorInit w.allocMonitor mallocOk = some (r, w')) :
    (r = 0 ∧ mallocOk = true ∧ ∃ m, Settled w' (some m) R.fresh) ∨
      (r < 0 ∧ ∃ links, w' = { w.allocMonitor with links := links } ∧ DRing links .head []) := by
  cases mallocOk with
  | true =>
    obtain ⟨w₁, e, hr, hb⟩ := monitorInit_spec hs.bound
    rw [e] at h
    cases h
    exact Or.inl ⟨rfl, rfl, w.monitors, hr, ok_fresh (Idle.life hs.bound hs.ok), hb.trans hs.busy⟩
  | false =>
    obtain ⟨links, e, hring⟩ := monitorInit_fails w
    rw [e] at h
    cases h
    exact Or.inr ⟨hsError_neg .memory none, links, rfl, hring⟩

/-! ## What a failure leaves -/

theorem release_count (R : Roster) :
    R.release.log.count .released = R.log.count .released + 1 := by
  simp [Roster.release, Roster.fresh, Roster.emit, List.count_append]

/-- What a call that failed leaves of the world `w`: no monitor, one that was released if one was
allocated, and no reference but those of the user and of the handles. -/
structure Unwound (w w' : World) (allocated : Bool) : Prop where
  monitor : w'.monitor = none
  released : w'.log.count .released = w.log.count .released + allocated.toNat
  unheld : ∀ d D, w'.devs.get d = some D →
    D.refcount = w'.userRefs d + w'.handles.countP fun h => h.dev = d

theorem Settled.unheld (hs : Settled w none R)
    (hD : w.devs.get d = some D) :
    D.refcount = w.userRefs d + w.handles.countP fun h => h.dev = d := by
  have hnil : R.devs = [] := by rw [Roster.devs, Idle.entries hs.bound]; rfl
  have hc := (hs.bound.held.counted.counts.live d D hD).1
  rw [Store.refsTo, hnil, hs.busy] at hc
  simpa using hc

theorem Settled.unwound {alloc : Bool} (hs : Settled w' none R')
    (hc : R'.log.count .released = w.log.count .released + alloc.toNat) : Unwound w w' alloc where
  monitor := hs.bound.monitor
  released := by rw [hs.bound.held.log]; exact hc
  unheld _ _ := hs.unheld

end Libhs
