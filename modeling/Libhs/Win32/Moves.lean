import Libhs.Win32.Steps
import Libhs.Win32.EnumerateSpec

/-!
# The steps of the Windows monitor on lists

`Moves` lists what a step does to the monitor read as lists (`Roster`), and to the rest
of the state where the thread of the user is concerned. `steps_moves`: the pointer
structures do just that, and `Stands` is kept.
-/

namespace Libhs.Win32
open Pointer

/-- The points of `hs_monitor_new` at which it has a monitor. -/
def Main.creating : Main → Bool
  | .scanning _ _ | .starting | .waiting | .checking | .resetting => true
  | _ => false

/-- The world at a point of the program: in `hs_monitor_free` it has a monitor without a table. -/
def Main.Settled (main : Main) (w : World) (R : Roster) : Prop :=
  match main with
  | .absent => Libhs.Settled w none R
  | .freeing _ => Libhs.Settled w.freeMonitor none R
  | _ => ∃ m, Libhs.Settled w (some m) R

/-- Between two steps the world represents a roster, without callbacks in `hs_monitor_new`. -/
structure Stands (s : State) (R : Roster) : Prop where
  settled : s.main.Settled s.world R
  silent : s.main.creating = true → R.listeners = []

/-- The state in `hs_monitor_free`, before it waits. -/
def State.freeing (s : State) (w : World) (r : Int) : State :=
  { s with
    world := w
    main := .freeing r
    desktop := { s.desktop with closing := s.hwnd } }

/-- What a step does to the state and to the lists. -/
inductive Moves (u : User) (s : State) (R : Roster) : Action → State → Roster → Prop
  | refused {os r} : s.main = .absent → os.callocOk = false → r < 0 →
      Moves u s R (.newMonitor os) { s with result := r } R
  | failed {os q w r} : s.main = .absent → os.callocOk = true → s.queue.init = some q → r < 0 →
      Moves u s R (.newMonitor os)
        ({ s with world := s.world.allocMonitor, queue := q, scanned := [] }.freeing w r) R.release
  | started {os q w} : s.main = .absent → os.ok = true → s.queue.init = some q →
      Moves u s R (.newMonitor os)
        { s with world := w, queue := q, scanned := [], main := .scanning [] deviceClasses } R.fresh
  | notScanned {c classes w r} : s.main = .scanning [] (c :: classes) → r < 0 →
      Moves u s R (.scanClass none) (s.freeing w r) R.release
  | scanned {set c classes} : s.main = .scanning [] (c :: classes) →
      Moves u s R (.scanClass (some set))
        { s with main := .scanning set classes, scanned := s.scanned ++ set } R
  | read {os k set classes m w R'} : s.main = .scanning (k :: set) classes →
      Adds u m (os.read none) R 0 R' →
      Moves u s R (.readDevice os) { s with world := w, main := .scanning set classes } R'
  | notRead {os k set classes m r w} {R' : Roster} : s.main = .scanning (k :: set) classes →
      r < 0 → Adds u m (os.read none) R r R' →
      Moves u s R (.readDevice os) (s.freeing w r) R'.release
  | begun {ok} : s.main = .scanning [] [] ∨ s.main = .starting →
      Moves u s R (.beginThread ok) (s.beginThread ok) R
  | signalled : s.main = .waiting → s.queue.event = true →
      Moves u s R (.waitEvent true) { s with main := .checking } R
  | notWaited {w r} : s.main = .waiting → r < 0 →
      Moves u s R (.waitEvent false) (s.freeing w r) R.release
  | checked : s.main = .checking → ¬ s.queue.ret < 0 →
      Moves u s R .checkRet { s with main := .resetting } R
  | notStarted {w} : s.main = .checking → s.queue.ret < 0 →
      Moves u s R .checkRet (s.freeing w s.queue.ret) R.release
  | created : s.main = .resetting → Moves u s R .resetEvent s.resetEvent R
  | refreshing {q main} : s.main = .idle → main.inRefresh = true →
      Moves u s R .beginRefresh { s with queue := q, main := main } R
  | arrived {os cur next a n q w main r m R'} : s.main = .refreshing cur next →
      cur = some (.note a) → s.queue.notes.get a = some n → n.event = .added →
      os.located = true → Adds u m (os.read.read (some n.key)) R r R' → s.queue.drop a = some q →
      main.inRefresh = true →
      Moves u s R (.processNotification os) { s with world := w, queue := q, main := main } R'
  | departed {os cur next a n q w main m} : s.main = .refreshing cur next →
      cur = some (.note a) → s.queue.notes.get a = some n → n.event = .removed →
      s.queue.drop a = some q →
      main.inRefresh = true →
      Moves u s R (.processNotification os) { s with world := w, queue := q, main := main }
        (R.remove u m n.key)
  | refreshed {r q} : s.main = .finishing r →
      Moves u s R .endRefresh { s with queue := q, main := .idle, result := r } R
  | freed {w} : s.main = .idle → Moves u s R .freeMonitor (s.freeing w 0) R.release
  | joined {r q} : s.main = .freeing r → s.thread.ended = true →
      Moves u s R .joinThread
        { s with
          world := s.world.freeMonitor, queue := q, hwnd := false, thread := .absent
          main := .absent, result := r } R
  | registered {f callocOk w R'} : s.main = .idle → R'.entries = R.entries → R'.log = R.log →
      Moves u s R (.register f callocOk) { s with world := w } R'
  | deregistered {id w} : s.main = .idle →
      Moves u s R (.deregister id) { s with world := w } (R.deregister id)
  | listed {f m w} : s.main = .idle →
      Moves u s R (.list f) { s with world := w } (R.list u m f).2
  | enumerated {f os w R'} : s.main.outside → R.Keeps R' → (os.findsNone → R'.log = R.log) →
      Moves u s R (.enumerate f os) { s with world := w } R'
  | acted {act w} : s.main.outside → Moves u s R (.user act) { s with world := w } R
  | background {a s'} : a.background = true → Steps u s s' a → s'.main = s.main →
      s'.world = s.world → Moves u s R a s' R

variable {u : User} {s s' : State} {R R' : Roster} {a : Action} {r : Int} {m : Nat} {main : Main}
  {w : World}

/-! ## The points of the program -/

theorem Main.settled_iff (habs : main ≠ .absent) (hfree : ∀ r, main ≠ .freeing r) :
    main.Settled w R ↔ ∃ m, Libhs.Settled w (some m) R := by
  unfold Main.Settled
  split
  · next h => exact absurd rfl habs
  · next r => exact absurd rfl (hfree r)
  · exact Iff.rfl

theorem Main.settled_of_inRefresh (hm : main.inRefresh = true) :
    main.Settled w R ↔ ∃ m, Libhs.Settled w (some m) R := by
  refine Main.settled_iff ?_ fun r => ?_
  all_goals
    rintro rfl
    cases hm

theorem creating_of_inRefresh (hm : main.inRefresh = true) : main.creating = false := by
  cases main <;> first | rfl | cases hm

theorem creating_of_outside (hm : main.outside = true) : main.creating = false := by
  cases main <;> first | rfl | cases hm

theorem stands_start (tree : CStr → Option Node) : Stands (.start tree) Roster.empty :=
  ⟨settled_start, nofun⟩

/-! ## The functions -/

theorem freeMonitor_stands (hs : Settled s.world (some m) R) (h : s.freeMonitor r = some s') :
    ∃ w, s' = s.freeing w r ∧ Stands (s.freeing w r) R.release := by
  obtain ⟨w, e, rfl⟩ := freeMonitor_some h
  exact ⟨w, rfl, hs.release e, nofun⟩

theorem newMonitor_moves {os : NewOs} (hs : Stands s R) (hm : s.main = .absent)
    (h : s.newMonitor os = some s') :
    ∃ R', Stands s' R' ∧ Moves u s R (.newMonitor os) s' R' := by
  have hset : Settled s.world none R := by
    have hset := hs.settled
    rwa [hm] at hset
  rcases newMonitor_some h with ⟨hok, rfl⟩ | ⟨q, s₁, hok, eq, rfl, hcase⟩
  · exact ⟨R, ⟨hs.settled, hs.silent⟩, .refused hm hok (hsError_neg .memory none)⟩
  · rcases hcase with ⟨r, hneg, h⟩ | ⟨r, w, ew, hcase⟩
    · obtain ⟨w, e, rfl⟩ := freeMonitor_some h
      have hw : Settled w.freeMonitor none R.release := by
        refine hset.releaseBlank ?_ e
        exact Or.inl (by simp)
      exact ⟨R.release, ⟨hw, nofun⟩, .failed hm hok eq hneg⟩
    · rcases hset.init ew with ⟨rfl, hmalloc, m, hw⟩ | ⟨hneg, links, rfl, hring⟩
      · rcases hcase with ⟨r', hneg, h⟩ | ⟨-, hok', rfl⟩
        · obtain ⟨w', e, rfl⟩ := freeMonitor_some h
          refine ⟨R.fresh.release, ⟨hw.release e, nofun⟩, ?_⟩
          exact .failed hm hok eq hneg
        · exact ⟨R.fresh, ⟨⟨m, hw⟩, fun _ => rfl⟩, .started hm (hok' hmalloc) eq⟩
      · rcases hcase with ⟨r', hneg', h⟩ | ⟨hpos, -⟩
        · obtain ⟨w', e, rfl⟩ := freeMonitor_some h
          exact ⟨R.release, ⟨hset.releaseBlank (Or.inr hring) e, nofun⟩, .failed hm hok eq hneg'⟩
        · exact absurd hneg hpos

theorem scanClass_moves {set : Option (List CStr)} {c : DeviceClass} {classes : List DeviceClass}
    (hs : Stands s R) (hm : s.main = .scanning [] (c :: classes))
    (h : s.scanClass set classes = some s') :
    ∃ R', Stands s' R' ∧ Moves u s R (.scanClass set) s' R' := by
  have hset := hs.settled
  have hquiet := hs.silent (by rw [hm]; rfl)
  rw [hm] at hset
  cases set with
  | none =>
    obtain ⟨m, hset⟩ := hset
    obtain ⟨w, rfl, hst⟩ := freeMonitor_stands hset h
    exact ⟨R.release, hst, .notScanned hm (hsError_neg _ _)⟩
  | some set =>
    cases h
    exact ⟨R, ⟨hset, fun _ => hquiet⟩, .scanned hm⟩

theorem readDevice_moves {os : ReadOs} {k : CStr} {set : List CStr} {classes : List DeviceClass}
    (hu : u.limit ≤ uintMod) (hs : Stands s R) (hm : s.main = .scanning (k :: set) classes)
    (h : s.readDevice u os set classes = some s') :
    ∃ R', Stands s' R' ∧ Moves u s R (.readDevice os) s' R' := by
  have hset := hs.settled
  have hquiet := hs.silent (by rw [hm]; rfl)
  rw [hm] at hset
  obtain ⟨m, hset⟩ := hset
  obtain ⟨r, w, e, hcase⟩ := readDevice_some h
  obtain ⟨r', w', R', e', hr', hb', hadds⟩ :=
    handOver_add_spec hu hset.bound (processWin32Device_makes os none)
  have e : handOver (processWin32Device os none) (fun d w => hsMonitorAdd u w d) s.world =
      some (r, w) := e
  rw [e'] at e
  cases e
  have hw : Libhs.Settled w (some m) R' := ⟨hr', hadds.ok hset.ok, hb'.trans hset.busy⟩
  obtain ⟨hquiet', hzero⟩ := hadds.silent hquiet
  rcases hcase with ⟨hneg, h⟩ | ⟨rfl, rfl⟩ | ⟨hpos, -⟩
  · obtain ⟨w', rfl, hst⟩ := freeMonitor_stands (s := { s with world := w }) hw h
    exact ⟨R'.release, hst, .notRead hm hneg hadds⟩
  · exact ⟨R', ⟨⟨m, hw⟩, fun _ => hquiet'⟩, .read hm hadds⟩
  · -- without callbacks nothing stops the enumeration but an error
    have hle : r ≤ 0 := by
      rcases hzero with ⟨e, hres, rfl⟩ | rfl
      · have hy := (processWin32Device_makes os none).made
        rw [hres] at hy
        exact hy
      · exact Int.le_refl 0
    exact absurd hpos (Int.not_lt.mpr hle)

theorem beginRefresh_moves (hs : Stands s R) (hm : s.main = .idle)
    (h : s.beginRefresh = some s') : ∃ R', Stands s' R' ∧ Moves u s R .beginRefresh s' R' := by
  have hset := hs.settled
  rw [hm] at hset
  have hput : ∀ {q : Queue} {main : Main}, main.inRefresh = true →
      Stands { s with queue := q, main := main } R := fun hin =>
    ⟨(Main.settled_of_inRefresh hin).mpr hset, fun hc => by
      have hc : Main.creating _ = true := hc
      rw [creating_of_inRefresh hin] at hc
      cases hc⟩
  obtain ⟨r, q, -, ⟨-, rfl⟩ | ⟨-, head, cur, -, -, rfl⟩⟩ := beginRefresh_some h
  · exact ⟨R, hput rfl, .refreshing hm rfl⟩
  · have hin := loopAt_inRefresh { s with queue := q } head.next cur.next
    rw [loopAt_eq]
    exact ⟨R, hput hin, .refreshing hm hin⟩

/-- What becomes of a notification, by its event. -/
theorem processNotification_settled {os : ArrivalOs} {n : DeviceNotification}
    (hu : u.limit ≤ uintMod) (hs : Libhs.Settled w (some m) R) {w' : World}
    (h : processNotification u os w n = some (r, w')) :
    ∃ R', Libhs.Settled w' (some m) R' ∧
      ((n.event = .added ∧ os.located = true ∧ Adds u m (os.read.read (some n.key)) R r R') ∨
        (n.event = .removed ∧ R' = R.remove u m n.key)) := by
  unfold processNotification at h
  cases hn : n.event with
  | added =>
    rw [hn] at h
    dsimp only [processArrivalNotification] at h
    split at h
    · next hloc =>
      obtain ⟨r', w₁, R', e, hr, hb, hadds⟩ :=
        handOver_add_spec hu hs.bound (processWin32Device_makes os.read (some n.key))
      rw [e] at h
      cases h
      exact ⟨R', ⟨hr, hadds.ok hs.ok, hb.trans hs.busy⟩, Or.inl ⟨rfl, hloc, hadds⟩⟩
    · cases h
  | removed =>
    rw [hn] at h
    obtain ⟨w₁, e, h⟩ := Option.bind_eq_some_iff.mp h
    cases h
    exact ⟨_, hs.remove hu e, Or.inr ⟨rfl, rfl⟩⟩

theorem processNotification_moves {os : ArrivalOs} {cur next : Option NoteRef}
    (hu : u.limit ≤ uintMod) (hs : Stands s R) (hm : s.main = .refreshing cur next)
    (h : s.processNotification u os cur next = some s') :
    ∃ R', Stands s' R' ∧ Moves u s R (.processNotification os) s' R' := by
  have hset := hs.settled
  rw [hm] at hset
  obtain ⟨m, hset⟩ := hset
  obtain ⟨a, n, r, w, q, hcur, hn, e, hq, hcase⟩ := processNotification_some h
  obtain ⟨R', hw, hkind⟩ := processNotification_settled hu hset e
  have hput : ∀ {main : Main}, main.inRefresh = true →
      Stands { s with world := w, queue := q, main := main } R' ∧
        Moves u s R (.processNotification os)
          { s with world := w, queue := q, main := main } R' := by
    intro main hin
    refine ⟨⟨(Main.settled_of_inRefresh hin).mpr ⟨m, hw⟩, fun hc => ?_⟩, ?_⟩
    · have hc : main.creating = true := hc
      rw [creating_of_inRefresh hin] at hc
      cases hc
    · rcases hkind with ⟨hev, hloc, hadds⟩ | ⟨hev, rfl⟩
      · exact .arrived hm hcur hn hev hloc hadds hq hin
      · exact .departed hm hcur hn hev hq hin
  rcases hcase with ⟨-, rfl⟩ | ⟨-, k, -, rfl⟩
  · exact ⟨R', hput rfl⟩
  · rw [loopAt_eq]
    exact ⟨R', hput (loopAt_inRefresh { s with world := w, queue := q } next k.next)⟩

/-- A call from outside of the library leaves the program where it is. -/
theorem Stands.outside (hs : Stands s R) (ho : s.main.outside = true) :
    ∃ mon, Libhs.Settled s.world mon R ∧
      ∀ {w R'}, Libhs.Settled w mon R' → Stands { s with world := w } R' := by
  have hquiet : ∀ {R' : Roster}, s.main.creating = true → R'.listeners = [] := by
    intro R' hc
    rw [creating_of_outside ho] at hc
    cases hc
  have hset := hs.settled
  unfold Main.Settled at hset
  split at hset
  · next hm =>
    refine ⟨none, hset, fun {w R'} hw => ⟨?_, hquiet⟩⟩
    show s.main.Settled w R'
    rw [hm]
    exact hw
  · next r hm =>
    rw [hm] at ho
    cases ho
  · next habs hfree =>
    obtain ⟨m, hset⟩ := hset
    exact ⟨some m, hset, fun hw => ⟨(Main.settled_iff habs hfree).mpr ⟨m, hw⟩, hquiet⟩⟩

/-- A call on the monitor. -/
theorem Stands.idle (hs : Stands s R) (hm : s.main = .idle) :
    ∃ m, Libhs.Settled s.world (some m) R ∧
      ∀ {w R'}, Libhs.Settled w (some m) R' → Stands { s with world := w } R' := by
  have hset := hs.settled
  rw [hm] at hset
  obtain ⟨m, hset⟩ := hset
  refine ⟨m, hset, fun {w R'} hw => ⟨?_, fun hc => ?_⟩⟩
  · rw [Main.settled_iff (by simp [hm]) (by simp [hm])]
    exact ⟨m, hw⟩
  · have hc : s.main.creating = true := hc
    rw [hm] at hc
    cases hc

/-! ## The steps -/

/-- A step that changes neither the world nor what the point of the program says about it. -/
theorem Stands.turn (hs : Stands s R) (hw : s'.world = s.world) (hm : s'.main = s.main) :
    Stands s' R := by
  refine ⟨?_, ?_⟩
  · rw [hw, hm]
    exact hs.settled
  · rw [hm]
    exact hs.silent

theorem steps_moves (hu : u.limit ≤ uintMod) (hs : Stands s R) (h : Steps u s s' a) :
    ∃ R', Stands s' R' ∧ Moves u s R a s' R' := by
  by_cases hb : a.background = true
  · obtain ⟨hm, hw, -⟩ := background_same h hb
    exact ⟨R, hs.turn hw hm, .background hb h hm hw⟩
  have hset := hs.settled
  cases h with
  | newMonitor hm h => exact newMonitor_moves hs hm h
  | scanClass hm h => exact scanClass_moves hs hm h
  | readDevice hm h => exact readDevice_moves hu hs hm h
  | @beginThread ok hm h =>
    subst h
    refine ⟨R, ?_, .begun hm⟩
    have hquiet : R.listeners = [] := by rcases hm with hm | hm <;> exact hs.silent (by rw [hm]; rfl)
    have hset : ∃ m, Libhs.Settled s.world (some m) R := by
      rcases hm with hm | hm <;> (rw [hm] at hset; exact hset)
    cases ok with
    | false => exact ⟨hset, nofun⟩
    | true => exact ⟨hset, fun _ => hquiet⟩
  | @waitEvent ok hm h =>
    have hquiet := hs.silent (by rw [hm]; rfl)
    rw [hm] at hset
    cases ok with
    | false =>
      obtain ⟨m, hset⟩ := hset
      obtain ⟨w, rfl, hst⟩ := freeMonitor_stands hset h
      exact ⟨R.release, hst, .notWaited hm (hsError_neg _ _)⟩
    | true =>
      simp only [State.waitEvent, ↓reduceIte, Option.ite_none_right_eq_some, Option.some.injEq] at h
      obtain ⟨hev, rfl⟩ := h
      exact ⟨R, ⟨hset, fun _ => hquiet⟩, .signalled hm hev⟩
  | checkRet hm h =>
    have hquiet := hs.silent (by rw [hm]; rfl)
    rw [hm] at hset
    unfold State.checkRet at h
    split at h
    · next hneg =>
      obtain ⟨m, hset⟩ := hset
      obtain ⟨w, rfl, hst⟩ := freeMonitor_stands hset h
      exact ⟨R.release, hst, .notStarted hm hneg⟩
    · next hneg =>
      cases h
      exact ⟨R, ⟨hset, fun _ => hquiet⟩, .checked hm hneg⟩
  | resetEvent hm h =>
    subst h
    rw [hm] at hset
    exact ⟨R, ⟨hset, nofun⟩, .created hm⟩
  | beginRefresh hm h => exact beginRefresh_moves hs hm h
  | processNotification hm h => exact processNotification_moves hu hs hm h
  | endRefresh hm h =>
    obtain ⟨q, -, h⟩ := Option.bind_eq_some_iff.mp h
    cases h
    rw [hm] at hset
    exact ⟨R, ⟨hset, nofun⟩, .refreshed hm⟩
  | freeMonitor hm h =>
    rw [hm] at hset
    obtain ⟨m, hset⟩ := hset
    obtain ⟨w, rfl, hst⟩ := freeMonitor_stands hset h
    exact ⟨R.release, hst, .freed hm⟩
  | joinThread hm hend h =>
    obtain ⟨q, -, h⟩ := Option.bind_eq_some_iff.mp h
    cases h
    rw [hm] at hset
    exact ⟨R, ⟨hset, nofun⟩, .joined hm hend⟩
  | register hm e h =>
    subst h
    obtain ⟨m, hset, hput⟩ := hs.idle hm
    obtain ⟨R', hw, he, hl⟩ := hset.register e
    exact ⟨R', hput hw, .registered hm he hl⟩
  | deregister hm e h =>
    subst h
    obtain ⟨m, hset, hput⟩ := hs.idle hm
    exact ⟨_, hput (hset.deregister e), .deregistered hm⟩
  | list hm e h =>
    subst h
    obtain ⟨m, hset, hput⟩ := hs.idle hm
    exact ⟨_, hput (hset.list hu e), .listed hm⟩
  | @enumerate f os r w ho e h =>
    subst h
    obtain ⟨mon, hset, hput⟩ := hs.outside ho
    obtain ⟨r', w', R', e', hb, hbusy, hk, hlog⟩ := enumerate_spec hu hset.bound f os
    rw [e'] at e
    cases e
    exact ⟨R', hput ⟨hb, hk.ok hset.ok, hbusy.trans hset.busy⟩, .enumerated ho hk hlog⟩
  | user ho e h =>
    subst h
    obtain ⟨mon, hset, hput⟩ := hs.outside ho
    exact ⟨R, hput (hset.userAct hu e), .acted ho⟩
  | setUp | signalReady | dispatch | post | storeError | getMessageFails | quit | leave
  | signalError | arrive | depart => exact absurd rfl hb

theorem step_moves (hu : u.limit ≤ uintMod) (hs : Stands s R) (h : step u s a = some s') :
    ∃ R', Stands s' R' ∧ Moves u s R a s' R' :=
  steps_moves hu hs (steps_of_step h)

end Libhs.Win32
