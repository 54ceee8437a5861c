import Libhs.Darwin.Monitor
import Libhs.Darwin.EnumerateSpec

/-!
# The steps of the macOS monitor on lists

`Moves` lists what a step does to the iterators of the kernel, to the point of the
program, and to the monitor read as lists (`Roster`). `step_moves`: the pointer
structures do just that, and `Stands` is kept. Every invariant of the system is then
one case analysis over `Moves`.
-/

namespace Libhs.Darwin.Monitor
open Pointer

/-- The points of `hs_monitor_new`. -/
def Main.starting : Main → Bool
  | .subscribing _ | .populating _ _ | .clearing => true
  | _ => false

/-- Between two steps the world represents a roster, and an aborted callout is dealt with. -/
structure Stands (s : State) (R : Roster) : Prop where
  settled : if s.main = .absent then Settled s.world none R else ∃ m, Settled s.world (some m) R
  silent : s.main.starting = true → R.listeners = []
  ret : s.notifyRet = 0

/-- Whether `hs_monitor_new` gets to the allocation of a monitor, and has it. -/
def NewOs.allocates (os : NewOs) : Bool := os.controllers.isNone && os.callocOk

/-- Whether everything works at the beginning of `hs_monitor_new`. -/
def NewOs.ok (os : NewOs) : Bool :=
  os.allocates && os.notifyPortOk && os.kqueueOk && os.portSetOk && os.insertMemberOk &&
    os.keventOk && os.mallocOk

/-- What a step does to the state and to the lists. -/
inductive Moves (u : User) (s : State) (R : Roster) : Action → State → Roster → Prop
  | refused {os r} : s.main = .absent → os.allocates = false → r < 0 →
      Moves u s R (.newMonitor os) { s with result := r } R
  | failed {os w r} : s.main = .absent → os.allocates = true → r < 0 →
      Moves u s R (.newMonitor os)
        { s with
          world := w, notifyRet := 0, kit := s.kit.release, main := .absent, result := r } R.release
  | started {os w} : s.main = .absent → os.ok = true →
      Moves u s R (.newMonitor os)
        { s with world := w, notifyRet := 0, main := .subscribing deviceClasses } R.fresh
  | subscribed {c classes} : s.main = .subscribing (c :: classes) →
      Moves u s R (.subscribe true)
        { s with kit := s.kit.addMatched c, main := .populating c classes } R
  | subscribedAll : s.main = .subscribing [] →
      Moves u s R (.subscribe true) { s with kit := s.kit.addTerminated, main := .clearing } R
  | notSubscribed {classes w r} : s.main = .subscribing classes → r < 0 →
      Moves u s R (.subscribe false)
        { s with world := w, kit := s.kit.release, main := .absent, result := r } R.release
  | populated {c classes pick os it it' v m w R'} : s.main = .populating c classes →
      s.kit.matched c = some it → it.next pick = some (some v, it') → Adds u m os.read R 0 R' →
      Moves u s R (.attach pick os) { s with kit := s.kit.setMatched c it', world := w } R'
  | populatedAll {c classes pick os it it'} : s.main = .populating c classes →
      s.kit.matched c = some it → it.next pick = some (none, it') →
      Moves u s R (.attach pick os)
        { s with kit := s.kit.setMatched c it', main := .subscribing classes } R
  | notPopulated {c classes pick os m r w} {R' : Roster} : s.main = .populating c classes →
      r < 0 → Adds u m os.read R r R' →
      Moves u s R (.attach pick os)
        { s with world := w, kit := s.kit.release, main := .absent, result := r } R'.release
  | cleared {pick it it' session} : s.main = .clearing → s.kit.terminated = some it →
      it.next pick = some (some session, it') →
      Moves u s R (.clear pick) { s with kit := { s.kit with terminated := some it' } } R
  | clearedAll {pick it it'} : s.main = .clearing → s.kit.terminated = some it →
      it.next pick = some (none, it') →
      Moves u s R (.clear pick)
        { s with kit := { s.kit with terminated := some it' }, main := .idle, result := 0 } R
  | polled {ok r} : s.main = .idle → Moves u s R (.kevent ok) { s with result := r } R
  | refreshing {ok} : s.main = .idle → Moves u s R (.kevent ok) { s with main := .receiving } R
  | timedOut {ok r} : s.main = .receiving →
      Moves u s R (.receive ok) { s with main := .idle, result := r } R
  | attaching {ok c port} : s.main = .receiving → s.kit.port = .attached c :: port →
      Moves u s R (.receive ok)
        { s with kit := { s.kit with port := port }, main := .attaching c } R
  | detaching {ok port} : s.main = .receiving → s.kit.port = .detached :: port →
      Moves u s R (.receive ok) { s with kit := { s.kit with port := port }, main := .detaching } R
  | attached {c pick os it it' v m w R'} : s.main = .attaching c →
      s.kit.matched c = some it → it.next pick = some (some v, it') → Adds u m os.read R 0 R' →
      Moves u s R (.attach pick os) { s with kit := s.kit.setMatched c it', world := w } R'
  | attachedAll {c pick os it it'} : s.main = .attaching c →
      s.kit.matched c = some it → it.next pick = some (none, it') →
      Moves u s R (.attach pick os)
        { s with kit := s.kit.setMatched c it', notifyRet := 0, main := .receiving } R
  | aborted {c pick os it it' v m w r R'} : s.main = .attaching c →
      s.kit.matched c = some it → it.next pick = some (some v, it') → r ≠ 0 →
      Adds u m os.read R r R' →
      Moves u s R (.attach pick os)
        { s with
          kit := s.kit.setMatched c it', world := w, notifyRet := 0, main := .idle, result := r } R'
  | detached {pick ok it it' session m w} : s.main = .detaching → s.kit.terminated = some it →
      it.next pick = some (some session, it') →
      Moves u s R (.detach pick ok)
        { s with kit := { s.kit with terminated := some it' }, world := w }
        (if ok then R.remove u m (removalKey session) else R)
  | detachedAll {pick ok it it'} : s.main = .detaching → s.kit.terminated = some it →
      it.next pick = some (none, it') →
      Moves u s R (.detach pick ok)
        { s with kit := { s.kit with terminated := some it' }, notifyRet := 0, main := .receiving } R
  | freed {w} : s.main = .idle →
      Moves u s R .freeMonitor
        { s with world := w, kit := s.kit.release, main := .absent, result := 0 } R.release
  | registered {f callocOk w R'} : s.main = .idle → R'.entries = R.entries → R'.log = R.log →
      Moves u s R (.register f callocOk) { s with world := w } R'
  | deregistered {id w} : s.main = .idle →
      Moves u s R (.deregister id) { s with world := w } (R.deregister id)
  | listed {f m w} : s.main = .idle →
      Moves u s R (.list f) { s with world := w } (R.list u m f).2
  | enumerated {f os w R'} : s.main.outside → R.Keeps R' → (os.findsNone → R'.log = R.log) →
      Moves u s R (.enumerate f os) { s with world := w } R'
  | acted {act w} : s.main.outside → Moves u s R (.user act) { s with world := w } R
  | arrived {v kit} : s.kit.arrive v = some kit → Moves u s R (.arrive v) { s with kit := kit } R
  | ended {session kit} : s.kit.terminate session = some kit →
      Moves u s R (.terminate session)
        { s with kit := kit, terminations := s.terminations ++ [⟨session, R.log⟩] } R

variable {u : User} {s s' : State} {R : Roster} {a : Action} {r : Int} {m pick : Nat}
  {os : ReadOs} {c : DeviceClass} {classes : List DeviceClass}

/-! ## Iterators -/

section Iterators

variable {α : Type} {it it' : Iterator α} {x : α} {k k' : Kit} {v : Service} {session : UInt64}

theorem next_none (h : it.next pick = some (none, it')) : it.pending = [] ∧ it' = ⟨[], true⟩ := by
  unfold Iterator.next at h
  split at h
  next he =>
    cases h
    have he := List.isEmpty_iff.mp he
    exact ⟨he, by rw [he]⟩
  next =>
    obtain ⟨x, -, h⟩ := Option.bind_eq_some_iff.mp h
    cases h

theorem next_some (h : it.next pick = some (some x, it')) :
    (x :: it'.pending).Perm it.pending ∧ it'.armed = it.armed := by
  unfold Iterator.next at h
  split at h
  next => cases h
  next =>
    obtain ⟨y, hy, h⟩ := Option.bind_eq_some_iff.mp h
    cases h
    obtain ⟨hlt, rfl⟩ := List.getElem?_eq_some_iff.mp hy
    exact ⟨List.getElem_cons_eraseIdx_perm hlt, rfl⟩

/-- A service that arrives is queued in the iterator of its class. -/
theorem arrive_some (h : k.arrive v = some k') : v.session ∉ k.ended ∧
    ((k.matched v.cls = none ∧ k' = { k with services := v :: k.services }) ∨
      ∃ it, k.matched v.cls = some it ∧ k' = { k with
        services := v :: k.services
        matched := Function.update k.matched v.cls (some (it.push v))
        port := if it.armed then k.port ++ [.attached v.cls] else k.port }) := by
  unfold Kit.arrive at h
  split at h
  · cases h
  next hs =>
    refine ⟨hs, ?_⟩
    dsimp only at h
    split at h
    next hm =>
      cases h
      exact Or.inl ⟨hm, rfl⟩
    next it hm =>
      cases h
      exact Or.inr ⟨it, hm, rfl⟩

theorem terminate_some (h : k.terminate session = some k') : session ∉ k.ended ∧
    ((k.terminated = none ∧ k' = { k with
        services := k.services.filter fun v => v.session ≠ session
        ended := session :: k.ended }) ∨
      ∃ it, k.terminated = some it ∧ k' = { k with
        services := k.services.filter fun v => v.session ≠ session
        ended := session :: k.ended
        terminated := some (it.push session)
        port := if it.armed then k.port ++ [.detached] else k.port }) := by
  unfold Kit.terminate at h
  split at h
  · cases h
  next hs =>
    refine ⟨hs, ?_⟩
    dsimp only at h
    split at h
    next hm =>
      cases h
      exact Or.inl ⟨hm, rfl⟩
    next it hm =>
      cases h
      exact Or.inr ⟨it, hm, rfl⟩

end Iterators

/-! ## The monitor -/

theorem Stands.monitor (h : Stands s R) (hm : s.main ≠ .absent) :
    ∃ m, Settled s.world (some m) R := by
  have hs := h.settled
  rwa [if_neg hm] at hs

theorem Stands.absent (h : Stands s R) (hm : s.main = .absent) : Settled s.world none R := by
  have hs := h.settled
  rwa [if_pos hm] at hs

theorem Stands.log (h : Stands s R) : s.world.log = R.log := by
  by_cases hm : s.main = .absent
  · exact (h.absent hm).bound.held.log
  · obtain ⟨m, hset⟩ := h.monitor hm
    exact hset.bound.held.log

/-! ## The functions -/

theorem freeMonitor_some (hs : Settled s.world (some m) R) (h : s.freeMonitor r = some s') :
    ∃ w, s' = { s with world := w, kit := s.kit.release, main := .absent, result := r } ∧
      Settled w none R.release := by
  obtain ⟨w, e, h⟩ := Option.bind_eq_some_iff.mp h
  exact ⟨w.freeMonitor, (Option.some.inj h).symm, hs.release e⟩

/-- The next service of a class is read and added. -/
theorem nextMatched_some (hu : u.limit ≤ uintMod) (hs : Settled s.world (some m) R)
    {ret : Option Int} (h : s.nextMatched u pick os c = some (ret, s')) :
    ∃ it, s.kit.matched c = some it ∧
      ((∃ it', it.next pick = some (none, it') ∧ ret = some 0 ∧
          s' = { s with kit := s.kit.setMatched c it' }) ∨
        ∃ it' v r w R', it.next pick = some (some v, it') ∧
          ret = (if r ≠ 0 then some r else none) ∧
          s' = { s with kit := s.kit.setMatched c it', world := w } ∧
          Settled w (some m) R' ∧ Adds u m os.read R r R') := by
  obtain ⟨it, hit, h⟩ := Option.bind_eq_some_iff.mp h
  obtain ⟨⟨service, it'⟩, hnext, h⟩ := Option.bind_eq_some_iff.mp h
  refine ⟨it, hit, ?_⟩
  cases service with
  | none =>
    cases h
    exact Or.inl ⟨it', hnext, rfl, rfl⟩
  | some v =>
    obtain ⟨⟨r, w⟩, e, h⟩ := Option.bind_eq_some_iff.mp h
    cases h
    obtain ⟨r', w', R', e', hr', hb', hadds⟩ :=
      handOver_add_spec hu hs.bound (processDarwinDevice_makes os)
    have e : handOver (processDarwinDevice os) (fun d w => hsMonitorAdd u w d) s.world =
        some (r, w) := e
    rw [e'] at e
    cases e
    exact Or.inr ⟨it', v, r, w, R', hnext, rfl, rfl, ⟨hr', hadds.ok hs.ok, hb'.trans hs.busy⟩, hadds⟩

theorem nextTerminated_some {session : Option UInt64}
    (h : s.nextTerminated pick = some (session, s')) :
    ∃ it it', s.kit.terminated = some it ∧ it.next pick = some (session, it') ∧
      s' = { s with kit := { s.kit with terminated := some it' } } := by
  obtain ⟨it, hit, h⟩ := Option.bind_eq_some_iff.mp h
  obtain ⟨⟨x, it'⟩, hnext, h⟩ := Option.bind_eq_some_iff.mp h
  cases h
  exact ⟨it, it', hit, hnext, rfl⟩

/-! ## The calls -/

theorem newMonitor_moves {os : NewOs} (hs : Stands s R) (hm : s.main = .absent)
    (h : s.newMonitor os = some s') :
    ∃ R', Stands s' R' ∧ Moves u s R (.newMonitor os) s' R' := by
  have hset := hs.absent hm
  have hrefuse : ∀ {r : Int}, os.allocates = false → r < 0 → s' = { s with result := r } →
      ∃ R', Stands s' R' ∧ Moves u s R (.newMonitor os) s' R' := by
    rintro r hno hneg rfl
    exact ⟨R, ⟨hs.settled, hs.silent, hs.ret⟩, .refused hm hno hneg⟩
  unfold State.newMonitor at h
  split at h
  next err hc =>
    exact hrefuse (by simp [NewOs.allocates, hc]) (hsError_neg err none) (Option.some.inj h).symm
  next hc =>
    split at h
    next hok =>
      have hyes : os.allocates = true := by simp [NewOs.allocates, hc, hok]
      have hfail : ∀ {w : World} {r : Int}, r < 0 → Settled w none R.release →
          ∃ R', Stands { s with
              world := w, notifyRet := 0, kit := s.kit.release, main := .absent, result := r } R' ∧
            Moves u s R (.newMonitor os) { s with
              world := w, notifyRet := 0, kit := s.kit.release, main := .absent, result := r } R' :=
        fun hneg hw => ⟨R.release, ⟨by rwa [if_pos rfl], nofun, rfl⟩, .failed hm hyes hneg⟩
      have hblank : ∀ {r : Int}, r < 0 →
          { s with world := s.world.allocMonitor, notifyRet := 0 }.freeMonitor r = some s' →
          ∃ R', Stands s' R' ∧ Moves u s R (.newMonitor os) s' R' := by
        intro r hneg h
        simp only [State.freeMonitor] at h
        obtain ⟨w, e, h⟩ := Option.bind_eq_some_iff.mp h
        cases h
        have hfreed : Settled w.freeMonitor none R.release := by
          refine hset.releaseBlank ?_ e
          exact Or.inl (by simp)
        exact hfail hneg hfreed
      dsimp only at h
      split at h
      next => exact hblank (hsError_neg _ _) h
      next h₁ =>
      split at h
      next => exact hblank (hsError_neg _ _) h
      next h₂ =>
      split at h
      next => exact hblank (hsError_neg _ _) h
      next h₃ =>
      split at h
      next => exact hblank (hsError_neg _ _) h
      next h₄ =>
      split at h
      next => exact hblank (hsError_neg _ _) h
      next h₅ =>
      obtain ⟨⟨r, w⟩, e, h⟩ := Option.bind_eq_some_iff.mp h
      rcases hset.init e with ⟨rfl, hmalloc, m, hw⟩ | ⟨hneg, links, rfl, hring⟩
      · simp only [Int.lt_irrefl, ↓reduceIte] at h
        cases h
        have hall : os.ok = true := by simp_all [NewOs.ok]
        exact ⟨R.fresh, ⟨⟨m, hw⟩, fun _ => rfl, rfl⟩, .started hm hall⟩
      · simp only [hneg, ↓reduceIte] at h
        obtain ⟨w, e, h⟩ := Option.bind_eq_some_iff.mp h
        cases h
        exact hfail hneg (hset.releaseBlank (Or.inr hring) e)
    next hok =>
      exact hrefuse (by simp [NewOs.allocates, hok]) (hsError_neg .memory none)
        (Option.some.inj h).symm

theorem freed_stands {w : World} {kit : Kit} {terminations : List Termination} (hs : Stands s R)
    (hw : Settled w none R.release) :
    Stands ⟨w, kit, s.notifyRet, .absent, r, terminations⟩ R.release :=
  ⟨by rwa [if_pos rfl], nofun, hs.ret⟩

theorem subscribe_moves {ok : Bool} (hs : Stands s R) (hm : s.main = .subscribing classes)
    (h : s.subscribe ok classes = some s') :
    ∃ R', Stands s' R' ∧ Moves u s R (.subscribe ok) s' R' := by
  obtain ⟨m, hset⟩ := hs.monitor (by simp [hm])
  have hquiet := hs.silent (by rw [hm]; rfl)
  cases ok with
  | true =>
    cases classes with
    | nil =>
      cases h
      exact ⟨R, ⟨⟨m, hset⟩, fun _ => hquiet, hs.ret⟩, .subscribedAll hm⟩
    | cons c classes =>
      cases h
      exact ⟨R, ⟨⟨m, hset⟩, fun _ => hquiet, hs.ret⟩, .subscribed hm⟩
  | false =>
    simp only [State.subscribe, Bool.false_eq_true, ↓reduceIte] at h
    obtain ⟨w, rfl, hw⟩ := freeMonitor_some hset h
    exact ⟨R.release, freed_stands hs hw, .notSubscribed hm (hsError_neg _ _)⟩

theorem populate_moves (hu : u.limit ≤ uintMod) (hs : Stands s R)
    (hm : s.main = .populating c classes) (h : s.populate u pick os c classes = some s') :
    ∃ R', Stands s' R' ∧ Moves u s R (.attach pick os) s' R' := by
  obtain ⟨m, hset⟩ := hs.monitor (by simp [hm])
  have hquiet := hs.silent (by rw [hm]; rfl)
  obtain ⟨⟨ret, s₁⟩, e, h⟩ := Option.bind_eq_some_iff.mp h
  obtain ⟨it, hit, ⟨it', hnext, rfl, rfl⟩ | ⟨it', v, r, w, R', hnext, rfl, rfl, hw, hadds⟩⟩ :=
    nextMatched_some hu hset e
  · cases h
    exact ⟨R, ⟨⟨m, hset⟩, fun _ => hquiet, hs.ret⟩, .populatedAll hm hit hnext⟩
  · obtain ⟨hquiet', hr⟩ := hadds.silent hquiet
    by_cases hz : r = 0
    · subst hz
      cases h
      refine ⟨R', ⟨?_, fun _ => hquiet', hs.ret⟩, .populated hm hit hnext hadds⟩
      rw [if_neg (by simp [hm])]
      exact ⟨m, hw⟩
    · -- without callbacks only a read fails
      have hneg : r < 0 := by
        rcases hr with ⟨e, hres, rfl⟩ | hr
        · have hy := (processDarwinDevice_makes os).made
          rw [hres] at hy
          exact lt_of_le_of_ne hy hz
        · exact absurd hr hz
      simp only [ne_eq, hz, not_false_eq_true, ↓reduceIte, hneg] at h
      obtain ⟨w', rfl, hw'⟩ := freeMonitor_some (s := { s with world := w }) hw h
      exact ⟨R'.release, ⟨by rwa [if_pos rfl], nofun, hs.ret⟩, .notPopulated hm hneg hadds⟩

theorem clear_moves (hs : Stands s R) (hm : s.main = .clearing) (h : s.clear pick = some s') :
    ∃ R', Stands s' R' ∧ Moves u s R (.clear pick) s' R' := by
  have hset := hs.settled
  rw [if_neg (by simp [hm])] at hset
  obtain ⟨⟨session, s₁⟩, e, h⟩ := Option.bind_eq_some_iff.mp h
  obtain ⟨it, it', hit, hnext, rfl⟩ := nextTerminated_some e
  cases session with
  | none =>
    cases h
    exact ⟨R, ⟨hset, nofun, hs.ret⟩, .clearedAll hm hit hnext⟩
  | some session =>
    cases h
    exact ⟨R, ⟨hs.settled, hs.silent, hs.ret⟩, .cleared hm hit hnext⟩

theorem kevent_moves (hs : Stands s R) (hm : s.main = .idle) (ok : Bool) :
    ∃ R', Stands (s.kevent ok) R' ∧ Moves u s R (.kevent ok) (s.kevent ok) R' := by
  have hset := hs.settled
  rw [if_neg (by simp [hm])] at hset
  refine ⟨R, ?_⟩
  unfold State.kevent
  split
  · split
    · exact ⟨⟨hs.settled, hs.silent, hs.ret⟩, .polled hm⟩
    · exact ⟨⟨hset, nofun, hs.ret⟩, .refreshing hm⟩
  · exact ⟨⟨hs.settled, hs.silent, hs.ret⟩, .polled hm⟩

theorem receive_moves (hs : Stands s R) (hm : s.main = .receiving) (ok : Bool) :
    ∃ R', Stands (s.receive ok) R' ∧ Moves u s R (.receive ok) (s.receive ok) R' := by
  have hset := hs.settled
  rw [if_neg (by simp [hm])] at hset
  refine ⟨R, ?_⟩
  unfold State.receive
  split
  · split
    next => exact ⟨⟨hset, nofun, hs.ret⟩, .timedOut hm⟩
    next c port hp => exact ⟨⟨hset, nofun, hs.ret⟩, .attaching hm hp⟩
    next port hp => exact ⟨⟨hset, nofun, hs.ret⟩, .detaching hm hp⟩
  · exact ⟨⟨hset, nofun, hs.ret⟩, .timedOut hm⟩

theorem attach_moves (hu : u.limit ≤ uintMod) (hs : Stands s R) (hm : s.main = .attaching c)
    (h : s.attach u pick os c = some s') :
    ∃ R', Stands s' R' ∧ Moves u s R (.attach pick os) s' R' := by
  obtain ⟨m, hset⟩ := hs.monitor (by simp [hm])
  obtain ⟨⟨ret, s₁⟩, e, h⟩ := Option.bind_eq_some_iff.mp h
  obtain ⟨it, hit, ⟨it', hnext, rfl, rfl⟩ | ⟨it', v, r, w, R', hnext, rfl, rfl, hw, hadds⟩⟩ :=
    nextMatched_some hu hset e
  · cases h
    exact ⟨R, ⟨⟨m, hset⟩, nofun, rfl⟩, .attachedAll hm hit hnext⟩
  · by_cases hz : r = 0
    · subst hz
      cases h
      refine ⟨R', ⟨?_, fun hst => ?_, hs.ret⟩, .attached hm hit hnext hadds⟩
      · rw [if_neg (by simp [hm])]
        exact ⟨m, hw⟩
      · rw [hm] at hst
        cases hst
    · simp only [ne_eq, hz, not_false_eq_true, ↓reduceIte, State.endCallout] at h
      cases h
      exact ⟨R', ⟨⟨m, hw⟩, nofun, rfl⟩, .aborted hm hit hnext hz hadds⟩

theorem detach_moves {ok : Bool} (hu : u.limit ≤ uintMod) (hs : Stands s R)
    (hm : s.main = .detaching) (h : s.detach u pick ok = some s') :
    ∃ R', Stands s' R' ∧ Moves u s R (.detach pick ok) s' R' := by
  obtain ⟨m, hset⟩ := hs.monitor (by simp [hm])
  obtain ⟨⟨session, s₁⟩, e, h⟩ := Option.bind_eq_some_iff.mp h
  obtain ⟨it, it', hit, hnext, rfl⟩ := nextTerminated_some e
  cases session with
  | none =>
    simp only [State.endCallout, hs.ret, ne_eq, not_true_eq_false, ↓reduceIte] at h
    cases h
    exact ⟨R, ⟨⟨m, hset⟩, nofun, rfl⟩, .detachedAll hm hit hnext⟩
  | some session =>
    obtain ⟨w, e, h⟩ := Option.bind_eq_some_iff.mp h
    cases h
    have hw : Settled w (some m) (if ok then R.remove u m (removalKey session) else R) := by
      cases ok with
      | true => exact hset.remove hu e
      | false =>
        cases e
        exact hset
    refine ⟨if ok then R.remove u m (removalKey session) else R,
      ⟨?_, fun hst => ?_, hs.ret⟩, .detached hm hit hnext⟩
    · rw [if_neg (by simp [hm])]
      exact ⟨m, hw⟩
    · rw [hm] at hst
      cases hst

/-- A call that reads neither an iterator nor the port. -/
theorem call_some {f : World → Option World} (h : s.call f = some s') :
    ∃ w, f s.world = some w ∧ s' = { s with world := w } := by
  obtain ⟨w, e, h⟩ := Option.bind_eq_some_iff.mp h
  exact ⟨w, e, (Option.some.inj h).symm⟩

theorem callResult_some {α : Type} {f : World → Option (α × World)}
    (h : (s.call fun w => do
      let (_, w) ← f w
      some w) = some s') : ∃ r w, f s.world = some (r, w) ∧ s' = { s with world := w } := by
  obtain ⟨w, e, rfl⟩ := call_some h
  obtain ⟨⟨r, w'⟩, e', h'⟩ := Option.bind_eq_some_iff.mp e
  cases h'
  exact ⟨r, w, e', rfl⟩

theorem starting_of_outside {main : Main} (h : main.outside = true) : main.starting = false := by
  cases main <;> first | rfl | cases h

/-- A call from outside of the library leaves the program where it is. -/
theorem Stands.outside (hs : Stands s R) (ho : s.main.outside = true) :
    ∃ mon, Settled s.world mon R ∧
      ∀ {w R'}, Settled w mon R' → Stands { s with world := w } R' := by
  have hst : ∀ {R' : Roster}, s.main.starting = true → R'.listeners = [] := fun h =>
    absurd h (by rw [starting_of_outside ho]; decide)
  by_cases hm : s.main = .absent
  · exact ⟨none, hs.absent hm, fun hw => ⟨by rwa [if_pos hm], hst, hs.ret⟩⟩
  · obtain ⟨m, hset⟩ := hs.monitor hm
    exact ⟨some m, hset, fun hw => ⟨by rw [if_neg hm]; exact ⟨m, hw⟩, hst, hs.ret⟩⟩

theorem Stands.idle {w : World} {R' : Roster} (hs : Stands s R) (hm : s.main = .idle)
    (hw : Settled w (some m) R') : Stands { s with world := w } R' := by
  refine ⟨?_, fun hst => ?_, hs.ret⟩
  · rw [if_neg (by simp [hm])]
    exact ⟨m, hw⟩
  · have hst : s.main.starting = true := hst
    rw [hm] at hst
    cases hst

theorem Stands.ok (h : Stands s R) : R.Ok := by
  by_cases hm : s.main = .absent
  · exact (h.absent hm).ok
  · obtain ⟨m, hset⟩ := h.monitor hm
    exact hset.ok

theorem Stands.linked (h : Stands s R) (d : Nat) : d ∈ R.devs ↔ InTable s.world.table d := by
  by_cases hm : s.main = .absent
  · exact (h.absent hm).bound.held.linked d
  · obtain ⟨m, hset⟩ := h.monitor hm
    exact hset.bound.held.linked d

/-- A device of the table is an object with its key. -/
theorem Stands.key {e : Entry} (h : Stands s R) (he : e ∈ R.entries) :
    ∃ D, s.world.devs.get e.dev = some D ∧ D.key = some e.key := by
  by_cases hm : s.main = .absent
  · have hnil := Idle.entries (h.absent hm).bound
    rw [hnil] at he
    exact absurd he List.not_mem_nil
  · obtain ⟨m, hset⟩ := h.monitor hm
    obtain ⟨D, hD⟩ := hset.bound.held.live (mem_devs he)
    exact ⟨D, hD, ((Rep.toShape hset.bound).fields e he D hD).1⟩

theorem stands_start (services : List Service) : Stands (State.start services) Roster.empty :=
  ⟨settled_start, nofun, rfl⟩

/-! ## The steps -/

theorem mainStep_moves (hu : u.limit ≤ uintMod) (hs : Stands s R) {main : Main}
    (hm : s.main = main) (h : s.mainStep u main a = some s') :
    ∃ R', Stands s' R' ∧ Moves u s R a s' R' := by
  unfold State.mainStep at h
  split at h
  case h_1 => exact newMonitor_moves hs hm h
  case h_2 => exact subscribe_moves hs hm h
  case h_3 => exact populate_moves hu hs hm h
  case h_4 => exact clear_moves hs hm h
  case h_5 =>
    cases h
    exact kevent_moves hs hm _
  case h_6 =>
    cases h
    exact receive_moves hs hm _
  case h_7 => exact attach_moves hu hs hm h
  case h_8 => exact detach_moves hu hs hm h
  case h_9 =>
    obtain ⟨m, hset⟩ := hs.monitor (by simp [hm])
    obtain ⟨w, rfl, hw⟩ := freeMonitor_some hset h
    exact ⟨R.release, freed_stands hs hw, .freed hm⟩
  case h_10 =>
    obtain ⟨m, hset⟩ := hs.monitor (by simp [hm])
    obtain ⟨r, w, e, rfl⟩ := callResult_some h
    obtain ⟨R', hw, he, hl⟩ := hset.register e
    exact ⟨R', hs.idle hm hw, .registered hm he hl⟩
  case h_11 =>
    obtain ⟨m, hset⟩ := hs.monitor (by simp [hm])
    obtain ⟨w, e, rfl⟩ := call_some h
    exact ⟨_, hs.idle hm (hset.deregister e), .deregistered hm⟩
  case h_12 =>
    obtain ⟨m, hset⟩ := hs.monitor (by simp [hm])
    obtain ⟨r, w, e, rfl⟩ := callResult_some h
    exact ⟨_, hs.idle hm (hset.list hu e), .listed hm⟩
  case h_13 f os =>
    split at h
    next hout =>
      obtain ⟨r, w, e, rfl⟩ := callResult_some h
      have ho : s.main.outside = true := hm ▸ hout
      obtain ⟨mon, hset, hput⟩ := hs.outside ho
      obtain ⟨r', w', R', e', hb, hbusy, hk, hlog⟩ := enumerate_spec hu hset.bound f os
      rw [e'] at e
      cases e
      exact ⟨R', hput ⟨hb, hk.ok hset.ok, hbusy.trans hset.busy⟩, .enumerated ho hk hlog⟩
    next => cases h
  case h_14 =>
    split at h
    next hout =>
      obtain ⟨w, e, rfl⟩ := call_some h
      have ho : s.main.outside = true := hm ▸ hout
      obtain ⟨mon, hset, hput⟩ := hs.outside ho
      exact ⟨R, hput (hset.userAct hu e), .acted ho⟩
    next => cases h
  case h_15 => cases h

theorem step_moves (hu : u.limit ≤ uintMod) (hs : Stands s R) (h : step u s a = some s') :
    ∃ R', Stands s' R' ∧ Moves u s R a s' R' := by
  unfold step at h
  simp only [Option.orElse_eq_orElse, Option.orElse_eq_or, Option.or_eq_some_iff] at h
  rcases h with h | ⟨-, h⟩
  · exact mainStep_moves hu hs rfl h
  · unfold State.systemStep at h
    split at h
    case h_1 v =>
      obtain ⟨kit, e, h⟩ := Option.bind_eq_some_iff.mp h
      cases h
      exact ⟨R, ⟨hs.settled, hs.silent, hs.ret⟩, .arrived e⟩
    case h_2 session =>
      obtain ⟨kit, e, h⟩ := Option.bind_eq_some_iff.mp h
      cases h
      rw [hs.log]
      exact ⟨R, ⟨hs.settled, hs.silent, hs.ret⟩, .ended e⟩
    case h_3 => cases h

end Libhs.Darwin.Monitor
