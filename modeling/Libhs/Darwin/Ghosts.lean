import Libhs.Darwin.Moves
import Libhs.Lib.Run

/-!
# Ghost devices of the macOS monitor

`hs_monitor_new` adds the devices it finds class by class, then subscribes to the
terminations, and empties the new iterator without looking at what it holds. A USB
device that terminates in between, with a device in the table, is never removed
(`ghost_device`). `no_ghosts`: that is all that can go wrong. Once the iterator of the
terminations is watched, each termination of a session with a device in the table
waits in it (`Watch`), and its message is on the port or being handled.
-/

namespace Libhs.Darwin.Monitor
open Run

/-! ## The property -/

/-- The points at which `hs_monitor_new` has returned a monitor. -/
def Main.watching : Main → Bool
  | .idle | .receiving | .attaching _ | .detaching => true
  | _ => false

/-- The monitor is made, and every notification was delivered. -/
def State.delivered (s : State) : Prop := s.main = .idle ∧ s.kit.port = []

/-- No device of the table was in the table when its USB device terminated. -/
def State.NoGhosts (s : State) : Prop :=
  ∀ t ∈ s.terminations, ∀ d, .inserted d (sessionKey t.session) ∈ t.log → ¬ InTable s.world.table d

/-- Properties are read, and keys are not cut. -/
def legible (_ : State) : Action → Prop
  | .detach _ ok => ok = true
  | .terminate session => session.toNat < 2 ^ 60
  | _ => True

/-- A USB device with a device in the table terminates only after `hs_monitor_new` has emptied the
iterator of the terminations. -/
def inTime (s : State) : Action → Prop
  | .terminate session => s.main.watching = true ∨
      ∀ d D, InTable s.world.table d → s.world.devs.get d = some D →
        D.key ≠ some (sessionKey session)
  | _ => True

/-! ## The invariant -/

/-- What is known of the terminations. -/
structure Watch (s : State) (R : Roster) : Prop where
  logs : ∀ t ∈ s.terminations, t.log <+: R.log
  small : ∀ it, s.kit.terminated = some it → ∀ session ∈ it.pending, session.toNat < 2 ^ 60
  bell : s.main.watching = true → ∃ it, s.kit.terminated = some it ∧
    (it.armed = true → it.pending = []) ∧
    (it.armed = false → .detached ∈ s.kit.port ∨ s.main = .detaching)
  ghosts : ∀ t ∈ s.terminations, ∀ e ∈ R.entries, .inserted e.dev (sessionKey t.session) ∈ t.log →
    s.main.watching = true ∧ ∃ it, s.kit.terminated = some it ∧ t.session ∈ it.pending

variable {u : User} {s s' : State} {R R' : Roster} {a : Action} {m : Nat}

/-- A step that leaves the terminations alone, and puts new devices only into the table. -/
theorem Watch.mono (hw : Watch s R) (hts : s'.terminations = s.terminations)
    (hit : s'.kit.terminated = s.kit.terminated) (hm : s'.main.watching = s.main.watching)
    (hbell : .detached ∈ s.kit.port ∨ s.main = .detaching →
      .detached ∈ s'.kit.port ∨ s'.main = .detaching)
    (hlog : R.log <+: R'.log)
    (hent : ∀ e ∈ R'.entries, e ∈ R.entries ∨ ∀ k, .inserted e.dev k ∉ R.log) : Watch s' R' := by
  refine ⟨fun t ht => ?_, fun it h => ?_, fun h => ?_, fun t ht e he hin => ?_⟩
  · rw [hts] at ht
    exact (hw.logs t ht).trans hlog
  · rw [hit] at h
    exact hw.small it h
  · rw [hm] at h
    obtain ⟨it, h₁, h₂, h₃⟩ := hw.bell h
    exact ⟨it, hit.trans h₁, h₂, fun ha => hbell (h₃ ha)⟩
  · rw [hts] at ht
    rw [hm, hit]
    rcases hent e he with he | hnew
    · exact hw.ghosts t ht e he hin
    · exact absurd ((hw.logs t ht).subset hin) (hnew _)

/-- The monitor is gone, or is new. -/
theorem Watch.reset (hw : Watch s R) (hts : s'.terminations = s.terminations)
    (hit : s'.kit.terminated = s.kit.terminated ∨ s'.kit.terminated = none)
    (hm : s'.main.watching = false) (hlog : R.log <+: R'.log) (hent : R'.entries = []) :
    Watch s' R' := by
  refine ⟨fun t ht => ?_, fun it h => ?_, fun h => ?_, fun t ht e he => ?_⟩
  · rw [hts] at ht
    exact (hw.logs t ht).trans hlog
  · rcases hit with hit | hit
    · exact hw.small it (hit ▸ h)
    · rw [hit] at h
      cases h
  · rw [hm] at h
    cases h
  · rw [hent] at he
    exact absurd he List.not_mem_nil

theorem release_grows (R : Roster) : R.log <+: R.release.log := List.prefix_append ..

/-- The removal of a session takes its devices out of the table. -/
theorem remove_drops {session : UInt64} {e : Entry} (hok : R.Ok)
    (he : e ∈ (R.remove u m (sessionKey session)).entries) :
    e ∈ R.entries ∧ .inserted e.dev (sessionKey session) ∉ R.log := by
  rw [remove_entries hok.devs] at he
  obtain ⟨he, hk⟩ := List.mem_filter.mp he
  refine ⟨he, fun hin => ?_⟩
  have hkey := hok.life.key_unique (hok.life.entry he) hin
  simp [hkey] at hk

/-- A device that is read was never in the table before. -/
theorem adds_unheard {res : Except Int HsDevice} {r : Int} (h : Adds u m res R r R') :
    ∀ e ∈ R'.entries, e ∈ R.entries ∨ ∀ k, .inserted e.dev k ∉ R.log := by
  intro e he
  rcases h.entries with hE | ⟨e', hE, hnew⟩
  · exact Or.inl (hE ▸ he)
  · rw [hE] at he
    rcases List.mem_cons.mp he with rfl | he
    · exact Or.inr hnew.2
    · exact Or.inl he

/-- As long as the iterator of the terminations is not watched, no device of the table has
terminated, and its content does not matter. -/
theorem Watch.unwatched {it : Iterator UInt64} (hw : Watch s R)
    (hts : s'.terminations = s.terminations) (hout : s.main.watching = false)
    (hit : s'.kit.terminated = some it) (hsmall : ∀ session ∈ it.pending, session.toNat < 2 ^ 60)
    (hbell : s'.main.watching = true → it = ⟨[], true⟩) : Watch s' R := by
  refine ⟨fun t ht => ?_, fun it₁ h => ?_, fun h => ?_, fun t ht e he hin => ?_⟩
  · rw [hts] at ht
    exact hw.logs t ht
  · rw [hit] at h
    cases h
    exact hsmall
  · obtain rfl := hbell h
    exact ⟨_, hit, fun _ => rfl, nofun⟩
  · rw [hts] at ht
    have hwatch := (hw.ghosts t ht e he hin).1
    rw [hout] at hwatch
    cases hwatch

/-- A termination is taken out of the iterator, and its session out of the table. -/
theorem Watch.detached {it it' : Iterator UInt64} {session : UInt64} {pick : Nat} {w : World}
    (hw : Watch s R) (hs : Stands s R) (hm : s.main = .detaching)
    (hit : s.kit.terminated = some it) (hnext : it.next pick = some (some session, it')) :
    Watch { s with kit := { s.kit with terminated := some it' }, world := w }
      (R.remove u m (removalKey session)) := by
  obtain ⟨hperm, harmed⟩ := next_some hnext
  have hkey : removalKey session = sessionKey session :=
    removalKey_eq (hw.small it hit session (hperm.subset List.mem_cons_self))
  rw [hkey]
  refine ⟨fun t ht => (hw.logs t ht).trans remove_routine.grows, fun it₁ h => ?_, fun _ => ?_,
    fun t ht e he hin => ?_⟩
  · cases h
    exact fun x hx => hw.small it hit x (hperm.subset (List.mem_cons_of_mem _ hx))
  · obtain ⟨it₁, h₁, h₂, -⟩ := hw.bell (by rw [hm]; rfl)
    rw [hit] at h₁
    cases h₁
    refine ⟨it', rfl, fun ha => ?_, fun _ => Or.inr hm⟩
    have hnil := h₂ (harmed ▸ ha)
    rw [hnil] at hperm
    exact absurd hperm.length_eq (by simp)
  · obtain ⟨he, hne⟩ := remove_drops hs.ok he
    obtain ⟨hwatch, it₁, h₁, hmem⟩ := hw.ghosts t ht e he hin
    rw [hit] at h₁
    cases h₁
    refine ⟨hwatch, it', rfl, ?_⟩
    -- the session that was taken out has left the table, and the others still wait
    rcases List.mem_cons.mp (hperm.symm.subset hmem) with rfl | hmem
    · exact absurd ((hw.logs t ht).subset hin) hne
    · exact hmem

/-- A USB device terminates, and a watched iterator takes note of it. -/
theorem Watch.ended {session : UInt64} {kit : Kit} (hw : Watch s R) (hs : Stands s R)
    (hsmall : session.toNat < 2 ^ 60) (htime : inTime s (.terminate session))
    (h : s.kit.terminate session = some kit) :
    Watch { s with kit := kit, terminations := s.terminations ++ [⟨session, R.log⟩] } R := by
  obtain ⟨-, hcase⟩ := terminate_some h
  have hlogs : ∀ t ∈ s.terminations ++ [⟨session, R.log⟩], t.log <+: R.log := by
    intro t ht
    rcases List.mem_append.mp ht with ht | ht
    · exact hw.logs t ht
    · rw [List.mem_singleton.mp ht]
  -- before the iterator is watched, no device of the session is in the table
  have hwatched : ∀ e ∈ R.entries, .inserted e.dev (sessionKey session) ∈ R.log →
      s.main.watching = true := by
    intro e he hin
    rcases htime with hwatch | hnone
    · exact hwatch
    · obtain ⟨D, hD, hk⟩ := hs.key he
      have hkey := hs.ok.life.key_unique (hs.ok.life.entry he) hin
      exact absurd (hkey ▸ hk) (hnone e.dev D ((hs.linked e.dev).mp (mem_devs he)) hD)
  rcases hcase with ⟨hnone, rfl⟩ | ⟨it, hit, rfl⟩
  · have hout : ¬ s.main.watching = true := by
      intro hwatch
      obtain ⟨it, h₁, -⟩ := hw.bell hwatch
      rw [hnone] at h₁
      cases h₁
    refine ⟨hlogs, hw.small, fun hwatch => absurd hwatch hout, fun t ht e he hin => ?_⟩
    rcases List.mem_append.mp ht with ht | ht
    · exact absurd (hw.ghosts t ht e he hin).1 hout
    · rw [List.mem_singleton.mp ht] at hin
      exact absurd (hwatched e he hin) hout
  · refine ⟨hlogs, fun it₁ h => ?_, fun hwatch => ⟨_, rfl, nofun, fun _ => ?_⟩,
      fun t ht e he hin => ?_⟩
    · cases h
      intro x hx
      rcases List.mem_append.mp hx with hx | hx
      · exact hw.small it hit x hx
      · rw [List.mem_singleton.mp hx]
        exact hsmall
    · obtain ⟨it₁, h₁, -, h₃⟩ := hw.bell hwatch
      rw [hit] at h₁
      cases h₁
      show Callout.detached ∈ (if it.armed then _ else _) ∨ _
      split
      next => exact Or.inl (List.mem_append_right _ List.mem_cons_self)
      -- an iterator that is not armed has its message on the port already
      next ha => exact h₃ (by simpa using ha)
    · rcases List.mem_append.mp ht with ht | ht
      · obtain ⟨hwatch, it₁, h₁, hmem⟩ := hw.ghosts t ht e he hin
        rw [hit] at h₁
        cases h₁
        exact ⟨hwatch, _, rfl, List.mem_append_left _ hmem⟩
      · rw [List.mem_singleton.mp ht] at hin ⊢
        exact ⟨hwatched e he hin, _, rfl, List.mem_append_right _ List.mem_cons_self⟩

theorem watch_moves (hs : Stands s R) (hw : Watch s R) (hleg : legible s a) (htime : inTime s a)
    (h : Moves u s R a s' R') : Watch s' R' := by
  have hsame : ∀ e ∈ R.entries, e ∈ R.entries ∨ ∀ k, .inserted e.dev k ∉ R.log :=
    fun e he => Or.inl he
  have hrfl := List.prefix_refl R.log
  cases h with
  | refused hm hno hneg => exact hw.mono rfl rfl rfl id hrfl hsame
  | failed hm hyes hneg => exact hw.reset rfl (Or.inr rfl) rfl (release_grows R) rfl
  | started hm hyes => exact hw.reset rfl (Or.inl rfl) rfl hrfl rfl
  | subscribed hm =>
    exact hw.mono rfl rfl (by rw [hm]; rfl) (by rw [hm]; simp [Kit.addMatched, Kit.setMatched])
      hrfl hsame
  | subscribedAll hm =>
    exact hw.unwatched rfl (by rw [hm]; rfl) rfl (fun _ hx => absurd hx List.not_mem_nil) nofun
  | notSubscribed hm hneg => exact hw.reset rfl (Or.inr rfl) rfl (release_grows R) rfl
  | populated hm hit hnext hadd => exact hw.mono rfl rfl rfl id hadd.routine.grows (adds_unheard hadd)
  | populatedAll hm hit hnext =>
    exact hw.mono rfl rfl (by rw [hm]; rfl) (by rw [hm]; simp [Kit.setMatched]) hrfl hsame
  | notPopulated hm hneg hadd =>
    exact hw.reset rfl (Or.inr rfl) rfl (hadd.routine.grows.trans (release_grows _)) rfl
  | @cleared pick it it' session hm hit hnext =>
    refine hw.unwatched rfl (by rw [hm]; rfl) rfl (fun x hx => ?_) fun h => ?_
    · exact hw.small it hit x ((next_some hnext).1.subset (List.mem_cons_of_mem _ hx))
    · rw [hm] at h
      cases h
  | @clearedAll pick it it' hm hit hnext =>
    obtain ⟨-, rfl⟩ := next_none hnext
    exact hw.unwatched rfl (by rw [hm]; rfl) rfl (fun _ hx => absurd hx List.not_mem_nil)
      fun _ => rfl
  | polled hm => exact hw.mono rfl rfl rfl id hrfl hsame
  | refreshing hm => exact hw.mono rfl rfl (by rw [hm]; rfl) (by rw [hm]; simp) hrfl hsame
  | timedOut hm => exact hw.mono rfl rfl (by rw [hm]; rfl) (by rw [hm]; simp) hrfl hsame
  | attaching hm hport =>
    exact hw.mono rfl rfl (by rw [hm]; rfl) (by rw [hm, hport]; simp) hrfl hsame
  | detaching hm hport =>
    exact hw.mono rfl rfl (by rw [hm]; rfl) (fun _ => Or.inr rfl) hrfl hsame
  | attached hm hit hnext hadd => exact hw.mono rfl rfl rfl id hadd.routine.grows (adds_unheard hadd)
  | attachedAll hm hit hnext =>
    exact hw.mono rfl rfl (by rw [hm]; rfl) (by rw [hm]; simp [Kit.setMatched]) hrfl hsame
  | aborted hm hit hnext hr hadd =>
    exact hw.mono rfl rfl (by rw [hm]; rfl) (by rw [hm]; simp [Kit.setMatched]) hadd.routine.grows
      (adds_unheard hadd)
  | @detached pick ok it it' session m w hm hit hnext =>
    obtain rfl : ok = true := hleg
    exact hw.detached hs hm hit hnext
  | @detachedAll pick ok it it' hm hit hnext =>
    obtain ⟨hnil, rfl⟩ := next_none hnext
    refine ⟨hw.logs, fun it₁ h => ?_, fun _ => ⟨_, rfl, fun _ => rfl, nofun⟩,
      fun t ht e he hin => ?_⟩
    · cases h
      exact fun _ hx => absurd hx List.not_mem_nil
    · obtain ⟨-, it₁, h₁, hmem⟩ := hw.ghosts t ht e he hin
      rw [hit] at h₁
      cases h₁
      rw [hnil] at hmem
      exact absurd hmem List.not_mem_nil
  | freed hm => exact hw.reset rfl (Or.inr rfl) rfl (release_grows R) rfl
  | registered hm he hl =>
    exact hw.mono rfl rfl rfl id (hl ▸ hrfl) (by rw [he]; exact hsame)
  | deregistered hm => exact hw.mono rfl rfl rfl id hrfl hsame
  | listed hm => exact hw.mono rfl rfl rfl id list_routine.grows hsame
  | enumerated ho hk hlog =>
    exact hw.mono rfl rfl rfl id hk.grows (by rw [hk.entries]; exact hsame)
  | acted ho => exact hw.mono rfl rfl rfl id hrfl hsame
  | @arrived v kit h =>
    obtain ⟨-, ⟨-, rfl⟩ | ⟨it, -, rfl⟩⟩ := arrive_some h
    · exact hw.mono rfl rfl rfl id hrfl hsame
    · refine hw.mono rfl rfl rfl (fun h => h.imp_left fun hd => ?_) hrfl hsame
      show Callout.detached ∈ if it.armed then _ else _
      split
      · exact List.mem_append_left _ hd
      · exact hd
  | ended h => exact hw.ended hs hleg htime h

/-! ## Runs -/

theorem watch_start (services : List Service) : Watch (State.start services) Roster.empty :=
  ⟨fun _ h => absurd h List.not_mem_nil, nofun, nofun, fun _ h => absurd h List.not_mem_nil⟩

/-- Whatever the user and the devices do, and wherever a USB device comes or goes: as long as none
with a device in the table terminates before the iterator of the terminations has been emptied, no
ghost is left when all notifications were delivered. -/
theorem no_ghosts (react : List Event → Nat → Notice → Reaction) (services : List Service)
    (actions : List Action)
    (hrun : run (step (.careful react)) (State.start services) actions = some s)
    (hlegible : Along (step (.careful react)) legible (State.start services) actions)
    (htime : Along (step (.careful react)) inTime (State.start services) actions)
    (hdone : s.delivered) : s.NoGhosts := by
  have hu : (User.careful react).limit ≤ uintMod := Nat.le_refl uintMod
  obtain ⟨R, hs, hw⟩ : ∃ R, Stands s R ∧ Watch s R := by
    refine run_rule (I := fun s => ∃ R, Stands s R ∧ Watch s R)
      (C := fun s a => legible s a ∧ inTime s a) ?_
      ⟨Roster.empty, stands_start services, watch_start services⟩ (hlegible.and htime) hrun
    rintro s a s' ⟨R, hs, hw⟩ ⟨hleg, ht⟩ h
    obtain ⟨R', hs', hmove⟩ := step_moves hu hs h
    exact ⟨R', hs', watch_moves hs hw hleg ht hmove⟩
  obtain ⟨hidle, hport⟩ := hdone
  intro t ht d hin hd
  obtain ⟨e, he, rfl⟩ := List.mem_map.mp ((hs.linked d).mpr hd)
  obtain ⟨hwatch, it, hit, hmem⟩ := hw.ghosts t ht e he hin
  obtain ⟨it₁, h₁, h₂, h₃⟩ := hw.bell hwatch
  rw [hit] at h₁
  cases h₁
  cases harmed : it.armed with
  | true =>
    rw [h₂ harmed] at hmem
    exact absurd hmem List.not_mem_nil
  | false =>
    rcases h₃ harmed with h | h
    · rw [hport] at h
      exact absurd h List.not_mem_nil
    · rw [hidle] at h
      cases h

instance (s : State) (a : Action) : Decidable (legible s a) := by
  unfold legible
  split <;> infer_instance

/-- The answers of a system where nothing fails. -/
def NewOs.fine : NewOs := ⟨none, true, true, true, true, true, true, true⟩

/-- A keyboard with the session 5, which is read without failure. -/
def keyboard : Service := ⟨.hid, 5, some 0⟩

def keyboardOs : ReadOs where
  iface := true
  device := true
  callocOk := true
  sessionID := some 5
  idVendor := some 0x05AC
  idProduct := some 0x0250
  interfaceNumber := some 0
  keyOk := true
  vendorName := .ok none
  productName := .ok none
  serialNumber := .ok none
  ports := [1]
  controller := 1
  locationOk := true
  node := .hid (.ok (.lit "IOService:/keyboard"))

/-- `hs_monitor_new` with the keyboard plugged in, up to the subscription to the terminations. -/
def populateAll : List Action :=
  [.newMonitor .fine, .subscribe true, .attach 0 keyboardOs, .attach 0 keyboardOs, .subscribe true,
    .attach 0 keyboardOs]

/-- The keyboard is unplugged after start-up, and a refresh is told of it. -/
def unplugLater : List Action :=
  populateAll ++ [.subscribe true, .clear 0, .terminate 5, .kevent true, .receive true,
    .detach 0 true, .detach 0 true, .receive true]

theorem no_ghosts_later : ∃ s,
    run (step (.careful fun _ _ _ => ⟨[], 0⟩)) (State.start [keyboard]) unplugLater = some s ∧
      s.NoGhosts := by
  obtain ⟨s, hrun, hdone⟩ := Option.map_eq_some_iff.mp (by decide +kernel :
    (run (step (.careful fun _ _ _ => ⟨[], 0⟩)) (State.start [keyboard]) unplugLater).map
      (fun s => (s.main, s.kit.port)) = some (.idle, []))
  refine ⟨s, hrun, no_ghosts _ _ _ hrun ?_ ?_ ⟨congrArg Prod.fst hdone, congrArg Prod.snd hdone⟩⟩
  · exact (along_of_check (c := fun s a => decide (legible s a)) (by decide +kernel)).mono
      fun _ _ h => of_decide_eq_true h
  · refine (along_of_check (c := fun s a => match a with
      | .terminate _ => s.main.watching
      | _ => true) (by decide +kernel)).mono fun s a h => ?_
    cases a with
    | terminate session => exact Or.inl h
    | _ => trivial

/-- The keyboard is unplugged between its arrival and the subscription to the terminations. -/
def unplugEarly : List Action :=
  populateAll ++ [.terminate 5, .subscribe true, .clear 0, .kevent true]

/-- It stays in the table. -/
theorem ghost_device : ∃ s,
    run (step (.careful fun _ _ _ => ⟨[], 0⟩)) (State.start [keyboard]) unplugEarly = some s ∧
      Along (step (.careful fun _ _ _ => ⟨[], 0⟩)) legible (State.start [keyboard]) unplugEarly ∧
      s.delivered ∧ ¬ s.NoGhosts := by
  obtain ⟨s, hrun, h⟩ := Option.map_eq_some_iff.mp (by decide +kernel :
    (run (step (.careful fun _ _ _ => ⟨[], 0⟩)) (State.start [keyboard]) unplugEarly).map
      (fun s => decide ((s.main = .idle ∧ s.kit.port = []) ∧
        (∃ t ∈ s.terminations, .inserted 0 (sessionKey t.session) ∈ t.log) ∧
        home (sessionKey 5) < s.world.table.size ∧
        s.world.table.next (.cell (home (sessionKey 5))) = some (some (.node 0)) ∧
        s.world.table.next (.node 0) = some (some (.cell (home (sessionKey 5)))))) = some true)
  obtain ⟨hdone, ⟨t, ht, hin⟩, hsize, hcell, hnode⟩ := of_decide_eq_true h
  refine ⟨s, hrun, ?_, hdone, fun hno => hno t ht 0 hin ?_⟩
  · exact (along_of_check (c := fun s a => decide (legible s a)) (by decide +kernel)).mono
      fun _ _ h => of_decide_eq_true h
  · exact ⟨home (sessionKey 5), [0], hsize, ⟨⟨hcell, hnode, trivial⟩, by simp⟩, by simp⟩

end Libhs.Darwin.Monitor
