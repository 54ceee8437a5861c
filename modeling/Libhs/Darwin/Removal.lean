import Libhs.Darwin.Ghosts

/-!
# Removal of a session on macOS

`process_darwin_device` writes a session as a key of any length, `remove_device` as one
of at most 15 digits. The sixteenth digit of a session from `2 ^ 60` on is lost: its
devices stay in the table, and those of the session without that digit go.
-/

namespace Libhs.Darwin

/-! ## The two keys -/

theorem hexadecimal_div {n : Nat} (hn : 16 ≤ n) :
    hexadecimal n = hexadecimal (n / 16) ++ [hexDigit (n % 16)] := by
  unfold hexadecimal
  rw [if_neg (by omega), if_neg (by omega), Nat.digits_def' (by decide) (by omega),
    List.map_cons, List.reverse_cons]

theorem hexadecimal_length {n k : Nat} (hk : 16 ^ k ≤ n) (hn : n < 16 ^ (k + 1)) :
    (hexadecimal n).length = k + 1 := by
  have hpos : n ≠ 0 := by
    have := Nat.pow_pos (n := k) (show 0 < 16 by decide)
    omega
  unfold hexadecimal
  rw [if_neg hpos, List.length_reverse, List.length_map]
  have hlt := (Nat.lt_digits_length_iff (b := 16) (by decide) n (k := k)).mpr hk
  have hle := (Nat.digits_length_le_iff (b := 16) (k := k + 1) (by decide) n).mpr hn
  omega

/-- A key of 16 digits loses the last one. -/
theorem removalKey_cut {session : UInt64} (h : 2 ^ 60 ≤ session.toNat) :
    removalKey session = sessionKey (session / 16) := by
  have hdiv : (session / 16).toNat = session.toNat / 16 := UInt64.toNat_div ..
  have hlt := session.toNat_lt
  have hlen : (hexadecimal (session.toNat / 16)).length = 15 :=
    hexadecimal_length (by omega) (by omega)
  refine CStr.ext ?_
  show (hexadecimal session.toNat).take 15 = hexadecimal (session / 16).toNat
  rw [hexadecimal_div (by omega), hdiv, ← hlen, List.take_left]

namespace Monitor
open Run

/-! ## The property -/

/-- A device of the session is in the table. -/
def Lists (w : World) (d : Nat) (session : UInt64) : Prop :=
  InTable w.table d ∧ ∃ D, w.devs.get d = some D ∧ D.key = some (sessionKey session)

/-- From `w` to `w'` the table loses all devices of a session, and none of the other sessions. -/
structure Removes (w w' : World) (session : UInt64) : Prop where
  gone : ∀ d, ¬ Lists w' d session
  kept : ∀ d other, other ≠ session → Lists w d other → Lists w' d other

/-- The keys of the table are written by `process_darwin_device`. -/
def SessionKeys (R : Roster) : Prop := ∀ e ∈ R.entries, ∃ session, e.key = sessionKey session

variable {u : User} {s s' : State} {R R' : Roster} {a : Action} {w w' : World} {m d : Nat}
  {session : UInt64}

theorem lists_iff (hr : Rep w m R) :
    Lists w d session ↔ ∃ e ∈ R.entries, e.dev = d ∧ e.key = sessionKey session := by
  constructor
  · rintro ⟨hd, D, hD, hk⟩
    obtain ⟨e, he, rfl⟩ := List.mem_map.mp ((hr.linked d).mpr hd)
    have hkey := (hr.fields e he D hD).1
    exact ⟨e, he, rfl, Option.some.inj (hkey.symm.trans hk)⟩
  · rintro ⟨e, he, rfl, hk⟩
    obtain ⟨D, hD⟩ := hr.live (mem_devs he)
    exact ⟨(hr.linked e.dev).mp (mem_devs he), D, hD, hk ▸ (hr.fields e he D hD).1⟩

/-- What is left of the table when the devices with a key are removed. -/
theorem lists_remove {key : CStr} (hr : Rep w m R) (hr' : Rep w' m (R.remove u m key)) :
    Lists w' d session ↔ Lists w d session ∧ sessionKey session ≠ key := by
  rw [lists_iff hr, lists_iff hr', remove_entries hr.distinct]
  constructor
  · rintro ⟨e, he, rfl, hk⟩
    obtain ⟨he, hne⟩ := List.mem_filter.mp he
    exact ⟨⟨e, he, rfl, hk⟩, hk ▸ of_decide_eq_true hne⟩
  · rintro ⟨⟨e, he, rfl, hk⟩, hne⟩
    exact ⟨e, List.mem_filter.mpr ⟨he, decide_eq_true (hk ▸ hne)⟩, rfl, hk⟩

theorem sessionKey_ne_cut (h : 2 ^ 60 ≤ session.toNat) : sessionKey session ≠ removalKey session := by
  rw [removalKey_cut h]
  intro hkey
  have hdiv : session.toNat = session.toNat / 16 :=
    (congrArg UInt64.toNat (sessionKey_inj hkey)).trans (UInt64.toNat_div ..)
  omega

/-- `remove_device` works if the key is not cut, or the two sessions that it mixes up have no
devices. -/
theorem removeDevice_iff (hu : u.limit ≤ uintMod) (hr : Rep w m R) (session : UInt64) :
    ∃ w', removeDevice u true session w = some w' ∧
      (Removes w w' session ↔ session.toNat < 2 ^ 60 ∨
        ∀ d, ¬ Lists w d session ∧ ¬ Lists w d (session / 16)) := by
  obtain ⟨w', e, hr', -⟩ := monitorRemove_spec hu hr (removalKey session)
  refine ⟨w', e, fun hrem => ?_, fun h => ?_⟩
  · rcases Nat.lt_or_ge session.toNat (2 ^ 60) with hsmall | hbig
    · exact Or.inl hsmall
    refine Or.inr fun d => ⟨fun hd => ?_, fun hd => ?_⟩
    · -- the devices of the session have another key
      exact hrem.gone d ((lists_remove hr hr').mpr ⟨hd, sessionKey_ne_cut hbig⟩)
    · -- those with the key are of another session
      have hne : session / 16 ≠ session := by
        intro heq
        refine sessionKey_ne_cut hbig ?_
        rw [removalKey_cut hbig, heq]
      exact ((lists_remove hr hr').mp (hrem.kept d _ hne hd)).2 (removalKey_cut hbig).symm
  · have hkey : ∀ {d other}, Lists w d other → (sessionKey other = removalKey session ↔
        session.toNat < 2 ^ 60 ∧ other = session) := by
      intro d other hd
      rcases Nat.lt_or_ge session.toNat (2 ^ 60) with hsmall | hbig
      · rw [removalKey_eq hsmall]
        exact ⟨fun h => ⟨hsmall, sessionKey_inj h⟩, fun h => congrArg sessionKey h.2⟩
      · refine ⟨fun hcut => ?_, fun h => absurd h.1 (Nat.not_lt.mpr hbig)⟩
        rw [removalKey_cut hbig] at hcut
        have hnone := h.resolve_left (Nat.not_lt.mpr hbig)
        exact absurd (sessionKey_inj hcut ▸ hd) (hnone d).2
    refine ⟨fun d hd => ?_, fun d other hne hd => ?_⟩
    · obtain ⟨hd, hk⟩ := (lists_remove hr hr').mp hd
      rcases h with hsmall | hnone
      · exact hk ((hkey hd).mpr ⟨hsmall, rfl⟩)
      · exact (hnone d).1 hd
    · exact (lists_remove hr hr').mpr ⟨hd, fun hk => hne ((hkey hd).mp hk).2⟩

/-! ## Every table -/

theorem sessionKeys_moves (hs : Stands s R) (hkeys : SessionKeys R) (h : Moves u s R a s' R') : SessionKeys R' := by
  have hadd : ∀ {os : ReadOs} {r : Int} {R' : Roster} {m : Nat}, Adds u m os.read R r R' →
      SessionKeys R' := by
    intro os r R' m h e he
    rcases h.read he with he | ⟨D, hread, hk⟩
    · exact hkeys e he
    · obtain ⟨session, hD⟩ := read_ok hread
      exact ⟨session, Option.some.inj (hk.symm.trans hD.key)⟩
  have hempty : ∀ {R' : Roster}, R'.entries = [] → SessionKeys R' := by
    intro R' h e he
    rw [h] at he
    exact absurd he List.not_mem_nil
  cases h with
  | failed | notSubscribed | notPopulated | freed => exact hempty rfl
  | started => exact hempty rfl
  | populated _ _ _ h => exact hadd h
  | attached _ _ _ h => exact hadd h
  | aborted _ _ _ _ h => exact hadd h
  | @detached pick ok it it' session m w =>
    cases ok with
    | true =>
      intro e he
      rw [if_pos rfl, remove_entries hs.ok.devs] at he
      exact hkeys e (List.mem_filter.mp he).1
    | false => exact hkeys
  | registered _ he => exact fun e h => hkeys e (he ▸ h)
  | enumerated _ hk => exact fun e h => hkeys e (hk.entries ▸ h)
  | _ => exact hkeys

/-- In every run, each device of the table has a session. -/
theorem table_sessions (react : List Event → Nat → Notice → Reaction) (services : List Service)
    (actions : List Action)
    (hrun : run (step (.careful react)) (State.start services) actions = some s)
    (hd : InTable s.world.table d) :
    ∃ session, Lists s.world d session := by
  have hu : (User.careful react).limit ≤ uintMod := Nat.le_refl uintMod
  obtain ⟨R, hs, hkeys⟩ : ∃ R, Stands s R ∧ SessionKeys R := by
    refine run_rule_always (I := fun s => ∃ R, Stands s R ∧ SessionKeys R) ?_
      ⟨Roster.empty, stands_start services, fun e he => absurd he List.not_mem_nil⟩ hrun
    rintro s a s' ⟨R, hs, hkeys⟩ h
    obtain ⟨R', hs', hmove⟩ := step_moves hu hs h
    exact ⟨R', hs', sessionKeys_moves hs hkeys hmove⟩
  obtain ⟨e, he, rfl⟩ := List.mem_map.mp ((hs.linked d).mpr hd)
  obtain ⟨D, hD, hk⟩ := hs.key he
  obtain ⟨session, hkey⟩ := hkeys e he
  exact ⟨session, hd, D, hD, hkey ▸ hk⟩

/-- Whatever happened to the monitor: `remove_device` takes exactly the devices of the session out
of the table, if and only if the session has at most 15 digits or neither it nor the one without
its last digit has a device there. -/
theorem removal_matches_iff (react : List Event → Nat → Notice → Reaction) (services : List Service)
    (actions : List Action)
    (hrun : run (step (.careful react)) (State.start services) actions = some s)
    (hm : s.main ≠ .absent) (session : UInt64) :
    ∃ w', removeDevice (.careful react) true session s.world = some w' ∧
      (Removes s.world w' session ↔ session.toNat < 2 ^ 60 ∨
        ∀ d, ¬ Lists s.world d session ∧ ¬ Lists s.world d (session / 16)) := by
  have hu : (User.careful react).limit ≤ uintMod := Nat.le_refl uintMod
  obtain ⟨R, hs⟩ : ∃ R, Stands s R := by
    refine run_rule_always (I := fun s => ∃ R, Stands s R) ?_
      ⟨Roster.empty, stands_start services⟩ hrun
    rintro s a s' ⟨R, hs⟩ h
    obtain ⟨R', hs', -⟩ := step_moves hu hs h
    exact ⟨R', hs'⟩
  obtain ⟨m, hset⟩ := hs.monitor hm
  exact removeDevice_iff hu hset.bound session

/-- The keyboard with the session 5 is removed. -/
theorem removal_matches_keyboard : ∃ s w',
    run (step (.careful fun _ _ _ => ⟨[], 0⟩)) (State.start [keyboard])
        (populateAll ++ [.subscribe true, .clear 0]) = some s ∧
      removeDevice (.careful fun _ _ _ => ⟨[], 0⟩) true 5 s.world = some w' ∧
        Removes s.world w' 5 := by
  obtain ⟨s, hrun, hidle⟩ := Option.map_eq_some_iff.mp (by decide +kernel :
    (run (step (.careful fun _ _ _ => ⟨[], 0⟩)) (State.start [keyboard])
      (populateAll ++ [.subscribe true, .clear 0])).map State.main = some .idle)
  obtain ⟨w', e, h⟩ := removal_matches_iff _ _ _ hrun (by rw [hidle]; decide) 5
  exact ⟨s, w', hrun, e, h.mpr (Or.inl (by decide))⟩

/-! ## A session of 16 digits -/

/-- A keyboard on a session of 16 digits. -/
def lateKeyboard : Service := { keyboard with session := 0x1000000000000000 }

def lateKeyboardOs : ReadOs := { keyboardOs with sessionID := some 0x1000000000000000 }

/-- `hs_monitor_new` with the keyboard plugged in. -/
def findLateKeyboard : List Action :=
  [.newMonitor .fine, .subscribe true, .attach 0 lateKeyboardOs, .attach 0 lateKeyboardOs,
    .subscribe true, .attach 0 lateKeyboardOs, .subscribe true, .clear 0]

/-- Its removal leaves it in the table. -/
theorem removal_leaves_keyboard : ∃ s,
    run (step (.careful fun _ _ _ => ⟨[], 0⟩)) (State.start [lateKeyboard]) findLateKeyboard =
        some s ∧ s.main ≠ .absent ∧
      ∃ w', removeDevice (.careful fun _ _ _ => ⟨[], 0⟩) true 0x1000000000000000 s.world = some w' ∧
        ¬ Removes s.world w' 0x1000000000000000 := by
  obtain ⟨s, hrun, h⟩ := Option.map_eq_some_iff.mp (by decide +kernel :
    (run (step (.careful fun _ _ _ => ⟨[], 0⟩)) (State.start [lateKeyboard]) findLateKeyboard).map
      (fun s => (decide (s.main ≠ .absent),
        (removeDevice (.careful fun _ _ _ => ⟨[], 0⟩) true 0x1000000000000000 s.world).map fun w =>
          decide (home (sessionKey 0x1000000000000000) < w.table.size ∧
            w.table.next (.cell (home (sessionKey 0x1000000000000000))) = some (some (.node 0)) ∧
            w.table.next (.node 0) = some (some (.cell (home (sessionKey 0x1000000000000000)))) ∧
            (w.devs.get 0).bind HsDevice.key = some (sessionKey 0x1000000000000000)))) =
      some (true, some true))
  obtain ⟨w', e, h'⟩ := Option.map_eq_some_iff.mp (congrArg Prod.snd h)
  obtain ⟨hsize, hcell, hnode, hkey⟩ := of_decide_eq_true h'
  obtain ⟨D, hD, hk⟩ := Option.bind_eq_some_iff.mp hkey
  refine ⟨s, hrun, of_decide_eq_true (congrArg Prod.fst h), w', e, fun hrem => hrem.gone 0 ?_⟩
  exact ⟨⟨_, [0], hsize, ⟨⟨hcell, hnode, trivial⟩, by simp⟩, by simp⟩, D, hD, hk⟩

end Monitor
end Libhs.Darwin
