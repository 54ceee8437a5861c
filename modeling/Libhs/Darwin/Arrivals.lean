import Libhs.Darwin.Ghosts
import Libhs.EventStream

/-!
# Arrivals on macOS and aborted callouts

A callback that returns a negative value ends the callout of its class, and the
services that are left stay in the iterator. The iterator was not read to its end, so
its notification is not armed and no later callout reads it: these services, and
every later one of the class, never get into the table (`stranded_device`).
`arrivals_served`: as long as no callout leaves a present service behind, and no
service arrives in an iterator that nobody will read, every present service is in
the table when all notifications were delivered (`Serve`).
-/

namespace Libhs.Darwin.Monitor
open Run Keyed

/-! ## The property -/

/-- `hs_monitor_list` enumerates every service that is present and handled by the library. -/
def State.Served (s : State) : Prop :=
  ∀ v ∈ s.kit.services, ∀ n, v.iface = some n → (some (sessionKey v.session), n) ∈ listed s.world

/-- The class whose iterator is being read. -/
def Main.reading : Main → Option DeviceClass
  | .populating c _ | .attaching c => some c
  | _ => none

/-- The service that `IOIteratorNext` gives, and what is left in the iterator. -/
def State.picked (s : State) (pick : Nat) : Option (Service × List Service) := do
  let c ← s.main.reading
  let it ← s.kit.matched c
  let (v, it') ← it.next pick
  v.map (·, it'.pending)

/-- `os` are answers for the service `v`: a service that the library handles is read with its own
key and interface, and only one that is gone or not handled is ignored. -/
def Service.ReadAs (v : Service) (kit : Kit) (os : ReadOs) : Prop :=
  match os.read with
  | .ok D => D.key = some (sessionKey v.session) ∧ v.iface = some D.iface
  | .error e => e = 0 ∧ (v ∈ kit.services → v.iface = none)

/-- Devices and properties are read, and keys are not cut. -/
def State.honest (s : State) : Action → Prop
  | .attach pick os => ∀ p ∈ s.picked pick, p.1.ReadAs s.kit os
  | .detach _ ok => ok = true
  | .terminate session => session.toNat < 2 ^ 60
  | _ => True

/-- A callback returned a negative value. -/
def refuses : Event → Bool
  | .notify _ _ ret => ret < 0
  | _ => false

/-- The iterator of a class is being read, or a message says that it is to be read. -/
def State.heeds (s : State) (c : DeviceClass) : Prop :=
  .attached c ∈ s.kit.port ∨ s.main.reading = some c

/-- No callback returns a negative value while a service that is present is left in the iterator, and
no service arrives in an iterator that is neither armed nor going to be read. -/
def State.unbroken (u : User) (s : State) : Action → Prop
  | .attach pick os => ∀ p ∈ s.picked pick, (∃ v ∈ p.2, v ∈ s.kit.services) →
      ∀ s', step u s (.attach pick os) = some s' →
        ∀ ev ∈ s'.world.log.drop s.world.log.length, refuses ev = false
  | .arrive v => ∀ it, s.kit.matched v.cls = some it → it.armed = true ∨ s.heeds v.cls
  | _ => True

/-! ## The invariant -/

/-- The classes whose arrivals are not subscribed to yet. -/
def Main.remaining : Main → List DeviceClass
  | .absent => deviceClasses
  | .subscribing classes | .populating _ classes => classes
  | _ => []

theorem mem_deviceClasses (c : DeviceClass) : c ∈ deviceClasses := by cases c <;> decide

/-- What is known of the services that are present. -/
structure Serve (s : State) (R : Roster) : Prop where
  alive : ∀ v ∈ s.kit.services, v.session ∉ s.kit.ended
  dead : ∀ it, s.kit.terminated = some it → ∀ session ∈ it.pending,
    session ∈ s.kit.ended ∧ session.toNat < 2 ^ 60
  absent : s.main = .absent → ∀ c, s.kit.matched c = none
  subscribed : ∀ c, s.kit.matched c = none → c ∈ s.main.remaining
  armed : ∀ c it, s.kit.matched c = some it → it.armed = true → it.pending = []
  served : ∀ v ∈ s.kit.services, ∀ n, v.iface = some n →
    s.kit.matched v.cls = none ∨
      (∃ it, s.kit.matched v.cls = some it ∧ v ∈ it.pending ∧ s.heeds v.cls) ∨
      (sessionKey v.session, n) ∈ R.pairs

variable {u : User} {s s' : State} {R R' : Roster} {a : Action} {m pick : Nat} {os : ReadOs}
  {c : DeviceClass} {it it' : Iterator Service} {v : Service} {r : Int} {res : Except Int HsDevice}

/-! ## What a callback does to a callout -/

/-- A dispatch that does not return 0 was ended by a callback. -/
theorem dispatch_refused {n : Notice} (cs : List Listener) (log : List Event)
    (h : (dispatch u n cs log).1 ≠ 0) :
    ∃ ev ∈ (dispatch u n cs log).2.2.drop log.length, refuses ev = true := by
  induction cs generalizing log with
  | nil => exact absurd rfl h
  | cons c cs ih =>
    simp only [dispatch] at h ⊢
    split
    next hneg =>
      refine ⟨.notify c.id n (u.react log c.f n).ret, ?_, decide_eq_true hneg⟩
      rw [List.drop_left]
      exact List.mem_singleton_self _
    next hneg =>
      rw [if_neg hneg] at h
      obtain ⟨ev, hev, href⟩ := ih _ h
      refine ⟨ev, ?_, href⟩
      rw [List.length_append, List.length_singleton, ← List.drop_drop] at hev
      exact List.mem_of_mem_drop hev

theorem add_refused {e : Entry} (h : (R.add u m e).1 ≠ 0) :
    ∃ ev ∈ (R.add u m e).2.log.drop R.log.length, refuses ev = true := by
  by_cases hp : e.pair ∈ R.entries.map Entry.pair
  · rw [add_of_mem hp] at h
    exact absurd rfl h
  · rw [add_of_not_mem hp] at h ⊢
    obtain ⟨ev, hev, href⟩ := dispatch_refused R.listeners _ h
    refine ⟨ev, ?_, href⟩
    rw [Roster.emit, List.length_append, List.length_singleton, ← List.drop_drop] at hev
    exact List.mem_of_mem_drop hev

theorem adds_refused (h : Adds u m res R r R') (hr : r ≠ 0) :
    res = .error r ∨ ∃ ev ∈ R'.log.drop R.log.length, refuses ev = true := by
  obtain ⟨d, hd, h⟩ := h
  cases res with
  | error e =>
    obtain ⟨rfl, -⟩ := h
    exact Or.inl rfl
  | ok D =>
    obtain ⟨key, -, h⟩ := h
    have hfst : r = _ := congrArg Prod.fst h
    have hsnd : R' = _ := congrArg Prod.snd h
    rw [hsnd]
    exact Or.inr (add_refused (R := R.setStatus d .disconnected) (hfst ▸ hr))

/-- Reading a service puts it into the table, and takes none out. -/
theorem adds_pairs (h : Adds u m os.read R r R') (hread : v.ReadAs s.kit os) :
    R.pairs ⊆ R'.pairs ∧ ∀ n, v ∈ s.kit.services → v.iface = some n →
      (sessionKey v.session, n) ∈ R'.pairs := by
  have hp := h.pairs
  unfold Service.ReadAs at hread
  cases hres : os.read with
  | error e =>
    rw [hres] at hp hread
    refine ⟨(Set.ext_iff.mp hp · |>.mpr), fun n hv hn => ?_⟩
    rw [hread.2 hv] at hn
    cases hn
  | ok D =>
    rw [hres] at hp hread
    simp only [addChange, hread.1, Option.map_some, Option.toList_some, replay_cons, replay_nil]
      at hp
    rw [hp]
    refine ⟨fun p hp => Or.inr hp, fun n _ hn => ?_⟩
    rw [hread.2] at hn
    cases hn
    exact Or.inl rfl

/-! ## Steps that read no arrivals -/

/-- A step that takes no service out of its iterator and no device out of the table. -/
theorem Serve.mono (hv : Serve s R) (hservices : s'.kit.services = s.kit.services)
    (hended : s'.kit.ended = s.kit.ended) (hmatched : s'.kit.matched = s.kit.matched)
    (hdead : ∀ it, s'.kit.terminated = some it → ∀ session ∈ it.pending,
      session ∈ s.kit.ended ∧ session.toNat < 2 ^ 60)
    (habs : s'.main = .absent → s.main = .absent) (hrem : s'.main.remaining = s.main.remaining)
    (hheeds : ∀ c, s.heeds c → s'.heeds c)
    (hpairs : ∀ v ∈ s.kit.services, ∀ n, (sessionKey v.session, n) ∈ R.pairs →
      (sessionKey v.session, n) ∈ R'.pairs) : Serve s' R' where
  alive v hm := by
    rw [hservices] at hm
    rw [hended]
    exact hv.alive v hm
  dead it h session hm := by
    rw [hended]
    exact hdead it h session hm
  absent h := by
    rw [hmatched]
    exact hv.absent (habs h)
  subscribed c h := by
    rw [hmatched] at h
    rw [hrem]
    exact hv.subscribed c h
  armed c it h := by
    rw [hmatched] at h
    exact hv.armed c it h
  served v hm n hn := by
    rw [hservices] at hm
    rw [hmatched]
    rcases hv.served v hm n hn with h | ⟨it, h₁, h₂, h₃⟩ | h
    · exact Or.inl h
    · exact Or.inr (Or.inl ⟨it, h₁, h₂, hheeds _ h₃⟩)
    · exact Or.inr (Or.inr (hpairs v hm n h))

/-- There is no monitor any more. -/
theorem Serve.gone (hv : Serve s R) (hkit : s'.kit = s.kit.release) (hm : s'.main = .absent) :
    Serve s' R' where
  alive := by
    rw [hkit]
    exact hv.alive
  dead it h := by
    rw [hkit] at h
    cases h
  absent _ c := by
    rw [hkit]
    rfl
  subscribed c _ := by
    rw [hm]
    exact mem_deviceClasses c
  armed c it h := by
    rw [hkit] at h
    cases h
  served v _ n _ := by
    rw [hkit]
    exact Or.inl rfl

/-! ## Steps that read an iterator -/

/-- The iterator of the class `c` becomes `it'`. What is no longer in it, or no longer going to be
read, is in the table. -/
theorem Serve.reread (hv : Serve s R) (hit : s.kit.matched c = some it)
    (hkit : s'.kit = s.kit.setMatched c it') (harmed : it'.armed = true → it'.pending = [])
    (habs : s'.main ≠ .absent) (hrem : s'.main.remaining = s.main.remaining)
    (hheeds : ∀ c', c' ≠ c → s.heeds c' → s'.heeds c') (hsub : R.pairs ⊆ R'.pairs)
    (hleft : ∀ v ∈ it.pending, v ∈ s.kit.services → ∀ n, v.iface = some n →
      (v ∈ it'.pending ∧ s'.heeds c) ∨ (sessionKey v.session, n) ∈ R'.pairs) : Serve s' R' := by
  have hc : s'.kit.matched c = some it' := by
    rw [hkit]
    exact Function.update_self ..
  have hother : ∀ c', c' ≠ c → s'.kit.matched c' = s.kit.matched c' := by
    intro c' hne
    rw [hkit]
    exact Function.update_of_ne hne ..
  refine ⟨?_, ?_, fun h => absurd h habs, fun c' h => ?_, fun c' it₁ h ha => ?_,
    fun v hm n hn => ?_⟩
  · rw [hkit]
    exact hv.alive
  · rw [hkit]
    exact hv.dead
  · rcases eq_or_ne c' c with rfl | hne
    · rw [hc] at h
      cases h
    · rw [hother c' hne] at h
      rw [hrem]
      exact hv.subscribed c' h
  · rcases eq_or_ne c' c with rfl | hne
    · rw [hc] at h
      cases h
      exact harmed ha
    · rw [hother c' hne] at h
      exact hv.armed c' it₁ h ha
  · have hm : v ∈ s.kit.services := by
      rw [hkit] at hm
      exact hm
    rcases hv.served v hm n hn with h | ⟨it₁, h₁, h₂, h₃⟩ | h
    · have hne : v.cls ≠ c := by
        rintro rfl
        rw [hit] at h
        cases h
      exact Or.inl ((hother _ hne).trans h)
    · rcases eq_or_ne v.cls c with hcls | hne
      · rw [hcls] at h₁ ⊢
        rw [hit] at h₁
        cases h₁
        exact Or.inr ((hleft v h₂ hm n hn).imp_left fun h => ⟨it', hc, h⟩)
      · exact Or.inr (Or.inl ⟨it₁, (hother _ hne).trans h₁, h₂, hheeds _ hne h₃⟩)
    · exact Or.inr (Or.inr (hsub h))

/-- A service of the class `c` is taken out of its iterator and read. -/
theorem Serve.taken (hv : Serve s R) (hit : s.kit.matched c = some it)
    (hnext : it.next pick = some (some v, it')) (hadd : Adds u m os.read R r R')
    (hread : v.ReadAs s.kit os) (hkit : s'.kit = s.kit.setMatched c it')
    (habs : s'.main ≠ .absent) (hrem : s'.main.remaining = s.main.remaining)
    (hheeds : ∀ c', c' ≠ c → s.heeds c' → s'.heeds c')
    (hleft : (∃ v ∈ it'.pending, v ∈ s.kit.services) → s'.heeds c) : Serve s' R' := by
  obtain ⟨hperm, harmed⟩ := next_some hnext
  obtain ⟨hsub, hnew⟩ := adds_pairs (s := s) hadd hread
  refine hv.reread hit hkit (fun ha => ?_) habs hrem hheeds hsub fun v₁ hm₁ hv₁ n hn => ?_
  · rw [hv.armed c it hit (harmed ▸ ha)] at hperm
    exact absurd hperm.length_eq (by simp)
  · rcases List.mem_cons.mp (hperm.symm.subset hm₁) with rfl | hm
    · exact Or.inr (hnew n hv₁ hn)
    · exact Or.inl ⟨hm, hleft ⟨v₁, hm, hv₁⟩⟩

/-- The iterator of the class `c` was read to its end. -/
theorem Serve.drained (hv : Serve s R) (hit : s.kit.matched c = some it)
    (hnext : it.next pick = some (none, it')) (hkit : s'.kit = s.kit.setMatched c it')
    (habs : s'.main ≠ .absent) (hrem : s'.main.remaining = s.main.remaining)
    (hheeds : ∀ c', c' ≠ c → s.heeds c' → s'.heeds c') : Serve s' R := by
  obtain ⟨hnil, rfl⟩ := next_none hnext
  refine hv.reread hit hkit (fun _ => rfl) habs hrem hheeds (Set.Subset.refl _) fun v₁ hm₁ => ?_
  rw [hnil] at hm₁
  exact absurd hm₁ List.not_mem_nil

/-! ## The step lemma -/

theorem picked_eq (hread : s.main.reading = some c) (hit : s.kit.matched c = some it)
    (hnext : it.next pick = some (some v, it')) : s.picked pick = some (v, it'.pending) := by
  simp only [State.picked, hread, hit, hnext, Option.bind_eq_bind, Option.bind_some,
    Option.map_some]

/-- A message stays on the port until it is received. -/
theorem heeds_mono (hread : s.main.reading = none) (hp : s.kit.port ⊆ s'.kit.port) (c : DeviceClass)
    (h : s.heeds c) : s'.heeds c := by
  rcases h with h | h
  · exact Or.inl (hp h)
  · rw [hread] at h
    cases h

theorem heeds_same (hm : s'.main = s.main) (hp : s.kit.port ⊆ s'.kit.port) (c : DeviceClass)
    (h : s.heeds c) : s'.heeds c :=
  h.imp (fun h => hp h) fun h => by rwa [hm]

/-- Another iterator than the one that is read. -/
theorem heeds_other (hread : s.main.reading = some c) (hp : s.kit.port ⊆ s'.kit.port)
    (c' : DeviceClass) (hne : c' ≠ c) (h : s.heeds c') : s'.heeds c' := by
  rcases h with h | h
  · exact Or.inl (hp h)
  · rw [hread] at h
    exact absurd (Option.some.inj h).symm hne

/-- The arrivals of a class are subscribed to: everything that is present waits in the new iterator,
which is read next. -/
theorem Serve.subscribing {classes : List DeviceClass} (hv : Serve s R)
    (hm : s.main = .subscribing (c :: classes)) :
    Serve { s with kit := s.kit.addMatched c, main := .populating c classes } R := by
  have hother : ∀ c', c' ≠ c → (s.kit.addMatched c).matched c' = s.kit.matched c' :=
    fun c' hne => Function.update_of_ne hne ..
  refine ⟨hv.alive, hv.dead, nofun, fun c' h => ?_, fun c' it h ha => ?_, fun v hmem n hn => ?_⟩
  · rcases eq_or_ne c' c with rfl | hne
    · exact absurd h (by simp [Kit.addMatched, Kit.setMatched])
    · have hrem := hv.subscribed c' ((hother c' hne) ▸ h)
      rw [hm] at hrem
      exact (List.mem_cons.mp hrem).resolve_left hne
  · rcases eq_or_ne c' c with rfl | hne
    · have hnew : (s.kit.addMatched c').matched c' = some it := h
      simp only [Kit.addMatched, Kit.setMatched, Function.update_self, Option.some.injEq] at hnew
      subst hnew
      cases ha
    · exact hv.armed c' it ((hother c' hne) ▸ h) ha
  · rcases eq_or_ne v.cls c with rfl | hne
    · refine Or.inr (Or.inl ⟨_, Function.update_self .., ?_, Or.inr rfl⟩)
      exact List.mem_filter.mpr ⟨hmem, by simp⟩
    · rcases hv.served v hmem n hn with h | ⟨it, h₁, h₂, h₃⟩ | h
      · exact Or.inl ((hother _ hne).trans h)
      · -- between two classes no iterator is being read
        refine Or.inr (Or.inl ⟨it, (hother _ hne).trans h₁, h₂, h₃.imp_right fun h => ?_⟩)
        rw [hm] at h
        cases h
      · exact Or.inr (Or.inr h)

/-- A termination is taken out of the iterator, and its session out of the table. The services that
are present have other sessions. -/
theorem Serve.detached {it it' : Iterator UInt64} {session : UInt64} {w : World} (hv : Serve s R)
    (hs : Stands s R) (hit : s.kit.terminated = some it)
    (hnext : it.next pick = some (some session, it')) :
    Serve { s with kit := { s.kit with terminated := some it' }, world := w }
      (R.remove u m (removalKey session)) := by
  obtain ⟨hperm, -⟩ := next_some hnext
  obtain ⟨hended, hsmall⟩ := hv.dead it hit session (hperm.subset List.mem_cons_self)
  refine hv.mono rfl rfl rfl (fun it₁ h => ?_) id rfl (heeds_same rfl (List.Subset.refl _))
    fun v hmem n hp => ?_
  · cases h
    exact fun x hx => hv.dead it hit x (hperm.subset (List.mem_cons_of_mem _ hx))
  · rw [pairs_remove hs.ok]
    refine ⟨hp, fun hk => hv.alive v hmem ?_⟩
    rw [removalKey_eq hsmall] at hk
    rwa [sessionKey_inj hk]

/-- A service arrives in an iterator that is going to be read. -/
theorem Serve.arrived {kit : Kit} (hv : Serve s R) (hunbroken : s.unbroken u (.arrive v))
    (h : s.kit.arrive v = some kit) : Serve { s with kit := kit } R := by
  obtain ⟨hsession, hcase⟩ := arrive_some h
  have halive : ∀ v₁ ∈ v :: s.kit.services, v₁.session ∉ s.kit.ended := by
    intro v₁ hm
    rcases List.mem_cons.mp hm with rfl | hm
    · exact hsession
    · exact hv.alive v₁ hm
  rcases hcase with ⟨hnone, rfl⟩ | ⟨it, hit, rfl⟩
  · refine ⟨halive, hv.dead, hv.absent, hv.subscribed, hv.armed, fun v₁ hm n hn => ?_⟩
    rcases List.mem_cons.mp hm with rfl | hm
    · exact Or.inl hnone
    · exact hv.served v₁ hm n hn
  · have hother : ∀ c, c ≠ v.cls →
        Function.update s.kit.matched v.cls (some (it.push v)) c = s.kit.matched c :=
      fun c hne => Function.update_of_ne hne ..
    have hport : s.kit.port ⊆
        if it.armed then s.kit.port ++ [.attached v.cls] else s.kit.port := by
      split
      · exact List.subset_append_left ..
      · exact List.Subset.refl _
    -- the message is sent now, was sent before, or has led to the reading that goes on
    have hnew : .attached v.cls ∈
        (if it.armed then s.kit.port ++ [.attached v.cls] else s.kit.port) ∨
        s.main.reading = some v.cls := by
      rcases hunbroken it hit with ha | hh
      · rw [if_pos ha]
        exact Or.inl (List.mem_append_right _ List.mem_cons_self)
      · exact hh.imp_left fun h => hport h
    refine ⟨halive, hv.dead, fun hm c => ?_, fun c hc => ?_, fun c it₁ hc ha => ?_,
      fun v₁ hm n hn => ?_⟩
    · have habs : s.kit.matched v.cls = none := hv.absent hm v.cls
      rw [hit] at habs
      cases habs
    · rcases eq_or_ne c v.cls with rfl | hne
      · exact absurd hc (by simp)
      · exact hv.subscribed c ((hother c hne) ▸ hc)
    · rcases eq_or_ne c v.cls with rfl | hne
      · have hc : Function.update s.kit.matched v.cls (some (it.push v)) v.cls = some it₁ := hc
        rw [Function.update_self] at hc
        cases hc
        cases ha
      · exact hv.armed c it₁ ((hother c hne) ▸ hc) ha
    · rcases List.mem_cons.mp hm with rfl | hm
      · exact Or.inr (Or.inl ⟨_, Function.update_self ..,
          List.mem_append_right _ List.mem_cons_self, hnew⟩)
      · rcases hv.served v₁ hm n hn with h | ⟨it₁, h₁, h₂, h₃⟩ | h
        · have hne : v₁.cls ≠ v.cls := by
            intro he
            rw [he, hit] at h
            cases h
          exact Or.inl ((hother _ hne).trans h)
        · rcases eq_or_ne v₁.cls v.cls with he | hne
          · rw [he] at h₁ ⊢
            rw [hit] at h₁
            cases h₁
            exact Or.inr (Or.inl ⟨_, Function.update_self .., List.mem_append_left _ h₂, hnew⟩)
          · exact Or.inr (Or.inl ⟨it₁, (hother _ hne).trans h₁, h₂,
              h₃.imp_left fun h => hport h⟩)
        · exact Or.inr (Or.inr h)

/-- A USB device terminates, and its services are no longer present. -/
theorem Serve.ended {session : UInt64} {kit : Kit} {ts : List Termination} (hv : Serve s R)
    (hsmall : session.toNat < 2 ^ 60) (h : s.kit.terminate session = some kit) :
    Serve { s with kit := kit, terminations := ts } R := by
  obtain ⟨-, hcase⟩ := terminate_some h
  have hkeep : ∀ {P : Service → Prop}, (∀ v ∈ s.kit.services, P v) →
      ∀ v ∈ s.kit.services.filter fun v => v.session ≠ session, P v :=
    fun h v hm => h v (List.mem_filter.mp hm).1
  have halive : ∀ v ∈ s.kit.services.filter fun v => v.session ≠ session,
      v.session ∉ session :: s.kit.ended := by
    intro v hm hmem
    obtain ⟨hm, hne⟩ := List.mem_filter.mp hm
    rcases List.mem_cons.mp hmem with rfl | hmem
    · simp at hne
    · exact hv.alive v hm hmem
  rcases hcase with ⟨hnone, rfl⟩ | ⟨it, hit, rfl⟩
  · refine ⟨halive, fun it₁ h₁ => ?_, hv.absent, hv.subscribed, hv.armed, hkeep hv.served⟩
    rw [show s.kit.terminated = some it₁ from h₁] at hnone
    cases hnone
  · have hport : s.kit.port ⊆ if it.armed then s.kit.port ++ [.detached] else s.kit.port := by
      split
      · exact List.subset_append_left ..
      · exact List.Subset.refl _
    refine ⟨halive, fun it₁ h₁ x hx => ?_, hv.absent, hv.subscribed, hv.armed,
      hkeep fun v hm n hn => ?_⟩
    · cases h₁
      rcases List.mem_append.mp hx with hx | hx
      · exact (hv.dead it hit x hx).imp_left (List.mem_cons_of_mem _)
      · rw [List.mem_singleton.mp hx]
        exact ⟨List.mem_cons_self, hsmall⟩
    · rcases hv.served v hm n hn with h | ⟨it₁, h₁, h₂, h₃⟩ | h
      · exact Or.inl h
      · exact Or.inr (Or.inl ⟨it₁, h₁, h₂, h₃.imp_left fun h => hport h⟩)
      · exact Or.inr (Or.inr h)

theorem serve_moves (hs : Stands s R) (hv : Serve s R) (hstep : step u s a = some s')
    (hhonest : s.honest a) (hunbroken : s.unbroken u a) (hs' : Stands s' R')
    (h : Moves u s R a s' R') : Serve s' R' := by
  have hall : ∀ v ∈ s.kit.services, ∀ n, (sessionKey v.session, n) ∈ R.pairs →
      (sessionKey v.session, n) ∈ R.pairs := fun _ _ _ h => h
  have hrfl := List.Subset.refl s.kit.port
  cases h with
  | refused hm hno hneg => exact hv.mono rfl rfl rfl hv.dead id rfl (heeds_same rfl hrfl) hall
  | failed hm hyes hneg => exact hv.gone rfl rfl
  | started hm hyes =>
    have hnone : ∀ c, s.kit.matched c = none := hv.absent hm
    refine ⟨hv.alive, hv.dead, nofun, fun c _ => ?_, fun c it h => ?_, fun v _ n _ => ?_⟩
    · exact mem_deviceClasses c
    · exact absurd (hnone c) (by rw [show s.kit.matched c = some it from h]; simp)
    · exact Or.inl (hnone v.cls)
  | subscribed hm => exact hv.subscribing hm
  | subscribedAll hm =>
    refine hv.mono rfl rfl rfl (fun it h => ?_) nofun (by rw [hm]; rfl)
      (heeds_mono (by rw [hm]; rfl) hrfl) hall
    cases h
    exact fun _ hx => absurd hx List.not_mem_nil
  | notSubscribed hm hneg => exact hv.gone rfl rfl
  | @populated c classes pick os it it' v m w R' hm hit hnext hadd =>
    have hread : s.main.reading = some c := by rw [hm]; rfl
    refine hv.taken hit hnext hadd (hhonest _ (picked_eq hread hit hnext)) rfl ?_ rfl
      (heeds_other hread hrfl) fun _ => Or.inr hread
    show s.main ≠ .absent
    simp [hm]
  | populatedAll hm hit hnext =>
    exact hv.drained hit hnext rfl nofun (by rw [hm]; rfl) (heeds_other (by rw [hm]; rfl) hrfl)
  | notPopulated hm hneg hadd => exact hv.gone rfl rfl
  | @cleared pick it it' session hm hit hnext =>
    refine hv.mono rfl rfl rfl (fun it₁ h => ?_) id rfl (heeds_same rfl hrfl) hall
    cases h
    exact fun x hx => hv.dead it hit x ((next_some hnext).1.subset (List.mem_cons_of_mem _ hx))
  | @clearedAll pick it it' hm hit hnext =>
    obtain ⟨-, rfl⟩ := next_none hnext
    refine hv.mono rfl rfl rfl (fun it₁ h => ?_) nofun (by rw [hm]; rfl)
      (heeds_mono (by rw [hm]; rfl) hrfl) hall
    cases h
    exact fun _ hx => absurd hx List.not_mem_nil
  | polled hm => exact hv.mono rfl rfl rfl hv.dead id rfl (heeds_same rfl hrfl) hall
  | refreshing hm =>
    exact hv.mono rfl rfl rfl hv.dead nofun (by rw [hm]; rfl)
      (heeds_mono (by rw [hm]; rfl) hrfl) hall
  | timedOut hm =>
    exact hv.mono rfl rfl rfl hv.dead nofun (by rw [hm]; rfl)
      (heeds_mono (by rw [hm]; rfl) hrfl) hall
  | @attaching ok c port hm hport =>
    refine hv.mono rfl rfl rfl hv.dead nofun (by rw [hm]; rfl) (fun c' h => ?_) hall
    rcases h with h | h
    · rw [hport] at h
      rcases List.mem_cons.mp h with h | h
      · cases h
        exact Or.inr rfl
      · exact Or.inl h
    · rw [hm] at h
      cases h
  | @detaching ok port hm hport =>
    refine hv.mono rfl rfl rfl hv.dead nofun (by rw [hm]; rfl) (fun c' h => ?_) hall
    rcases h with h | h
    · rw [hport] at h
      rcases List.mem_cons.mp h with h | h
      · cases h
      · exact Or.inl h
    · rw [hm] at h
      cases h
  | @attached c pick os it it' v m w R' hm hit hnext hadd =>
    have hread : s.main.reading = some c := by rw [hm]; rfl
    refine hv.taken hit hnext hadd (hhonest _ (picked_eq hread hit hnext)) rfl ?_ rfl
      (heeds_other hread hrfl) fun _ => Or.inr hread
    show s.main ≠ .absent
    simp [hm]
  | attachedAll hm hit hnext =>
    exact hv.drained hit hnext rfl nofun (by rw [hm]; rfl) (heeds_other (by rw [hm]; rfl) hrfl)
  | @aborted c pick os it it' v m w r R' hm hit hnext hr hadd =>
    have hread : s.main.reading = some c := by rw [hm]; rfl
    have hpick := picked_eq hread hit hnext
    have has := hhonest _ hpick
    refine hv.taken hit hnext hadd has rfl nofun (by rw [hm]; rfl) (heeds_other hread hrfl)
      fun hleft => ?_
    -- the callout was ended by a callback, since no read failed
    rcases adds_refused hadd hr with hres | ⟨ev, hev, href⟩
    · unfold Service.ReadAs at has
      rw [hres] at has
      exact absurd has.1 hr
    · rw [← hs.log, ← hs'.log] at hev
      rw [hunbroken _ hpick hleft _ hstep ev hev] at href
      cases href
  | @detached pick ok it it' session m w hm hit hnext =>
    obtain rfl : ok = true := hhonest
    exact hv.detached hs hit hnext
  | @detachedAll pick ok it it' hm hit hnext =>
    obtain ⟨-, rfl⟩ := next_none hnext
    refine hv.mono rfl rfl rfl (fun it₁ h => ?_) nofun (by rw [hm]; rfl)
      (heeds_mono (by rw [hm]; rfl) hrfl) hall
    cases h
    exact fun _ hx => absurd hx List.not_mem_nil
  | freed hm => exact hv.gone rfl rfl
  | registered hm he hl =>
    exact hv.mono rfl rfl rfl hv.dead id rfl (heeds_same rfl hrfl) fun v _ n hp => by
      rwa [Roster.pairs, he]
  | deregistered hm => exact hv.mono rfl rfl rfl hv.dead id rfl (heeds_same rfl hrfl) hall
  | listed hm => exact hv.mono rfl rfl rfl hv.dead id rfl (heeds_same rfl hrfl) hall
  | enumerated ho hk hlog =>
    exact hv.mono rfl rfl rfl hv.dead id rfl (heeds_same rfl hrfl) fun v _ n hp => by
      rwa [hk.pairs]
  | acted ho => exact hv.mono rfl rfl rfl hv.dead id rfl (heeds_same rfl hrfl) hall
  | arrived h => exact hv.arrived hunbroken h
  | ended h => exact hv.ended hhonest h

/-! ## Runs -/

theorem serve_start (services : List Service) : Serve (State.start services) Roster.empty where
  alive _ _ := List.not_mem_nil
  dead := nofun
  absent _ _ := rfl
  subscribed c _ := mem_deviceClasses c
  armed := nofun
  served _ _ _ _ := Or.inl rfl

/-- Whatever arrives and terminates, and whatever the callbacks return: as long as no callout leaves
a present service behind, and no service arrives in an iterator that nobody will read, every service
that is present is in the table when all notifications were delivered. -/
theorem arrivals_served (react : List Event → Nat → Notice → Reaction) (services : List Service)
    (actions : List Action)
    (hrun : run (step (.careful react)) (State.start services) actions = some s)
    (hhonest : Along (step (.careful react)) State.honest (State.start services) actions)
    (hunbroken : Along (step (.careful react)) (State.unbroken (.careful react))
      (State.start services) actions)
    (hdone : s.delivered) : s.Served := by
  have hu : (User.careful react).limit ≤ uintMod := Nat.le_refl uintMod
  obtain ⟨R, hs, hv⟩ : ∃ R, Stands s R ∧ Serve s R := by
    refine run_rule (I := fun s => ∃ R, Stands s R ∧ Serve s R)
      (C := fun s a => s.honest a ∧ s.unbroken (.careful react) a) ?_
      ⟨Roster.empty, stands_start services, serve_start services⟩ (hhonest.and hunbroken) hrun
    rintro s a s' ⟨R, hs, hv⟩ ⟨hhon, hunb⟩ h
    obtain ⟨R', hs', hmove⟩ := step_moves hu hs h
    exact ⟨R', hs', serve_moves hs hv h hhon hunb hs' hmove⟩
  obtain ⟨hidle, hport⟩ := hdone
  intro v hm n hn
  obtain ⟨m, hset⟩ := hs.monitor (by simp [hidle])
  have hp : (sessionKey v.session, n) ∈ R.pairs := by
    rcases hv.served v hm n hn with h | ⟨it, -, -, h⟩ | h
    · have hrem := hv.subscribed _ h
      rw [hidle] at hrem
      exact absurd hrem List.not_mem_nil
    · rcases h with h | h
      · rw [hport] at h
        exact absurd h List.not_mem_nil
      · rw [hidle] at h
        cases h
    · exact h
  rw [listed_eq hset.bound]
  obtain ⟨e, he, hpair⟩ := List.mem_map.mp hp
  have hkey : e.key = sessionKey v.session := congrArg Prod.fst hpair
  have hiface : e.iface = n := congrArg Prod.snd hpair
  exact List.mem_map.mpr ⟨e, he, by rw [hkey, hiface]⟩

instance (v : Service) (kit : Kit) (os : ReadOs) : Decidable (v.ReadAs kit os) := by
  unfold Service.ReadAs
  split <;> infer_instance

instance (s : State) (a : Action) : Decidable (s.honest a) :=
  match a with
  | .attach pick os => inferInstanceAs (Decidable (∀ p ∈ s.picked pick, p.1.ReadAs s.kit os))
  | .detach _ ok => inferInstanceAs (Decidable (ok = true))
  | .terminate session => inferInstanceAs (Decidable (session.toNat < 2 ^ 60))
  | .newMonitor _ | .subscribe _ | .clear _ | .kevent _ | .receive _ | .freeMonitor | .register _ _
  | .deregister _ | .list _ | .enumerate _ _ | .user _ | .arrive _ => .isTrue trivial

/-- A monitor on a system without devices, and a callback that returns -1 once. -/
def refuseOnce : List Event → Nat → Notice → Reaction :=
  fun log _ _ => ⟨[], if log.any fun ev => ev matches .notify .. then 0 else -1⟩

def listenAlone : List Action :=
  [.newMonitor .fine, .subscribe true, .attach 0 keyboardOs, .subscribe true, .attach 0 keyboardOs,
    .subscribe true, .clear 0, .register 0 true]

/-- The iterator is left empty, and one that gets a service is armed. -/
def State.leavesNone (s : State) : Action → Bool
  | .attach pick _ => (s.picked pick).all fun p => p.2.isEmpty
  | .arrive v => (s.kit.matched v.cls).all fun it => it.armed
  | _ => true

theorem unbroken_of_leavesNone (h : s.leavesNone a = true) : s.unbroken u a := by
  cases a with
  | attach pick os =>
    rintro p hp ⟨v, hv, -⟩
    have hp : s.picked pick = some p := hp
    simp only [State.leavesNone, hp, Option.all_some, List.isEmpty_iff] at h
    rw [h] at hv
    exact absurd hv List.not_mem_nil
  | arrive v =>
    intro it hit
    simp only [State.leavesNone, hit, Option.all_some] at h
    exact Or.inl h
  | _ => trivial

/-- The keyboard is plugged in, and the callback refuses it. -/
def plugOne : List Action :=
  listenAlone ++ [.arrive keyboard, .kevent true, .receive true, .attach 0 keyboardOs, .kevent true]

theorem arrivals_served_one : ∃ s, run (step (.careful refuseOnce)) (State.start []) plugOne = some s ∧
    s.kit.services = [keyboard] ∧ s.Served := by
  obtain ⟨s, hrun, h⟩ := Option.map_eq_some_iff.mp (by decide +kernel :
    (run (step (.careful refuseOnce)) (State.start []) plugOne).map
      (fun s => decide ((s.main = .idle ∧ s.kit.port = []) ∧ s.kit.services = [keyboard])) =
        some true)
  obtain ⟨hdone, hone⟩ := of_decide_eq_true h
  refine ⟨s, hrun, hone, arrivals_served _ _ _ hrun ?_ ?_ hdone⟩
  · exact (along_of_check (c := fun (s : State) a => decide (s.honest a)) (by decide +kernel)).mono
      fun _ _ h => of_decide_eq_true h
  · exact (along_of_check (c := State.leavesNone) (by decide +kernel)).mono
      fun _ _ h => unbroken_of_leavesNone h

/-- A mouse with the session 6. -/
def mouse : Service := ⟨.hid, 6, some 0⟩

/-- The keyboard and the mouse are plugged in, and the callback refuses the keyboard. -/
def plugTwo : List Action :=
  listenAlone ++ [.arrive keyboard, .arrive mouse, .kevent true, .receive true,
    .attach 0 keyboardOs, .kevent true]

/-- The mouse does not get into the table: the refresh that follows finds nothing to do. -/
theorem stranded_device : ∃ s,
    run (step (.careful refuseOnce)) (State.start []) plugTwo = some s ∧
      Along (step (.careful refuseOnce)) State.honest (State.start []) plugTwo ∧
      s.delivered ∧ ¬ s.Served := by
  obtain ⟨s, hrun, h⟩ := Option.map_eq_some_iff.mp (by decide +kernel :
    (run (step (.careful refuseOnce)) (State.start []) plugTwo).map
      (fun s => decide ((s.main = .idle ∧ s.kit.port = []) ∧ mouse ∈ s.kit.services ∧
        (hsMonitorList (.returning fun _ _ _ => 0) s.world 0).all fun x =>
          (x.2.log.drop s.world.log.length).all (Event.omits (some (sessionKey 6), 0)))) =
      some true)
  obtain ⟨hdone, hmouse, hlist⟩ := of_decide_eq_true h
  refine ⟨s, hrun, ?_, hdone, fun hall => ?_⟩
  · exact (along_of_check (c := fun (s : State) a => decide (s.honest a)) (by decide +kernel)).mono
      fun _ _ h => of_decide_eq_true h
  · exact not_listed_of_omits hlist (hall mouse hmouse 0 rfl)

end Libhs.Darwin.Monitor
