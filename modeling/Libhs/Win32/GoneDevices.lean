import Libhs.Win32.NewMonitor
import Libhs.Win32.StartUp

/-!
# Refreshes and devices that are gone

When the node of an arrival cannot be located any more, `process_arrival_notification` logs
`dev->key` before it skips the arrival, and `dev` is NULL there.

`refresh_tolerates_iff`: for every queue and every device tree, a refresh completes and leaves the
world as if such arrivals had not been in the queue exactly if its loop comes to none of them.
-/

namespace Libhs.Win32
open Run Pointer

/-! ## Definitions -/

/-- The loop of `hs_monitor_refresh`, with one answer of the system for each round. -/
def refreshRounds (u : User) : List ArrivalOs → State → Option State
  | [], s =>
    match s.main with
    | .refreshing _ _ => none
    | _ => some s
  | os :: answers, s =>
    match s.main with
    | .refreshing cur next => do
      let s ← s.processNotification u os cur next
      refreshRounds u answers s
    | _ => some s

/-- The end of `hs_monitor_refresh`. -/
def State.cleanup (s : State) : Option State :=
  match s.main with
  | .finishing r => s.endRefresh r
  | _ => none

/-- `hs_monitor_refresh`, while the background thread waits. -/
def State.refresh (u : User) (answers : List ArrivalOs) (s : State) : Option State := do
  let s ← s.beginRefresh
  let s ← refreshRounds u answers s
  s.cleanup

/-- The notifications processed one after the other, up to an error. -/
def processAll (u : User) : List (DeviceNotification × ArrivalOs) → World → Option (Int × World)
  | [], w => some (0, w)
  | (n, os) :: rest, w => do
    let (r, w) ← processNotification u os w n
    if r < 0 then some (r, w) else processAll u rest w

/-- The notification is a removal, or the node of the arrival is located. -/
def nodeFound (x : DeviceNotification × ArrivalOs) : Bool := x.1.event = .removed || x.2.located

/-- Every arrival that the loop comes to is located. -/
def ComesToFound (u : User) : List (DeviceNotification × ArrivalOs) → World → Prop
  | [], _ => True
  | (n, os) :: rest, w => nodeFound (n, os) = true ∧
    ∀ r w', processNotification u os w n = some (r, w') → 0 ≤ r → ComesToFound u rest w'

/-- The refresh completes, with the result and the world that its notifications without the arrivals
that are gone lead to, or the stored error. -/
def Tolerates (u : User) (s : State) (ns : List DeviceNotification) (answers : List ArrivalOs) :
    Prop :=
  ∃ s', s.refresh u answers = some s' ∧
    some (s'.result, s'.world) = if s.queue.ret < 0 then some (s.queue.ret, s.world)
      else processAll u ((ns.zip answers).filter nodeFound) s.world

/-! ## The notifications -/

section Notifications
variable {u : User} {w : World} {R : Roster} {m : Nat} {n : DeviceNotification} {os : ArrivalOs}
  {l : List (DeviceNotification × ArrivalOs)}

/-- An arrival that is gone makes the code read through a NULL pointer. -/
theorem processNotification_gone (h : nodeFound (n, os) = false) :
    processNotification u os w n = none := by
  obtain ⟨hev, hloc⟩ := Bool.or_eq_false_iff.mp h
  unfold processNotification
  cases hn : n.event with
  | added => exact if_neg (Bool.eq_false_iff.mp hloc)
  | removed =>
    rw [hn] at hev
    cases hev

/-- The others are processed. -/
theorem processNotification_found (hu : u.limit ≤ uintMod) (hs : Settled w (some m) R)
    (h : nodeFound (n, os) = true) :
    ∃ r w' R', processNotification u os w n = some (r, w') ∧ Settled w' (some m) R' := by
  have hsome : ∃ r w', processNotification u os w n = some (r, w') := by
    unfold processNotification
    cases hn : n.event with
    | added =>
      have hloc : os.located = true := by simpa [nodeFound, hn] using h
      obtain ⟨r, w', R', e, -⟩ :=
        handOver_add_spec hu hs.bound (processWin32Device_makes os.read (some n.key))
      exact ⟨r, w', (if_pos hloc).trans e⟩
    | removed =>
      obtain ⟨w', e, -⟩ := monitorRemove_spec hu hs.bound n.key
      exact ⟨0, w', by simp [e]⟩
  obtain ⟨r, w', e⟩ := hsome
  obtain ⟨R', hs', -⟩ := processNotification_settled hu hs e
  exact ⟨r, w', R', e, hs'⟩

theorem processAll_cons {r : Int} {w' : World} (e : processNotification u os w n = some (r, w')) :
    processAll u ((n, os) :: l) w = if r < 0 then some (r, w') else processAll u l w' := by
  rw [processAll, e]
  rfl

/-- The notifications can be processed exactly if the loop comes to none that is gone. -/
theorem processAll_iff (hu : u.limit ≤ uintMod) (hs : Settled w (some m) R) :
    processAll u l w ≠ none ↔ ComesToFound u l w := by
  induction l generalizing w R with
  | nil => exact iff_of_true nofun trivial
  | cons x l ih =>
    obtain ⟨n, os⟩ := x
    cases hf : nodeFound (n, os) with
    | false =>
      refine iff_of_false (not_not.mpr ?_) fun h => by
        rw [h.1] at hf
        cases hf
      rw [processAll, processNotification_gone hf]
      rfl
    | true =>
      obtain ⟨r, w', R', e, hs'⟩ := processNotification_found hu hs hf
      rw [processAll_cons e, ComesToFound]
      by_cases hr : r < 0
      · rw [if_pos hr]
        refine iff_of_true nofun ⟨hf, fun r₁ w₁ e₁ h₁ => ?_⟩
        cases e.symm.trans e₁
        exact absurd hr (Int.not_lt.mpr h₁)
      · rw [if_neg hr, ih hs']
        refine ⟨fun h => ⟨hf, fun r₁ w₁ e₁ _ => ?_⟩, fun h => h.2 r w' e (Int.not_lt.mp hr)⟩
        cases e.symm.trans e₁
        exact h

/-- Then those that are gone behind an error make no difference. -/
theorem processAll_filter (h : ComesToFound u l w) :
    processAll u (l.filter nodeFound) w = processAll u l w := by
  induction l generalizing w with
  | nil => rfl
  | cons x l ih =>
    obtain ⟨n, os⟩ := x
    rw [List.filter_cons, if_pos h.1]
    cases e : processNotification u os w n with
    | none =>
      rw [processAll, processAll, e]
      rfl
    | some p =>
      obtain ⟨r, w'⟩ := p
      rw [processAll_cons e, processAll_cons e]
      by_cases hr : r < 0
      · rw [if_pos hr, if_pos hr]
      · rw [if_neg hr, if_neg hr]
        exact ih (h.2 r w' e (Int.not_lt.mp hr))

end Notifications

/-! ## The refresh -/

section Refresh
variable {u : User} {s : State} {M : Mailbox DeviceNotification} {answers : List ArrivalOs}

/-- What a call returned, and the world it left. -/
def State.outcome (s : State) : Int × World := (s.result, s.world)

theorem cleanup_spec {r : Int} (hs : Related s M) (hm : s.main = .finishing r) :
    (s.cleanup).map State.outcome = some (r, s.world) := by
  obtain ⟨own, shared, hrep⟩ := (related_iff (by rw [hm]; nofun)).mp hs
  obtain ⟨q, e, -⟩ := putBack_represents hrep.queue (hrep.ring (by rw [hm]; rfl))
  simp [State.cleanup, hm, State.endRefresh, e, State.outcome]

theorem refreshRounds_over {r : Int} (hm : s.main = .finishing r) :
    refreshRounds u answers s = some s := by
  cases answers with
  | nil => rw [refreshRounds, hm]
  | cons os answers => rw [refreshRounds, hm]

/-- The loop of a refresh is over, or it is at a notification. -/
def AtLoop (main : Main) (M : Mailbox DeviceNotification) : Prop :=
  main = .finishing 0 ∧ M.taken = [] ∨ ∃ cur next, main = .refreshing cur next

/-- The loop at the first node of its list, or at its head. -/
theorem loopAt_first (s : State) {l : List Nat} (next : Option NoteRef)
    (hl : l.length = M.taken.length) :
    AtLoop (s.loopAt (some (firstOr .own (l.map .note))) next).main M := by
  cases l with
  | nil => exact .inl ⟨rfl, List.length_eq_zero_iff.mp hl.symm⟩
  | cons a l => exact .inr ⟨_, _, rfl⟩

/-- One round: the first notification is processed, and behind an error the loop is over. -/
theorem processNotification_round {cur next : Option NoteRef} (os : ArrivalOs)
    (hs : Related s M) (hm : s.main = .refreshing cur next) :
    ∃ n, M.taken = n :: (M.apply .consume).taken ∧
      match Win32.processNotification u os s.world n with
      | none => s.processNotification u os cur next = none
      | some (r, w) => ∃ s', s.processNotification u os cur next = some s' ∧ s'.world = w ∧
          if r < 0 then s'.main = .finishing r else AtLoop s'.main (M.apply .consume) := by
  obtain ⟨own, shared, hrep⟩ := (related_iff (by rw [hm]; nofun)).mp hs
  have hown := hrep.main
  rw [hm] at hown
  obtain ⟨hring, a, l, rfl, rfl, rfl⟩ := hown
  obtain ⟨q, eq, hq, hring', -⟩ := drop_represents hrep.queue hring
  obtain ⟨n, ns, ht, hn, hns⟩ : ∃ n ns, M.taken = n :: ns ∧ s.queue.notes.get a = some n ∧
      l.length = ns.length := by
    have hnotes := hrep.queue.taken
    cases ht : M.taken with
    | nil =>
      rw [ht] at hnotes
      cases hnotes
    | cons n ns =>
      rw [ht, List.map_cons, List.map_cons] at hnotes
      obtain ⟨hn, hl⟩ := List.cons.inj hnotes
      exact ⟨n, ns, rfl, hn, by simpa using congrArg List.length hl⟩
  have htaken : (M.apply .consume).taken = ns := by
    show M.taken.drop 1 = ns
    rw [ht, List.drop_one, List.tail_cons]
  refine ⟨n, by rw [htaken, ht], ?_⟩
  cases ew : Win32.processNotification u os s.world n with
  | none => simp [State.processNotification, hn, ew]
  | some p =>
    obtain ⟨r, w⟩ := p
    by_cases hr : r < 0
    · refine ⟨{ s with world := w, queue := q, main := .finishing r }, ?_, rfl, ?_⟩
      · simp [State.processNotification, hn, ew, eq, hr]
      · rw [if_pos hr]
    · obtain ⟨k, hk⟩ := hring'.load_first
      obtain ⟨-, -, -, hworld, -⟩ := loopAt_same { s with world := w, queue := q }
        (some (firstOr .own (l.map .note))) k.next
      refine ⟨_, ?_, hworld, ?_⟩
      · simp [State.processNotification, hn, ew, eq, hr, hk]
      · rw [if_neg hr]
        exact loopAt_first _ _ (by rw [htaken, hns])

/-- The loop of a refresh with the notifications `M.taken` in its list. -/
theorem refreshRounds_spec (hs : Related s M) (hm : AtLoop s.main M)
    (hlen : answers.length = M.taken.length) :
    ((refreshRounds u answers s).bind State.cleanup).map State.outcome =
      processAll u (M.taken.zip answers) s.world := by
  induction answers generalizing s M with
  | nil =>
    have ht : M.taken = [] := List.length_eq_zero_iff.mp hlen.symm
    rcases hm with ⟨hm, -⟩ | ⟨cur, next, hm⟩
    · rw [refreshRounds_over hm, Option.bind_some, cleanup_spec hs hm, ht]
      rfl
    · obtain ⟨n, hn, -⟩ := processNotification_round (u := u) ⟨false, serialAnswers⟩ hs hm
      cases ht.symm.trans hn
  | cons os answers ih =>
    rcases hm with ⟨hm, ht⟩ | ⟨cur, next, hm⟩
    · rw [ht] at hlen
      cases hlen
    obtain ⟨n, ht, hround⟩ := processNotification_round (u := u) os hs hm
    rw [ht, List.length_cons, List.length_cons] at hlen
    have hstep : refreshRounds u (os :: answers) s =
        (s.processNotification u os cur next).bind (refreshRounds u answers) := by
      rw [refreshRounds, hm]
      rfl
    rw [ht, List.zip_cons_cons, hstep]
    cases ew : processNotification u os s.world n with
    | none =>
      rw [ew] at hround
      have hround : s.processNotification u os cur next = none := hround
      rw [processAll, ew, hround]
      rfl
    | some p =>
      obtain ⟨r, w⟩ := p
      rw [ew] at hround
      obtain ⟨s', e, rfl, hmain⟩ := hround
      have hs' := processNotification_related hs hm e
      rw [e, Option.bind_some, processAll_cons ew]
      by_cases hr : r < 0
      · rw [if_pos hr] at hmain ⊢
        rw [refreshRounds_over hmain, Option.bind_some, cleanup_spec hs' hmain]
      · rw [if_neg hr] at hmain ⊢
        exact ih hs' hmain (Nat.succ.inj hlen)

/-- A refresh processes the queue, unless there is a stored error. -/
theorem refresh_outcome (hs : Related s M) (hm : s.main = .idle)
    (hlen : answers.length = M.waiting.length) :
    (s.refresh u answers).map State.outcome =
      if s.queue.ret < 0 then some (s.queue.ret, s.world)
      else processAll u (M.waiting.zip answers) s.world := by
  obtain ⟨own, shared, hrep⟩ := (related_iff (by rw [hm]; nofun)).mp hs
  have hown : own = [] := (owns_iff (by rw [hm]; rfl)).mp hrep.main
  subst hown
  obtain ⟨q, eq, hq, hring, -⟩ := take_represents hrep.queue
  rw [hrep.queue.error] at eq
  have hrefresh : ∀ s₁, s.beginRefresh = some s₁ →
      s.refresh u answers = (refreshRounds u answers s₁).bind State.cleanup := fun s₁ e => by
    rw [State.refresh, e]
    rfl
  by_cases hr : s.queue.ret < 0
  · have e : s.beginRefresh = some { s with queue := q, main := .finishing s.queue.ret } := by
      simp [State.beginRefresh, eq, hr]
    rw [hrefresh _ e, refreshRounds_over rfl, Option.bind_some, if_pos hr]
    exact cleanup_spec (beginRefresh_related hs hm e).2 rfl
  · obtain ⟨k, hk⟩ := hring.load_first
    have e : s.beginRefresh = some ({ s with queue := q }.loopAt
        (some (firstOr .own (shared.map .note))) k.next) := by
      simp [State.beginRefresh, eq, hr, hring.head, hk]
    obtain ⟨-, -, -, hworld, -⟩ := loopAt_same { s with queue := q }
      (some (firstOr .own (shared.map .note))) k.next
    have hshared : shared.length = M.waiting.length := by
      simpa using congrArg List.length hrep.queue.waiting.notes
    have hloop := loopAt_first (M := M.apply .take) { s with queue := q } k.next hshared
    rw [hrefresh _ e, if_neg hr, refreshRounds_spec (beginRefresh_related hs hm e).2 hloop hlen,
      hworld]
    rfl

/-- A refresh is a run of the system. -/
theorem refreshRounds_run {s' : State} (h : refreshRounds u answers s = some s') :
    ∃ k, ∀ as, run (step u) s ((answers.take k).map .processNotification ++ as) =
      run (step u) s' as := by
  induction answers generalizing s with
  | nil =>
    refine ⟨0, fun as => ?_⟩
    rw [refreshRounds] at h
    split at h
    · cases h
    · cases h
      rfl
  | cons os answers ih =>
    rw [refreshRounds] at h
    split at h
    · next cur next hm =>
      obtain ⟨s₁, e, h⟩ := Option.bind_eq_some_iff.mp h
      obtain ⟨k, hk⟩ := ih h
      have hstep : step u s (.processNotification os) = some s₁ := by
        simp [step, State.mainStep, hm, e]
      refine ⟨k + 1, fun as => ?_⟩
      rw [List.take_succ_cons, List.map_cons, List.cons_append, run, hstep]
      exact hk as
    · cases h
      exact ⟨0, fun as => rfl⟩

theorem refresh_run {s' : State} (hm : s.main = .idle) (h : s.refresh u answers = some s') :
    ∃ k, run (step u) s
      (.beginRefresh :: ((answers.take k).map .processNotification ++ [.endRefresh])) =
        some s' := by
  obtain ⟨s₁, e₁, h⟩ := Option.bind_eq_some_iff.mp h
  obtain ⟨s₂, e₂, h⟩ := Option.bind_eq_some_iff.mp h
  have hbegin : step u s .beginRefresh = some s₁ := by simp [step, State.mainStep, hm, e₁]
  obtain ⟨k, hk⟩ := refreshRounds_run e₂
  have hend : step u s₂ .endRefresh = some s' := by
    unfold State.cleanup at h
    split at h
    · next r hm₂ => simp [step, State.mainStep, hm₂, h]
    · cases h
  refine ⟨k, ?_⟩
  rw [run, hbegin]
  refine (hk [.endRefresh]).trans ?_
  rw [run, hend]
  rfl

end Refresh

/-- In every state of every run between two calls, with `ns` the notifications in the queue and any
answers of the system to them: the refresh tolerates the arrivals that are gone exactly if it has
an error to return, or its loop comes to none of them. -/
theorem refresh_tolerates_iff (u : User) (hu : u.limit ≤ uintMod) (tree : CStr → Option Node)
    (actions : List Action) (s : State) (h : run (step u) (.start tree) actions = some s)
    (hm : s.main = .idle) :
    ∃ l ns, s.queue.Holds .shared l ns ∧ ∀ answers : List ArrivalOs, answers.length = ns.length →
      (Tolerates u s ns answers ↔
        s.queue.ret < 0 ∨ ComesToFound u (ns.zip answers) s.world) := by
  obtain ⟨M, hs, -⟩ := run_mailbox h
  obtain ⟨own, shared, hrep⟩ := (related_iff (by rw [hm]; nofun)).mp hs
  obtain ⟨R, hst⟩ := reachable_stands hu h
  obtain ⟨m, hset, -⟩ := hst.idle hm
  refine ⟨shared, M.waiting, hrep.queue.waiting, fun answers hlen => ?_⟩
  have hout := refresh_outcome (u := u) hs hm hlen
  by_cases hr : s.queue.ret < 0
  · rw [if_pos hr] at hout
    obtain ⟨s', e, he⟩ := Option.map_eq_some_iff.mp hout
    exact iff_of_true ⟨s', e, by rw [if_pos hr, ← he]; rfl⟩ (.inl hr)
  rw [if_neg hr] at hout
  rw [or_iff_right hr, ← processAll_iff hu hset]
  constructor
  · rintro ⟨s', e, -⟩ hnone
    rw [e, hnone] at hout
    cases hout
  · intro hsome
    obtain ⟨p, hp⟩ := Option.ne_none_iff_exists'.mp hsome
    rw [hp] at hout
    obtain ⟨s', e, he⟩ := Option.map_eq_some_iff.mp hout
    refine ⟨s', e, ?_⟩
    rw [if_neg hr, processAll_filter ((processAll_iff hu hset).mp hsome), hp, ← he]
    rfl

theorem arrivalName_noNul : (0 : UInt8) ∉ ascii "##?#USB#1" := by decide

/-- A run that leaves one arrival in the queue. -/
def oneArrival : List Action :=
  createEmpty ++ makeWindow ++ finishNew ++ plugIn (.lit "##?#USB#1" arrivalName_noNul)

theorem refresh_tolerates_one : ∃ s l ns, s.queue.Holds .shared l ns ∧
    ∀ answers : List ArrivalOs, answers.length = ns.length →
      (Tolerates idleUser s ns answers ↔
        s.queue.ret < 0 ∨ ComesToFound idleUser (ns.zip answers) s.world) := by
  have hrun : (run (step idleUser) (.start fun _ => none) oneArrival).map State.main =
      some .idle := by
    decide +kernel
  obtain ⟨s, e, hm⟩ := Option.map_eq_some_iff.mp hrun
  exact ⟨s, refresh_tolerates_iff idleUser (Nat.le_refl _) _ _ s e hm⟩

/-- The device of the arrival is gone: the refresh reads through the NULL pointer. -/
theorem refresh_gone :
    (run (step idleUser) (.start fun _ => none) oneArrival).map
      (fun s => (s.refresh idleUser [⟨false, serialAnswers⟩]).isSome) = some false := by
  decide +kernel

end Libhs.Win32
