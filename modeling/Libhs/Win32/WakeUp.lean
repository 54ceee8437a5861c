import Libhs.Win32.Queue

/-!
# Wake-ups

The user polls `monitor->event` to learn that there is something to refresh. Whether
a notification or an error is lost on the user depends on the steps that reset the
event: the end of `hs_monitor_new` does so without a look at the queue, and the end
of a refresh without a look at the error.

In every run in which these steps find nothing (`findsNoNotification`,
`findsNoError`), what is pending is signalled (`wakeUp_of_notification`,
`wakeUp_of_error`). Each condition can fail, and then the wake-up is lost
(`resetEvent_loses_notification`, `endRefresh_loses_error`).
-/

namespace Libhs.Win32
open Pointer

/-- `hs_monitor_new` has returned the monitor, and it was not freed. -/
def Main.returned : Main → Bool
  | .idle | .refreshing _ _ | .finishing _ => true
  | _ => false

/-- Between the calls of the user, a queued notification is signalled. -/
def NotificationSignalled (s : State) : Prop :=
  s.main = .idle → hsListIsEmpty s.queue.links .shared = some false → s.queue.event = true

/-- Between the calls of the user, a stored error is signalled, unless the background thread is
about to do so: its last store is not in a critical section. -/
def ErrorSignalled (s : State) : Prop :=
  s.main = .idle → s.thread ≠ .signalling → s.queue.ret < 0 → s.queue.event = true

/-- The `ResetEvent` of `hs_monitor_new` finds an empty queue. -/
def findsNoNotification (s : State) : Action → Bool
  | .resetEvent => hsListIsEmpty s.queue.links .shared = some true
  | _ => true

/-- A `ResetEvent` finds no stored error: that of `hs_monitor_new`, and that of a refresh, which
happens when both its list and the queue are empty. -/
def findsNoError (s : State) : Action → Bool
  | .resetEvent => ¬ s.queue.ret < 0
  | .endRefresh => hsListIsEmpty s.queue.links .own = some true →
    hsListIsEmpty s.queue.links .shared = some true → ¬ s.queue.ret < 0
  | _ => true

variable {u : User} {s s' : State} {act : Action} {M : Mailbox DeviceNotification}
  {tree : CStr → Option Node} {actions : List Action}

/-! ## The steps into and within the returned monitor -/

theorem freeMonitor_not_returned {r : Int} (h : s.freeMonitor r = some s') :
    s'.main.returned = false := by
  obtain ⟨w, -, rfl⟩ := freeMonitor_some h
  rfl

/-- A monitor is returned by the last step of `hs_monitor_new`. -/
theorem returned_before (h : Steps u s s' act) (hr : s'.main.returned = true) :
    s.main.returned = true ∨ act = .resetEvent := by
  have hfree : ∀ {s₁ : State} {r : Int}, s₁.freeMonitor r = some s' → False := by
    intro s₁ r h
    rw [freeMonitor_not_returned h] at hr
    cases hr
  -- the background never moves the thread of the user
  by_cases hb : act.background = true
  · rw [(background_same h hb).1] at hr
    exact Or.inl hr
  cases h with
  | newMonitor hm h =>
    rcases newMonitor_some h with ⟨-, rfl⟩ | ⟨q, s₁, -, -, rfl, ⟨r, -, h⟩ | ⟨r, w, -, ⟨r', -, h⟩ | ⟨-, -, rfl⟩⟩⟩
    · exact Or.inl hr
    · exact (hfree h).elim
    · exact (hfree h).elim
    · cases hr
  | @scanClass set c classes hm h =>
    cases set with
    | none => exact (hfree h).elim
    | some set => cases h; cases hr
  | readDevice hm h =>
    obtain ⟨r, w, -, ⟨-, h⟩ | ⟨-, rfl⟩ | ⟨-, rfl⟩⟩ := readDevice_some h
    · exact (hfree h).elim
    · cases hr
    · cases hr
  | @beginThread ok hm h => subst h; cases ok <;> cases hr
  | waitEvent hm h =>
    unfold State.waitEvent at h
    split at h
    · split at h
      · cases h; cases hr
      · cases h
    · exact (hfree h).elim
  | checkRet hm h =>
    unfold State.checkRet at h
    split at h
    · exact (hfree h).elim
    · cases h; cases hr
  | resetEvent hm h => exact Or.inr rfl
  | beginRefresh hm h => exact Or.inl (by rw [hm]; rfl)
  | processNotification hm h => exact Or.inl (by rw [hm]; rfl)
  | endRefresh hm h => exact Or.inl (by rw [hm]; rfl)
  | freeMonitor hm h => exact (hfree h).elim
  | joinThread hm hend h =>
    obtain ⟨q, -, h⟩ := Option.bind_eq_some_iff.mp h
    cases h
    cases hr
  | register hm e h => subst h; exact Or.inl hr
  | deregister hm e h => subst h; exact Or.inl hr
  | list hm e h => subst h; exact Or.inl hr
  | enumerate hm e h => subst h; exact Or.inl hr
  | user hm e h => subst h; exact Or.inl hr
  | setUp | signalReady | dispatch | post | storeError | getMessageFails | quit | leave
  | signalError | arrive | depart => exact absurd rfl hb

/-! ## Notifications -/

theorem isEmpty_shared {own shared : List Nat} (hs : s.Represents own shared M) :
    hsListIsEmpty s.queue.links .shared = some M.waiting.isEmpty := by
  rw [listIsEmpty_spec hs.queue.waiting.ring]
  have hlen := congrArg List.length hs.queue.waiting.notes
  simp only [List.length_map] at hlen
  rw [Option.some.injEq, Bool.eq_iff_iff, List.isEmpty_iff_length_eq_zero,
    List.isEmpty_iff_length_eq_zero, List.length_map, hlen]

/-- What the events of a returned monitor cover. -/
def Covered (s : State) : Prop :=
  ∃ M, Related s M ∧ (s.main.returned = true → M.Covers)

theorem covered_step (hs : Covered s) (hC : findsNoNotification s act)
    (h : Steps u s s' act) : Covered s' := by
  obtain ⟨M, hrel, hcov⟩ := hs
  obtain ⟨hallow, hrel'⟩ := steps_related hrel h
  refine ⟨_, hrel', fun hr => ?_⟩
  rcases returned_before h hr with hr₀ | rfl
  · -- the monitor was returned before, so only `resetEvent` could lower the flag
    cases hop : s.mailOp act with
    | none => exact hcov hr₀
    | some op =>
      refine (hcov hr₀).apply (hallow op hop) ?_
      rintro rfl
      have hact : act = .resetEvent := mailOp_some hop
      subst hact
      cases h with
      | resetEvent hm h =>
        rw [hm] at hr₀
        cases hr₀
  · cases h with
    | resetEvent hm h =>
      obtain ⟨own, shared, hrep⟩ := (related_iff (by rw [hm]; simp)).mp hrel
      have hown : own = [] := (owns_iff (by rw [hm]; rfl)).mp hrep.main
      subst hown
      have htaken : M.taken = [] := by simpa using hrep.queue.taken.symm
      have hempty : hsListIsEmpty s.queue.links .shared = some true := by
        simpa [findsNoNotification] using hC
      rw [isEmpty_shared hrep] at hempty
      have hwaiting : M.waiting = [] := by simpa using hempty
      intro hne
      refine absurd ?_ hne
      show M.taken ++ M.waiting = []
      rw [htaken, hwaiting]
      rfl

/-- In a run in which the `ResetEvent` of `hs_monitor_new` always finds an empty queue, a queued
notification is signalled in every state between the calls of the user. -/
theorem wakeUp_of_notification (u : User) (tree : CStr → Option Node) (actions : List Action)
    (s : State) (h : Run.run (step u) (.start tree) actions = some s)
    (hC : Run.Along (step u) (fun s act => findsNoNotification s act) (.start tree) actions) :
    NotificationSignalled s := by
  have hcov : Covered s := Run.run_rule (fun s act s' hs hC e => covered_step hs hC (steps_of_step e))
    ⟨.empty, related_start tree _, fun hr => nomatch hr⟩ hC h
  obtain ⟨M, hrel, hcov⟩ := hcov
  intro hm hne
  obtain ⟨own, shared, hrep⟩ := (related_iff (by rw [hm]; simp)).mp hrel
  rw [isEmpty_shared hrep] at hne
  rw [← hrep.queue.flag]
  refine hcov (by rw [hm]; rfl) fun hnil => ?_
  rw [(List.append_eq_nil_iff.mp hnil).2] at hne
  cases hne

/-- The background thread posts a notification between its ready signal and the `ResetEvent` of
`hs_monitor_new`, which swallows the signal. -/
theorem resetEvent_loses_notification : ∃ s, Run.run (step idleUser) (.start fun _ => none)
      (createEmpty ++ makeWindow ++ plugIn (.lit "##?#USB#1") ++ finishNew) = some s ∧
      ¬ NotificationSignalled s := by
  have hrun : (Run.run (step idleUser) (.start fun _ => none)
      (createEmpty ++ makeWindow ++ plugIn (.lit "##?#USB#1") ++ finishNew)).map
        (fun s => (s.main, hsListIsEmpty s.queue.links .shared, s.queue.event)) =
      some (.idle, some false, false) := by
    decide +kernel
  obtain ⟨s, e, hs⟩ := Option.map_eq_some_iff.mp hrun
  simp only [Prod.mk.injEq] at hs
  refine ⟨s, e, fun hsig => ?_⟩
  rw [hsig hs.1 hs.2.1] at hs
  cases hs.2.2

/-- A notification that comes after `hs_monitor_new` has returned is signalled. -/
theorem wakeUp_of_notification_later : ∃ s, Run.run (step idleUser) (.start fun _ => none)
      (createEmpty ++ makeWindow ++ finishNew ++ plugIn (.lit "##?#USB#1")) = some s ∧
      NotificationSignalled s := by
  have hC : Run.check (step idleUser) findsNoNotification (.start fun _ => none)
      (createEmpty ++ makeWindow ++ finishNew ++ plugIn (.lit "##?#USB#1")) = true := by
    decide +kernel
  have hrun : (Run.run (step idleUser) (.start fun _ => none)
      (createEmpty ++ makeWindow ++ finishNew ++ plugIn (.lit "##?#USB#1"))).isSome := by
    decide +kernel
  obtain ⟨s, e⟩ := Option.isSome_iff_exists.mp hrun
  exact ⟨s, e, wakeUp_of_notification _ _ _ s e (Run.along_of_check hC)⟩

/-! ## Errors -/

/-- An error of a returned monitor keeps its event up, unless the thread is about to signal it. -/
def Told (s : State) : Prop :=
  ∃ M, Related s M ∧ (s.main.returned = true → s.thread ≠ .signalling → M.Tells)

/-- The background thread leaves `signalling` by its signal, and stores its last error before. -/
theorem signalling_step (h : Steps u s s' act) (hr : s'.main.returned = true) :
    (s.thread = .signalling → s'.thread ≠ .signalling → act = .signalError) ∧
      (act = .leave → ∀ r, s.mailOp act = some (.store r) → s'.thread = .signalling) := by
  by_cases hb : act.background = true
  · cases h with
    | signalError ht h => exact ⟨fun _ _ => rfl, by simp⟩
    | @leave r ht h =>
      subst h
      refine ⟨fun hth => absurd (ht.symm.trans hth) (by simp), fun _ r' hop => ?_⟩
      simp only [State.mailOp, ht, Option.ite_none_right_eq_some] at hop
      simp [State.leave, hop.1]
    | arrive h =>
      obtain ⟨-, rfl⟩ := arrive_some h
      exact ⟨fun hth hne => absurd hth hne, by simp⟩
    | depart h =>
      obtain ⟨-, rfl⟩ := depart_some h
      exact ⟨fun hth hne => absurd hth hne, by simp⟩
    | setUp ht h | signalReady ht h | dispatch ht h | post ht h | storeError ht h
    | getMessageFails ht h | quit ht h =>
      exact ⟨fun hth => absurd (ht.symm.trans hth) (by simp), by simp⟩
    | _ => cases hb
  · have hb : act.background = false := by simpa using hb
    refine ⟨fun hth hne => ?_, fun hact => by subst hact; cases hb⟩
    rcases (foreground_same h hb).2 with ht | hm | hm
    · exact absurd (ht.trans hth) hne
    · rw [hm] at hr
      cases hr
    · rw [hm] at hr
      cases hr

theorem isEmpty_own {own shared : List Nat} (hs : s.Represents own shared M)
    (hm : s.main.inRefresh = true) :
    hsListIsEmpty s.queue.links .own = some M.taken.isEmpty := by
  rw [listIsEmpty_spec (hs.ring hm)]
  have hlen := congrArg List.length hs.queue.taken
  simp only [List.length_map] at hlen
  rw [Option.some.injEq, Bool.eq_iff_iff, List.isEmpty_iff_length_eq_zero,
    List.isEmpty_iff_length_eq_zero, List.length_map, hlen]

theorem told_step (hs : Told s) (hC : findsNoError s act) (h : Steps u s s' act) : Told s' := by
  obtain ⟨M, hrel, htell⟩ := hs
  obtain ⟨-, hrel'⟩ := steps_related hrel h
  refine ⟨_, hrel', fun hr hth' => ?_⟩
  obtain ⟨hleaves, hstores⟩ := signalling_step h hr
  rcases returned_before h hr with hr₀ | rfl
  · by_cases hth : s.thread = .signalling
    · -- the signal of the thread raises the flag
      obtain rfl := hleaves hth hth'
      exact fun _ => rfl
    · cases hop : s.mailOp act with
      | none => exact htell hr₀ hth
      | some op =>
        refine (htell hr₀ hth).apply ?_ ?_ fun r he => ?_
        -- the event is reset before the monitor is returned
        · rintro rfl
          have hact : act = .resetEvent := mailOp_some hop
          subst hact
          cases h with
          | resetEvent hm h =>
            rw [hm] at hr₀
            cases hr₀
        -- the end of a refresh lowers the flag when both lists are empty
        · rintro rfl hnil
          have hact : act = .endRefresh := mailOp_some hop
          subst hact
          cases h with
          | endRefresh hm h =>
            obtain ⟨own, shared, hrep⟩ := (related_iff (by rw [hm]; simp)).mp hrel
            obtain ⟨ht, hw⟩ := List.append_eq_nil_iff.mp hnil
            have hown := isEmpty_own hrep (by rw [hm]; rfl)
            have hshared := isEmpty_shared hrep
            rw [ht] at hown
            rw [hw] at hshared
            rw [hrep.queue.error]
            simpa [findsNoError, hown, hshared] using hC
        · subst he
          have hact : act = .leave := mailOp_some hop
          exact absurd (hstores hact r hop) hth'
  · cases h with
    | resetEvent hm h =>
      have herr := hrel.error (by rw [hm]; simp)
      have hnone : ¬ s.queue.ret < 0 := by simpa [findsNoError] using hC
      intro hneg
      have hneg : M.error < 0 := hneg
      rw [herr] at hneg
      exact absurd hneg hnone

/-- In a run in which every `ResetEvent` finds no stored error, a stored error is signalled in every
state between the calls of the user. -/
theorem wakeUp_of_error (u : User) (tree : CStr → Option Node) (actions : List Action) (s : State)
    (h : Run.run (step u) (.start tree) actions = some s)
    (hC : Run.Along (step u) (fun s act => findsNoError s act) (.start tree) actions) :
    ErrorSignalled s := by
  have htold : Told s := Run.run_rule (fun s act s' hs hC e => told_step hs hC (steps_of_step e))
    ⟨.empty, related_start tree _, fun hr => nomatch hr⟩ hC h
  obtain ⟨M, hrel, htell⟩ := htold
  intro hm hth hneg
  have habs : s.main ≠ .absent := by rw [hm]; simp
  rw [← hrel.error habs] at hneg
  rw [← hrel.flag habs]
  exact htell (by rw [hm]; rfl) hth hneg

/-- A post that fails for lack of memory. -/
def failPost (name : CStr) : List Action :=
  [.arrive name ⟨.usb, some 0⟩, .dispatch ⟨false, true⟩, .storeError]

/-- A post fails while a refresh of an empty queue runs, which then resets the event. -/
theorem endRefresh_loses_error : ∃ s, Run.run (step idleUser) (.start fun _ => none)
      (createEmpty ++ makeWindow ++ finishNew ++ [.beginRefresh] ++ failPost (.lit "##?#USB#1") ++
        [.endRefresh]) = some s ∧ ¬ ErrorSignalled s := by
  have hrun : (Run.run (step idleUser) (.start fun _ => none)
      (createEmpty ++ makeWindow ++ finishNew ++ [.beginRefresh] ++ failPost (.lit "##?#USB#1") ++
        [.endRefresh])).map (fun s => (s.main, s.thread, s.queue.ret, s.queue.event)) =
      some (.idle, .waiting, -1, false) := by
    decide +kernel
  obtain ⟨s, e, hs⟩ := Option.map_eq_some_iff.mp hrun
  simp only [Prod.mk.injEq] at hs
  obtain ⟨hm, hth, hret, hev⟩ := hs
  refine ⟨s, e, fun hsig => ?_⟩
  have hup := hsig hm (by rw [hth]; simp) (by rw [hret]; decide)
  rw [hev] at hup
  cases hup

/-- A post that fails outside of a refresh is signalled. -/
theorem wakeUp_of_error_later : ∃ s, Run.run (step idleUser) (.start fun _ => none)
      (createEmpty ++ makeWindow ++ finishNew ++ failPost (.lit "##?#USB#1")) = some s ∧
      ErrorSignalled s := by
  have hC : Run.check (step idleUser) findsNoError (.start fun _ => none)
      (createEmpty ++ makeWindow ++ finishNew ++ failPost (.lit "##?#USB#1")) = true := by
    decide +kernel
  have hrun : (Run.run (step idleUser) (.start fun _ => none)
      (createEmpty ++ makeWindow ++ finishNew ++ failPost (.lit "##?#USB#1"))).isSome := by
    decide +kernel
  obtain ⟨s, e⟩ := Option.isSome_iff_exists.mp hrun
  exact ⟨s, e, wakeUp_of_error _ _ _ s e (Run.along_of_check hC)⟩

end Libhs.Win32
