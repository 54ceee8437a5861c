import Libhs.Win32.SerialStream

/-!
# The read engine keeps running

When `h->len` is 0 a read should be in flight, or have ended without anybody looking
at it, or else nobody starts the next one. Two things stop the engine for good: the
first read is not started when the device is opened, and a read ends with 0 bytes.
Both leave `h->len` at 0 with nothing in flight, and each later call asks for the
result of the same read again.

`running_iff` says that nothing else does, for serial and for HID devices.
-/

namespace Libhs.Win32.AsyncRead

/-- When `h->len` is 0, a read was started, and its end was not consumed. -/
def Handle.Running (h : Handle) : Prop := h.len = 0 → h.unconsumed = true

/-- `h->len` is 0, and no read will ever be started. -/
def Handle.Stuck (h : Handle) : Prop := h.len = 0 ∧ h.unconsumed = false

/-- The kernel ends a read with 0 bytes. -/
def Completion.isEmpty : Completion → Bool
  | .chunk bytes _ => bytes.isEmpty
  | .error => false

/-- The read that a call finishes did not end with 0 bytes: one that the call has to start again,
or the last one. A serial handle with unread bytes finishes none. -/
def findsBytes (type : HsDeviceType) (s : State) : Action → Bool
  | .complete _ => true
  | .read call =>
    if s.handle.len < 0 then !(call.restartOk && call.arrival.any Completion.isEmpty)
    else if type = .serial ∧ 0 < s.handle.len then true
    else (s.handle.arrive call.arrival).request ≠ .complete []

/-- The invariant: a HID handle has no unread bytes between two calls. -/
structure State.Steady (type : HsDeviceType) (s : State) : Prop where
  sound : s.handle.Sound
  stream : type = .serial → s.Streams
  message : type = .hid → s.handle.len ≤ 0

variable {h h' : Handle} {thread : Nat} {timeout : Int} {call : Call} {type : HsDeviceType}
  {s s' : State} {act : Action} {actions : List Action} {startOk : Bool} {result : ReadResult}

/-! ## One call -/

/-- After an attempt to start a read the engine runs. -/
theorem start_running (h : Handle) (thread : Nat) (ok : Bool) :
    Handle.Running { (startAsyncRead h thread ok).2 with len := (startAsyncRead h thread ok).1 } := by
  cases ok with
  | true => exact fun _ => rfl
  | false =>
    have hneg := hsError_neg .io (some "I/O error while reading from '%s'")
    exact fun hz => absurd hz (Int.ne_of_lt hneg)

theorem handOut_running (h : Handle) (call : Call) : (handOut h call).2.Running := by
  unfold handOut
  generalize (if call.size > h.len.toNat then h.len.toNat else call.size) = n
  simp only
  split
  · exact start_running _ _ _
  next hne => exact fun hz => absurd hz hne

/-- Whether the engine runs after a finished read, by what the read brought. -/
theorem finalize_running (hh : h.Sound) {arrival : Option Completion} {r : Int}
    (hf : finalizeAsyncRead h timeout arrival = some (r, h')) :
    ((h.arrive arrival).request ≠ .complete [] → r ≤ 0 → Handle.Running { h' with len := r }) ∧
      ((h.arrive arrival).request = .complete [] → r = 0 ∧ h'.unconsumed = false) := by
  rcases finalize_cases hf with ⟨hreq, rfl, rfl⟩ | ⟨bytes, hreq, rfl, rfl⟩ | ⟨hreq, hneg, rfl⟩
  · rw [hreq]
    exact ⟨fun _ _ _ => (arrive_spec hh arrival).1.inFlight hreq, nofun⟩
  · rw [hreq]
    refine ⟨fun hne hle => absurd ?_ hne, fun he => ?_⟩
    · rw [List.length_eq_zero_iff.mp (Int.natCast_eq_zero.mp (Int.le_antisymm hle (Int.natCast_nonneg _)))]
    · rw [Request.complete.inj he]
      exact ⟨rfl, rfl⟩
  · rw [hreq]
    exact ⟨fun _ _ hz => absurd hz (Int.ne_of_lt hneg), nofun⟩

/-- A call that gets to a read that may have ended. -/
theorem read_finishes (hz : (restart h call).len = 0) (hread : hsRead type h call = some (result, h')) :
    ∃ r h₁, finalizeAsyncRead (restart h call) call.timeout call.arrival = some (r, h₁) ∧
      ((r ≤ 0 ∧ h' = { h₁ with len := r }) ∨ (0 < r ∧ h'.Running)) := by
  have hneg : ¬ (restart h call).len < 0 := by omega
  cases type with
  | serial =>
    have hread : hsSerialRead h call = some (result, h') := hread
    simp only [hsSerialRead, hz, Int.lt_irrefl, ↓reduceIte] at hread
    obtain ⟨⟨r, h₁⟩, hf, hread⟩ := Option.bind_eq_some_iff.mp hread
    refine ⟨r, h₁, hf, ?_⟩
    split at hread
    next hle =>
      cases hread
      exact Or.inl ⟨hle, rfl⟩
    next hle =>
      have he : handOut { h₁ with len := r, ptr := 0 } call = (result, h') := Option.some.inj hread
      have hrun := handOut_running { h₁ with len := r, ptr := 0 } call
      rw [he] at hrun
      exact Or.inr ⟨Int.not_le.mp hle, hrun⟩
  | hid =>
    have hread : hsHidRead h call = some (result, h') := hread
    simp only [hsHidRead, hneg, ↓reduceIte] at hread
    obtain ⟨⟨r, h₁⟩, hf, hread⟩ := Option.bind_eq_some_iff.mp hread
    refine ⟨r, h₁, hf, ?_⟩
    split at hread
    next hle =>
      cases hread
      exact Or.inl ⟨hle, rfl⟩
    next hle =>
      cases hread
      exact Or.inr ⟨Int.not_le.mp hle, start_running _ _ _⟩

/-- A call that finishes a read leaves the engine running, unless the read brought nothing. -/
theorem finish_engine (hh : (restart h call).Sound) (hz : (restart h call).len = 0)
    (hread : hsRead type h call = some (result, h')) :
    (((restart h call).arrive call.arrival).request ≠ .complete [] → h'.Running) ∧
      (((restart h call).arrive call.arrival).request = .complete [] → h'.Stuck) := by
  obtain ⟨r, h₁, hf, hend⟩ := read_finishes hz hread
  obtain ⟨hgood, hbad⟩ := finalize_running hh hf
  rcases hend with ⟨hle, rfl⟩ | ⟨hpos, hrun⟩
  · refine ⟨fun hne => hgood hne hle, fun he => ?_⟩
    obtain ⟨rfl, hun⟩ := hbad he
    exact ⟨rfl, hun⟩
  · exact ⟨fun _ => hrun, fun he => absurd (hbad he).1 (Int.ne_of_gt hpos)⟩

/-- A call that cannot start the failed read again. -/
theorem read_failed (hneg : (restart h call).len < 0)
    (hread : hsRead type h call = some (result, h')) : h' = restart h call := by
  cases type with
  | serial =>
    have hread : hsSerialRead h call = some (result, h') := hread
    simp only [hsSerialRead, hneg, ↓reduceIte] at hread
    cases hread
    rfl
  | hid =>
    have hread : hsHidRead h call = some (result, h') := hread
    simp only [hsHidRead, hneg, ↓reduceIte] at hread
    cases hread
    rfl

/-- A read in flight ends with 0 bytes when the kernel says so. -/
theorem arrive_pending (hreq : h.request = .pending) (arrival : Option Completion) :
    (h.arrive arrival).request = .complete [] ↔ arrival.any Completion.isEmpty = true := by
  cases arrival with
  | none => simp [Handle.arrive, hreq]
  | some c =>
    cases c with
    | chunk bytes fits => simp [Handle.arrive, Handle.complete, hreq, Completion.isEmpty]
    | error => simp [Handle.arrive, Handle.complete, hreq, Completion.isEmpty]

/-- **What a call does to the engine.** It runs afterwards, unless the call finished a read of 0
bytes. -/
theorem read_engine (hs : s.Steady type) (hread : hsRead type s.handle call = some (result, h')) :
    (findsBytes type s (.read call) = true → h'.Running) ∧
      (findsBytes type s (.read call) = false → h'.Stuck) := by
  have hsound := restart_sound hs.sound call
  -- the last read failed, and the call tries to start one again
  by_cases hneg : s.handle.len < 0
  · cases hok : call.restartOk with
    | false =>
      have hlt : (restart s.handle call).len < 0 := by
        unfold restart
        rw [if_pos hneg, hok]
        exact hsError_neg .io (some "I/O error while reading from '%s'")
      obtain rfl := read_failed hlt hread
      refine ⟨fun _ hz => absurd hz (Int.ne_of_lt hlt), fun hno => ?_⟩
      simp [findsBytes, hneg, hok] at hno
    | true =>
      have hg : (restart s.handle call).len = 0 ∧ (restart s.handle call).request = .pending := by
        unfold restart
        rw [if_pos hneg, hok]
        exact ⟨rfl, rfl⟩
      have hfinds : findsBytes type s (.read call) = !call.arrival.any Completion.isEmpty := by
        simp only [findsBytes, hneg, hok, ↓reduceIte, Bool.true_and]
      obtain ⟨hgood, hbad⟩ := finish_engine hsound hg.1 hread
      rw [hfinds, Bool.not_eq_true', Bool.not_eq_false', ← arrive_pending hg.2]
      refine ⟨fun he => hgood fun hc => ?_, hbad⟩
      rw [(arrive_pending hg.2 _).mp hc] at he
      cases he
  · have hsame : restart s.handle call = s.handle := if_neg hneg
    by_cases hunread : type = .serial ∧ 0 < s.handle.len
    · -- the call hands out unread bytes
      have hfinds : findsBytes type s (.read call) = true := by
        simp only [findsBytes, hneg, ↓reduceIte, hunread, and_self]
      obtain ⟨rfl, hpos⟩ := hunread
      have hz : ¬ s.handle.len = 0 := by omega
      have hread : hsSerialRead s.handle call = some (result, h') := hread
      simp only [hsSerialRead, hsame, hneg, hz, ↓reduceIte, Option.some.injEq] at hread
      have hrun := handOut_running s.handle call
      rw [hread] at hrun
      rw [hfinds]
      exact ⟨fun _ => hrun, nofun⟩
    -- a read is in flight or finished, and nothing is unread
    · have hz : s.handle.len = 0 := by
        have hle : s.handle.len ≤ 0 := by
          cases type with
          | serial => exact Int.not_lt.mp fun hpos => hunread ⟨rfl, hpos⟩
          | hid => exact hs.message rfl
        omega
      have hfinds : findsBytes type s (.read call) =
          decide ((s.handle.arrive call.arrival).request ≠ .complete []) := by
        simp only [findsBytes, hneg, hunread, ↓reduceIte]
      obtain ⟨hgood, hbad⟩ := finish_engine hsound (by rw [hsame]; exact hz) hread
      rw [hsame] at hgood hbad
      rw [hfinds, decide_eq_true_eq, decide_eq_false_iff_not, not_not]
      exact ⟨hgood, hbad⟩

/-! ## Runs -/

theorem hidRead_sound (hh : h.Sound) (hle : h.len ≤ 0)
    (hread : hsHidRead h call = some (result, h')) : h'.Sound ∧ h'.len ≤ 0 := by
  have hsound := restart_sound hh call
  by_cases hneg : (restart h call).len < 0
  · have hread : hsRead .hid h call = some (result, h') := hread
    obtain rfl := read_failed hneg hread
    exact ⟨hsound, Int.le_of_lt hneg⟩
  · have hz : (restart h call).len = 0 := by
      refine Int.le_antisymm ?_ (Int.not_lt.mp hneg)
      unfold restart
      split
      · cases call.restartOk
        · exact Int.le_of_lt (hsError_neg .io (some "I/O error while reading from '%s'"))
        · exact Int.le_refl 0
      · exact hle
    simp only [hsHidRead, hneg, ↓reduceIte] at hread
    obtain ⟨⟨r, h₁⟩, hf, hread⟩ := Option.bind_eq_some_iff.mp hread
    split at hread
    next hr =>
      cases hread
      exact ⟨(finalize_spec hsound hz hf (p := h₁.ptr)
        (fun hpos => absurd hpos (Int.not_lt.mpr hr))).1, hr⟩
    next hr =>
      have hs₁ := (finalize_spec hsound hz hf (p := 0) (fun _ => rfl)).1
      have hr : ¬ r ≤ 0 := hr
      obtain ⟨hun, hreq⟩ := hs₁.idle (show r ≠ 0 by omega)
      obtain ⟨hs₂, hle₂, -, -⟩ := start_spec (h := { h₁ with len := r })
        call.thread hs₁.sized hun hreq call.startOk
      cases hread
      exact ⟨hs₂, hle₂⟩

theorem step_steady (hs : s.Steady type) (h : step type s act = some s') : s'.Steady type := by
  cases act with
  | complete c =>
    refine ⟨?_, fun ht => ?_, fun ht => ?_⟩
    · cases h
      exact complete_sound hs.sound c
    · exact step_streams (hs.stream ht) (ht ▸ h)
    · cases h
      rw [(complete_same s.handle c).1]
      exact hs.message ht
  | read call =>
    cases type with
    | serial =>
      have hst := step_streams (hs.stream rfl) h
      exact ⟨hst.sound, fun _ => hst, by simp⟩
    | hid =>
      simp only [step] at h
      split at h
      · obtain ⟨⟨result, h'⟩, hread, h⟩ := Option.bind_eq_some_iff.mp h
        cases h
        obtain ⟨hsound, hle⟩ := hidRead_sound hs.sound (hs.message rfl) hread
        exact ⟨hsound, by simp, fun _ => hle⟩
      · cases h

theorem start_steady (thread : Nat) (startOk : Bool) : (State.start thread startOk).Steady type := by
  have hs := start_streams thread startOk
  refine ⟨hs.sound, fun _ => hs, fun _ => ?_⟩
  cases startOk <;> exact Int.le_refl 0

/-- A step that finds bytes keeps the engine running; any other one stops it. -/
theorem step_engine (hs : s.Steady type) (h : step type s act = some s') :
    (s.handle.Running → findsBytes type s act = true → s'.handle.Running) ∧
      (s.handle.Stuck ∨ findsBytes type s act = false → s'.handle.Stuck) := by
  cases act with
  | complete c =>
    obtain ⟨hl, hu, -⟩ := complete_same s.handle c
    cases h
    refine ⟨fun hr _ => ?_, fun hbad => ?_⟩
    · unfold Handle.Running
      rw [hl, hu]
      exact hr
    · have hst := hbad.resolve_right nofun
      exact ⟨hl.trans hst.1, hu.trans hst.2⟩
  | read call =>
    simp only [step] at h
    split at h
    · obtain ⟨⟨result, h'⟩, hread, h⟩ := Option.bind_eq_some_iff.mp h
      cases h
      obtain ⟨hgood, hbad⟩ := read_engine hs hread
      refine ⟨fun _ he => hgood he, fun hor => hbad ?_⟩
      rcases hor with hst | he
      · -- the read that stopped the engine is asked for again
        have hreq := hs.sound.stalled hst.1 hst.2
        have harr : (s.handle.arrive call.arrival).request = .complete [] := by
          cases call.arrival with
          | none => exact hreq
          | some c =>
            unfold Handle.arrive Handle.complete
            simp only [hreq]
        simp [findsBytes, hst.1, harr]
      · exact he
    · cases h

theorem run_engine (hs : s.Steady type) (h : Run.run (step type) s actions = some s') :
    (s.handle.Running → Run.Along (step type) (fun s act => findsBytes type s act = true) s actions →
      s'.handle.Running) ∧
    (s.handle.Stuck ∨
        ¬ Run.Along (step type) (fun s act => findsBytes type s act = true) s actions →
      s'.handle.Stuck) := by
  induction actions generalizing s with
  | nil =>
    cases h
    exact ⟨fun hr _ => hr, fun hor => hor.resolve_right fun hno => hno trivial⟩
  | cons act actions ih =>
    obtain ⟨s₁, hstep, h⟩ := Run.run_cons h
    obtain ⟨hgood, hbad⟩ := step_engine hs hstep
    obtain ⟨ihgood, ihbad⟩ := ih (step_steady hs hstep) h
    refine ⟨fun hr hC => ihgood (hgood hr hC.1) (hC.2 s₁ hstep), fun hor => ihbad ?_⟩
    rcases hor with hst | hno
    · exact Or.inl (hbad (Or.inl hst))
    · cases hf : findsBytes type s act with
      | false => exact Or.inl (hbad (Or.inr hf))
      | true =>
        refine Or.inr fun hC => hno ⟨hf, fun s₂ h₂ => ?_⟩
        rw [hstep] at h₂
        cases h₂
        exact hC

/-- **The read engine keeps running, exactly when the first read was started and no call finishes a
read of 0 bytes.** For serial and for HID handles, in every state between two calls. -/
theorem running_iff (type : HsDeviceType) (thread : Nat) (startOk : Bool) (actions : List Action)
    (h : Run.run (step type) (State.start thread startOk) actions = some s) :
    (s.handle.len = 0 → s.handle.unconsumed = true) ↔
      startOk = true ∧ Run.Along (step type) (fun s act => findsBytes type s act = true)
        (State.start thread startOk) actions := by
  obtain ⟨hgood, hbad⟩ := run_engine (start_steady thread startOk) h
  constructor
  · intro hrun
    by_contra hno
    have hst : s.handle.Stuck := hbad (by
      cases startOk with
      | false => exact Or.inl ⟨rfl, rfl⟩
      | true => exact Or.inr fun hC => hno ⟨rfl, hC⟩)
    have hu := hrun hst.1
    rw [hst.2] at hu
    cases hu
  · rintro ⟨rfl, hC⟩
    exact hgood (fun _ => rfl) hC

theorem running_iff_two : ∃ s, Run.run (step .serial) (State.start 1 true) twoCalls = some s ∧
    ((s.handle.len = 0 → s.handle.unconsumed = true) ↔
      true = true ∧ Run.Along (step .serial) (fun s act => findsBytes .serial s act = true)
        (State.start 1 true) twoCalls) := by
  obtain ⟨s, h⟩ : ∃ s, Run.run (step .serial) (State.start 1 true) twoCalls = some s :=
    Option.isSome_iff_exists.mp (by decide +kernel)
  exact ⟨s, h, running_iff .serial 1 true twoCalls h⟩

/-- A read that ends with 0 bytes. -/
def emptyRead : List Action :=
  [.complete (.chunk [] (by decide)), .read ⟨8, 0, 1, true, none, true⟩]

/-- `h->len` stays 0, and no read is in flight. -/
theorem empty_read_stops : ∃ s, Run.run (step .serial) (State.start 1 true) emptyRead = some s ∧
    s.handle.len = 0 ∧ s.handle.unconsumed = false := by
  obtain ⟨s, h, hs⟩ := Option.map_eq_some_iff.mp (by decide +kernel :
    (Run.run (step .serial) (State.start 1 true) emptyRead).map
      (fun s => (s.handle.len, s.handle.unconsumed)) = some (0, false))
  exact ⟨s, h, congrArg Prod.fst hs, congrArg Prod.snd hs⟩

end Libhs.Win32.AsyncRead
