import Libhs.Darwin.ReportQueue
import Libhs.Lib.Doorbell

/-!
# The pipe of a HID handle

`hs_poll` and the `poll` in `hs_hid_read` look at the pipe, so it should hold a byte
exactly when a report is queued or an error is stored. The pipe is a doorbell
(`bell`), and each step is one of its operations, or none (`step_bell`).

* `pending_ready`: what is pending can be read from the pipe, in every state in which
  no write is outstanding.
* `pipe_empty_iff`: a pipe without anything pending is empty if and only if the steps
  were `tidy`. The write behind the critical section lets a read overtake it
  (`stale_readiness`), and then the pipe is never right again.
-/

namespace Libhs.Darwin
open Pointer

/-- A report is queued, or an error is stored. -/
def Handle.pending (h : Handle) : Bool :=
  h.threadRet < 0 || hsListIsEmpty h.links .reports = some false

/-- `hs_hid_read` will leave nothing behind: it takes the last report, or the error. -/
def Handle.drains (h : Handle) : Bool :=
  if h.threadRet < 0 then hsListIsEmpty h.links .reports = some true
  else hsListIsSingular h.links .reports = some true

def bell (s : State) : Doorbell := ⟨s.handle.pending, s.firing, s.handle.pipe⟩

/-- What a step does to the bell. -/
def bellOp (s : State) : Action → Option Doorbell.Op
  | .opened => none
  | .report type _ _ _ =>
    if type = .input then some (.post (hsListIsEmpty s.handle.links .reports = some true)) else none
  | .removal => some .poke
  | .fire => some .ring
  | .read _ timeout poll =>
    if reachesLock s.handle timeout poll && s.handle.pending then some (.collect !s.handle.drains)
    else none

/-- The steps that keep the pipe right: no report or error comes to an empty queue while an error is
stored, and no read takes the last thing before the pipe is written. -/
def tidy (s : State) : Action → Bool
  | .report type _ _ _ =>
    !(type = .input && hsListIsEmpty s.handle.links .reports = some true && s.handle.threadRet < 0)
  | .read _ timeout poll => !(reachesLock s.handle timeout poll && s.firing && s.handle.drains)
  | _ => true

variable {s s' : State} {act : Action} {size pipeSize : Nat} {q f : List Nat}
  {taken : List (List UInt8)} {h : Handle} {actions : List Action}

theorem pending_eq (hh : h.Holds q f) : h.pending = (decide (h.threadRet < 0) || !q.isEmpty) := by
  unfold Handle.pending
  rw [listIsEmpty_spec hh.reports, List.isEmpty_map]
  cases q <;> rfl

theorem drains_eq (hh : h.Holds q f) :
    h.drains = if h.threadRet < 0 then q.isEmpty else decide (q.length = 1) := by
  unfold Handle.drains
  rw [listIsEmpty_spec hh.reports, listIsSingular_spec hh.reports, List.isEmpty_map, List.length_map]
  cases q <;> simp

/-! ## One step -/

theorem isEmpty_eq (hh : h.Holds q f) : hsListIsEmpty h.links .reports = some q.isEmpty := by
  rw [listIsEmpty_spec hh.reports, List.isEmpty_map]

/-- Taking something away, with `left` more of it. -/
theorem bell_drained (s : State) (h : Handle) (returned : List (Nat × List UInt8)) (q : List Nat)
    (hp : h.pipe = s.handle.pipe) (hpend : (h.drainedIf q.isEmpty).pending = !q.isEmpty) :
    bell { s with handle := h.drainedIf q.isEmpty, returned := returned } =
      (bell s).apply s.handle.pipeSize (.collect !q.isEmpty) := by
  unfold bell Doorbell.apply
  simp only [hpend, ← hp]
  cases q <;> rfl

/-- A report that arrives posts, and rings if it found nothing queued. -/
theorem report_bell (hs : s.Queues size q f taken) {type : ReportType} {id : UInt32}
    {data : List UInt8} {callocOk : Bool} (h : step s (.report type id data callocOk) = some s') :
    bell s' = (bell s).applyOption s.handle.pipeSize (bellOp s (.report type id data callocOk)) ∧
      ∀ op, bellOp s (.report type id data callocOk) = some op → (bell s).Allows op := by
  obtain ⟨hf, fire, report, h', hrep, rfl⟩ := report_step hs h
  have hpost : decide (hsListIsEmpty s.handle.links .reports = some true) = q.isEmpty := by
    rw [isEmpty_eq hs.holds]
    cases q <;> rfl
  -- where nothing is pending the queue is empty, and the report rings
  have hallows : (bell s).Allows (.post q.isEmpty) := by
    refine ⟨hf, fun hw => ?_⟩
    have hw : s.handle.pending = false := hw
    rw [pending_eq hs.holds] at hw
    simpa using (Bool.or_eq_false_iff.mp hw).2
  have hop : bellOp s (.report .input id data callocOk) = some (.post q.isEmpty) := by
    show some (Doorbell.Op.post _) = _
    rw [hpost]
  cases hrep with
  | ignored hne _ =>
    have hnone : bellOp s (.report type id data callocOk) = none := if_neg hne
    rw [hnone]
    refine ⟨?_, nofun⟩
    show (⟨_, false, _⟩ : Doorbell) = ⟨_, s.firing, _⟩
    rw [hf]
  | @accepted a f' _ hh hsame hwait =>
    rw [hop]
    refine ⟨?_, fun op he => Option.some.inj he ▸ hallows⟩
    have hp : h'.pending = true := by
      rw [pending_eq hh]
      simp
    show (⟨h'.pending, q.isEmpty, h'.pipe⟩ : Doorbell) = ⟨true, q.isEmpty, s.handle.pipe⟩
    rw [hp, hsame.pipe]
  | full hh hlen =>
    rw [hop]
    refine ⟨?_, fun op he => Option.some.inj he ▸ hallows⟩
    have hne : q.isEmpty = false := by
      cases q with
      | nil => cases hlen
      | cons a q => rfl
    have hp : s.handle.pending = true := by
      rw [pending_eq hh, hne, Bool.not_false, Bool.or_true]
    show (⟨s.handle.pending, false, s.handle.pipe⟩ : Doorbell) = ⟨true, q.isEmpty, s.handle.pipe⟩
    rw [hp, hne]
  | noMemory hh _ =>
    rw [hop]
    refine ⟨?_, fun op he => Option.some.inj he ▸ hallows⟩
    have hp : Handle.pending { s.handle with threadRet := hsError .memory none } = true := by
      unfold Handle.pending
      rw [decide_eq_true (hsError_neg .memory none), Bool.true_or]
    show (⟨Handle.pending _, q.isEmpty, s.handle.pipe⟩ : Doorbell) = ⟨true, q.isEmpty, s.handle.pipe⟩
    rw [hp]

/-- A read that gets to something collects it. -/
theorem read_bell (hs : s.Queues size q f taken) {n : Nat} {timeout : Int} {poll : Poll}
    (h : step s (.read n timeout poll) = some s') :
    bell s' = (bell s).applyOption s.handle.pipeSize (bellOp s (.read n timeout poll)) ∧
      ∀ op, bellOp s (.read n timeout poll) = some op → (bell s).Allows op := by
  obtain ⟨-, ⟨hlock, rfl⟩ | ⟨hlock, result, h', q', f', hholds, hread, rfl⟩⟩ := read_step hs h
  · simp only [bellOp, hlock, Bool.false_and, Bool.false_eq_true, ↓reduceIte]
    exact ⟨rfl, nofun⟩
  · have hpend := pending_eq hs.holds
    have hdrain := drains_eq hs.holds
    have hpend' := pending_eq hholds
    simp only [bellOp, hlock, Bool.true_and]
    cases hread with
    | error hneg =>
      rw [decide_eq_true hneg, Bool.true_or] at hpend
      rw [if_pos hneg] at hdrain
      simp only [hpend, hdrain, ↓reduceIte]
      refine ⟨bell_drained s { s.handle with threadRet := 0 } _ q rfl ?_,
        fun op he => Option.some.inj he ▸ hpend⟩
      rw [hpend']
      cases q <;> rfl
    | nothing hnn =>
      rw [decide_eq_false hnn] at hpend
      simp only [hpend, List.isEmpty_nil, Bool.not_true, Bool.or_false, Bool.false_eq_true,
        ↓reduceIte]
      exact ⟨rfl, nofun⟩
    | @report a _ _ links hnn hle hpos =>
      rw [List.isEmpty_cons, Bool.not_false, Bool.or_true] at hpend
      rw [if_neg hnn] at hdrain
      have hleft : (!decide ((a :: q').length = 1)) = !q'.isEmpty := by cases q' <;> simp
      simp only [hpend, hdrain, hleft, ↓reduceIte]
      refine ⟨bell_drained s { s.handle with links := links } _ q' rfl ?_,
        fun op he => Option.some.inj he ▸ hpend⟩
      have hret : (Handle.drainedIf { s.handle with links := links } q'.isEmpty).threadRet =
          s.handle.threadRet := by cases q' <;> rfl
      rw [hpend', hret, decide_eq_false hnn, Bool.false_or]

/-- A step is an allowed operation of the bell, or none. -/
theorem step_bell (hs : s.Queues size q f taken) (h : step s act = some s') :
    bell s' = (bell s).applyOption s.handle.pipeSize (bellOp s act) ∧
      ∀ op, bellOp s act = some op → (bell s).Allows op := by
  cases act with
  | opened =>
    simp only [step] at h
    split at h
    next hgo =>
      cases h
      have hnn : ¬ s.handle.threadRet < 0 := of_decide_eq_true (Bool.and_eq_true_iff.mp hgo).2
      refine ⟨?_, fun op hop => by cases hop⟩
      simp [bell, bellOp, Doorbell.applyOption, Handle.pending, hnn]
    · cases h
  | report type id data callocOk => exact report_bell hs h
  | removal =>
    simp only [step] at h
    split at h
    · cases h
    next hf =>
      cases h
      exact ⟨rfl, fun op hop => by
        cases hop
        exact Bool.eq_false_iff.mpr hf⟩
  | fire =>
    simp only [step] at h
    split at h
    next hf =>
      cases h
      refine ⟨?_, fun op hop => by
        cases hop
        exact hf⟩
      simp only [bellOp, Doorbell.applyOption, Doorbell.apply, bell, fireDeviceEvent]
      split
      next hlt =>
        simp only [hlt, ↓reduceIte]
        rfl
      next hlt => simp only [hlt, ↓reduceIte]
    · cases h
  | read n timeout poll => exact read_bell hs h

theorem drainedIf_rest (h : Handle) (empty : Bool) :
    (h.drainedIf empty).pipeSize = h.pipeSize ∧ (h.drainedIf empty).hid = h.hid := by
  cases empty <;> exact ⟨rfl, rfl⟩

/-- The pipe keeps its size, and a device that is there now was there before. -/
theorem step_pipeSize (hs : s.Queues size q f taken) (h : step s act = some s') :
    s'.handle.pipeSize = s.handle.pipeSize ∧
      (s'.handle.hid = true → s.handle.hid = true ∧ act ≠ .removal) := by
  cases act with
  | opened =>
    simp only [step] at h
    split at h
    · cases h
      exact ⟨rfl, fun hh => ⟨hh, by simp⟩⟩
    · cases h
  | report type id data callocOk =>
    obtain ⟨-, fire, report, h', hrep, rfl⟩ := report_step hs h
    cases hrep with
    | accepted _ hsame _ => exact ⟨hsame.pipeSize, fun hh => ⟨hsame.hid ▸ hh, by simp⟩⟩
    | _ => exact ⟨rfl, fun hh => ⟨hh, by simp⟩⟩
  | removal =>
    simp only [step] at h
    split at h
    · cases h
    · cases h
      exact ⟨rfl, fun hh => Bool.noConfusion hh⟩
  | fire =>
    simp only [step, fireDeviceEvent] at h
    split at h
    · cases h
      split
      · exact ⟨rfl, fun hh => ⟨hh, by simp⟩⟩
      · exact ⟨rfl, fun hh => ⟨hh, by simp⟩⟩
    · cases h
  | read n timeout poll =>
    obtain ⟨-, ⟨-, rfl⟩ | ⟨-, result, h', q', f', -, hread, rfl⟩⟩ := read_step hs h
    · exact ⟨rfl, fun hh => ⟨hh, by simp⟩⟩
    · cases hread with
      | error =>
        obtain ⟨hp, hh⟩ := drainedIf_rest { s.handle with threadRet := 0 } q.isEmpty
        exact ⟨hp, fun ht => ⟨hh ▸ ht, by simp⟩⟩
      | nothing => exact ⟨rfl, fun hh => ⟨hh, by simp⟩⟩
      | @report _ _ _ links =>
        obtain ⟨hp, hh⟩ := drainedIf_rest { s.handle with links := links } q'.isEmpty
        exact ⟨hp, fun ht => ⟨hh ▸ ht, by simp⟩⟩

/-- With the device there, the tidy steps are the tidy operations of the bell. -/
theorem tidy_iff (hs : s.Queues size q f taken) (hr : act ≠ .removal) :
    tidy s act = true ↔ ∀ op, bellOp s act = some op → (bell s).Tidy op := by
  cases act with
  | opened => exact ⟨fun _ => nofun, fun _ => rfl⟩
  | removal => exact absurd rfl hr
  | fire =>
    refine ⟨fun _ op he => ?_, fun _ => rfl⟩
    cases he
    trivial
  | report type id data callocOk =>
    have he := isEmpty_eq hs.holds
    by_cases htype : type = .input
    · cases q <;> simp [tidy, bellOp, bell, Doorbell.Tidy, Handle.pending, htype, he]
    · simp [tidy, bellOp, htype]
  | read n timeout poll =>
    have hd : s.handle.drains = true → s.handle.pending = true := by
      rw [drains_eq hs.holds, pending_eq hs.holds]
      split
      next hneg => simp [hneg]
      next hneg => cases q <;> simp
    cases hlock : reachesLock s.handle timeout poll with
    | false => simp [tidy, bellOp, hlock]
    | true =>
      cases hp : s.handle.pending with
      | false =>
        have hdf : s.handle.drains = false := Bool.eq_false_iff.mpr fun hdt => by
          rw [hd hdt] at hp
          cases hp
        simp [tidy, bellOp, hlock, hp, hdf]
      | true =>
        simp only [tidy, bellOp, hlock, hp, Bool.true_and, ↓reduceIte, Option.some.injEq,
          forall_eq', Doorbell.Tidy, bell]
        cases s.firing <;> cases s.handle.drains <;> simp

/-! ## Runs -/

theorem start_quiet : bell (State.start size pipeSize) = Doorbell.quiet := rfl

/-- What is pending is rung for in every state of every run. -/
theorem run_heard (hp : 0 < pipeSize) (h : Run.run step (State.start size pipeSize) actions = some s) :
    (bell s).Heard := by
  have hI := Run.run_rule_always
    (I := fun s => (∃ q f taken, s.Queues size q f taken) ∧ s.handle.pipeSize = pipeSize ∧
      (bell s).Heard) (s := State.start size pipeSize) ?_
    ⟨⟨[], [], [], start_queues⟩, rfl, start_quiet ▸ Doorbell.heard_quiet⟩ h
  · exact hI.2.2
  · rintro s act s' ⟨⟨q, f, taken, hs⟩, hsize, hheard⟩ h
    obtain ⟨hbell, hallows⟩ := step_bell hs h
    refine ⟨step_queues hs h, (step_pipeSize hs h).1.trans hsize, ?_⟩
    rw [hbell]
    cases hop : bellOp s act with
    | none => exact hheard
    | some op => exact hheard.apply (hsize ▸ hp) (hallows op hop)

/-- A pipe with too much in it stays so. -/
theorem run_excess (hp : 1 < s.handle.pipeSize) (hs : s.Queues size q f taken)
    (hx : (bell s).Excess) (h : Run.run step s actions = some s') : (bell s').Excess := by
  have hI := Run.run_rule_always
    (I := fun s => (∃ q f taken, s.Queues size q f taken) ∧ 1 < s.handle.pipeSize ∧
      (bell s).Excess) ?_ ⟨⟨q, f, taken, hs⟩, hp, hx⟩ h
  · exact hI.2.2
  · rintro s act s' ⟨⟨q, f, taken, hs⟩, hp, hx⟩ h
    obtain ⟨hbell, hallows⟩ := step_bell hs h
    refine ⟨step_queues hs h, (step_pipeSize hs h).1.symm ▸ hp, ?_⟩
    rw [hbell]
    cases hop : bellOp s act with
    | none => exact hx
    | some op => exact hx.apply hp (hallows op hop)

/-- Each step is tidy in the state it is taken in. -/
def TidyRun (s : State) (actions : List Action) : Prop :=
  Run.Along step (fun s act => tidy s act = true) s actions

theorem tidyRun_cons (h : step s act = some s') :
    TidyRun s (act :: actions) ↔ tidy s act = true ∧ TidyRun s' actions :=
  ⟨fun ht => ⟨ht.1, ht.2 s' h⟩, fun ht => ⟨ht.1, fun s₁ h₁ => by
    rw [h] at h₁
    cases h₁
    exact ht.2⟩⟩

/-- A device that is there at the end was there all the time. -/
theorem run_hid (hs : s.Queues size q f taken) (h : Run.run step s actions = some s')
    (hh : s'.handle.hid = true) : s.handle.hid = true := by
  have hI := Run.run_rule_always
    (I := fun t => (∃ q f taken, t.Queues size q f taken) ∧
      (t.handle.hid = true → s.handle.hid = true)) ?_ ⟨⟨q, f, taken, hs⟩, id⟩ h
  · exact hI.2 hh
  · rintro t act t' ⟨⟨q, f, taken, ht⟩, himp⟩ h
    exact ⟨step_queues ht h, fun hh => himp ((step_pipeSize ht h).2 hh).1⟩

/-- Tidy steps keep the pipe right, and one that is not tidy ruins it for good. -/
theorem run_exact (hp : 1 < s.handle.pipeSize) (hs : s.Queues size q f taken)
    (hx : (bell s).Exact) (h : Run.run step s actions = some s') (hh : s'.handle.hid = true) :
    (TidyRun s actions → (bell s').Exact) ∧ (¬ TidyRun s actions → (bell s').Excess) := by
  induction actions generalizing s q f taken with
  | nil =>
    cases h
    exact ⟨fun _ => hx, fun hno => absurd trivial hno⟩
  | cons act actions ih =>
    obtain ⟨s₁, hstep, h⟩ := Run.run_cons h
    obtain ⟨q₁, f₁, taken₁, hs₁⟩ := step_queues hs hstep
    obtain ⟨hsize, hkeep⟩ := step_pipeSize hs hstep
    have hp₁ : 1 < s₁.handle.pipeSize := hsize ▸ hp
    have htidy := tidy_iff hs (hkeep (run_hid hs₁ h hh)).2
    obtain ⟨hbell, hallows⟩ := step_bell hs hstep
    rw [tidyRun_cons hstep]
    by_cases ht : tidy s act = true
    · have hx₁ : (bell s₁).Exact := by
        rw [hbell]
        cases hop : bellOp s act with
        | none => exact hx
        | some op => exact hx.apply (by omega) (hallows op hop) (htidy.mp ht op hop)
      obtain ⟨hgood, hbad⟩ := ih hp₁ hs₁ hx₁ h
      exact ⟨fun hr => hgood hr.2, fun hno => hbad fun hr => hno ⟨ht, hr⟩⟩
    · refine ⟨fun hr => absurd hr.1 ht, fun _ => run_excess hp₁ hs₁ ?_ h⟩
      rw [htidy] at ht
      obtain ⟨op, ht⟩ := Classical.not_forall.mp ht
      obtain ⟨hop, hno⟩ := Classical.not_imp.mp ht
      rw [hbell, hop]
      exact hx.apply_excess (hallows op hop) hno

/-- **No wake-up is lost.** In every state in which no write to the pipe is outstanding, a stored
error or a queued report can be polled for. -/
theorem pending_ready (hp : 0 < pipeSize) (actions : List Action)
    (h : Run.run step (State.start size pipeSize) actions = some s) (hf : s.firing = false)
    (hpend : s.handle.threadRet < 0 ∨ hsListIsEmpty s.handle.links .reports = some false) :
    0 < s.handle.pipe := by
  have hw : s.handle.pending = true := by
    unfold Handle.pending
    simpa using hpend
  refine (run_heard hp h hw).resolve_left fun hr => ?_
  have hr : s.firing = true := hr
  rw [hf] at hr
  cases hr

theorem pending_ready_two : ∃ s, Run.run step (State.start 2 16) twoReports = some s ∧
    0 < s.handle.pipe := by
  obtain ⟨s, h, hs⟩ := Option.map_eq_some_iff.mp (by decide +kernel :
    (Run.run step (State.start 2 16) twoReports).map
      (fun s => (s.firing, hsListIsEmpty s.handle.links .reports)) = some (false, some false))
  exact ⟨s, h, pending_ready (by decide) twoReports h (congrArg Prod.fst hs)
    (.inr (congrArg Prod.snd hs))⟩

/-- **Readiness is not stale, exactly in the tidy runs.** While the device is there, in a state in
which no write to the pipe is outstanding and nothing is pending, the pipe is empty if and only if
every step so far was tidy. -/
theorem pipe_empty_iff (hp : 1 < pipeSize) (actions : List Action)
    (h : Run.run step (State.start size pipeSize) actions = some s) (hh : s.handle.hid = true)
    (hf : s.firing = false) (hr : ¬ s.handle.threadRet < 0)
    (hl : hsListIsEmpty s.handle.links .reports = some true) :
    s.handle.pipe = 0 ↔ TidyRun (State.start size pipeSize) actions := by
  obtain ⟨hgood, hbad⟩ := run_exact hp start_queues (start_quiet ▸ Doorbell.exact_quiet) h hh
  have hw : s.handle.pending = false := by
    unfold Handle.pending
    simp [hr, hl]
  have hbell : bell s = ⟨false, false, s.handle.pipe⟩ := by
    unfold bell
    rw [hw, hf]
  rw [hbell] at hgood hbad
  constructor
  · intro hzero
    by_contra hno
    have hpos : 0 < s.handle.pipe + 0 := hbad hno
    omega
  · exact hgood

/-- The state that `pipe_empty_iff` is about. -/
def State.settled (s : State) : Bool :=
  s.handle.hid && !s.firing && !(s.handle.threadRet < 0) &&
    hsListIsEmpty s.handle.links .reports = some true

/-- A report that is written to the pipe before it is read. -/
def oneReport : List Action :=
  [.opened, .report .input 1 [10] true, .fire, .read 2 (-1) .ready]

theorem pipe_empty_iff_one : ∃ s, Run.run step (State.start 2 16) oneReport = some s ∧
    (s.handle.pipe = 0 ↔ TidyRun (State.start 2 16) oneReport) := by
  obtain ⟨s, h, hs⟩ := Option.map_eq_some_iff.mp (by decide +kernel :
    (Run.run step (State.start 2 16) oneReport).map State.settled = some true)
  simp only [State.settled, Bool.and_eq_true, Bool.not_eq_true', decide_eq_true_eq,
    decide_eq_false_iff_not] at hs
  obtain ⟨⟨⟨hh, hf⟩, hr⟩, hl⟩ := hs
  exact ⟨s, h, pipe_empty_iff (by decide) oneReport h hh hf hr hl⟩

/-- A read with timeout 0 comes between the critical section of the callback and its write to the
pipe. -/
def overtaken : List Action :=
  [.opened, .report .input 1 [10] true, .read 2 0 .timedOut, .fire]

/-- The byte stays in the pipe: nothing is pending, and the handle polls as ready. -/
theorem stale_readiness : ∃ s, Run.run step (State.start 2 16) overtaken = some s ∧
    s.handle.hid = true ∧ s.firing = false ∧ ¬ s.handle.threadRet < 0 ∧
    hsListIsEmpty s.handle.links .reports = some true ∧ s.handle.pipe = 1 := by
  obtain ⟨s, h, hs⟩ := Option.map_eq_some_iff.mp (by decide +kernel :
    (Run.run step (State.start 2 16) overtaken).map (fun s => (s.settled, s.handle.pipe)) =
      some (true, 1))
  have hset := congrArg Prod.fst hs
  simp only [State.settled, Bool.and_eq_true, Bool.not_eq_true', decide_eq_true_eq,
    decide_eq_false_iff_not] at hset
  obtain ⟨⟨⟨hh, hf⟩, hr⟩, hl⟩ := hset
  exact ⟨s, h, hh, hf, hr, hl, congrArg Prod.snd hs⟩

end Libhs.Darwin
