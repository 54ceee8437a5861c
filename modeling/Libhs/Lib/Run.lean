import Mathlib.Tactic.Common

/-!
# Runs of a partial step function

A system is a function that takes one action in a state, if it can. `run` takes a
list of actions, and `Along` says that each of them is taken where a condition
allows it. `run_rule` is the invariant rule: what the start has, and every allowed
step keeps, every state of every such run has.
-/

namespace Run

variable {σ α : Type} (step : σ → α → Option σ)

/-- The state after the actions, if all of them can be taken. -/
def run : σ → List α → Option σ
  | s, [] => some s
  | s, a :: as => do
    let s ← step s a
    run s as

/-- Each of the actions is taken in a state in which `C` allows it. -/
def Along (C : σ → α → Prop) : σ → List α → Prop
  | _, [] => True
  | s, a :: as => C s a ∧ ∀ s', step s a = some s' → Along C s' as

variable {step} {C D : σ → α → Prop} {I : σ → Prop} {s s' : σ} {a : α} {as bs : List α}

theorem run_cons (h : run step s (a :: as) = some s') :
    ∃ s₁, step s a = some s₁ ∧ run step s₁ as = some s' :=
  Option.bind_eq_some_iff.mp h

theorem Along.mono (hCD : ∀ s a, C s a → D s a) (h : Along step C s as) : Along step D s as := by
  induction as generalizing s with
  | nil => trivial
  | cons a as ih => exact ⟨hCD s a h.1, fun s' e => ih (h.2 s' e)⟩

theorem Along.and (h : Along step C s as) (h' : Along step D s as) :
    Along step (fun s a => C s a ∧ D s a) s as := by
  induction as generalizing s with
  | nil => trivial
  | cons a as ih => exact ⟨⟨h.1, h'.1⟩, fun s' e => ih (h.2 s' e) (h'.2 s' e)⟩

/-- A condition that all actions of the list meet. -/
theorem along_of_mem {P : α → Prop} (h : ∀ a ∈ as, P a) : Along step (fun _ a => P a) s as := by
  induction as generalizing s with
  | nil => trivial
  | cons a as ih =>
    exact ⟨h a List.mem_cons_self, fun s' _ => ih fun b hb => h b (List.mem_cons_of_mem a hb)⟩

/-- The invariant rule. -/
theorem run_rule (hstep : ∀ s a s', I s → C s a → step s a = some s' → I s')
    (hs : I s) (hC : Along step C s as) (h : run step s as = some s') : I s' := by
  induction as generalizing s with
  | nil =>
    cases h
    exact hs
  | cons a as ih =>
    obtain ⟨s₁, e, h⟩ := run_cons h
    exact ih (hstep s a s₁ hs hC.1 e) (hC.2 s₁ e) h

/-- The invariant rule for steps that need no condition. -/
theorem run_rule_always (hstep : ∀ s a s', I s → step s a = some s' → I s')
    (hs : I s) (h : run step s as = some s') : I s' :=
  run_rule (C := fun _ _ => True) (fun s a s' hI _ e => hstep s a s' hI e) hs
    (along_of_mem fun _ _ => trivial) h

/-- A run meets its conditions with what its steps keep. -/
theorem Along.keep (hstep : ∀ s a s', I s → C s a → step s a = some s' → I s')
    (hs : I s) (h : Along step C s as) : Along step (fun s a => I s ∧ C s a) s as := by
  induction as generalizing s with
  | nil => trivial
  | cons a as ih =>
    exact ⟨⟨hs, h.1⟩, fun s' e => ih (hstep s a s' hs h.1 e) (h.2 s' e)⟩

/-- Two conditions that agree wherever the second one has led. -/
theorem along_iff {P : α → Prop} (hCD : ∀ s a, I s → P a → (C s a ↔ D s a))
    (hstep : ∀ s a s', I s → P a → D s a → step s a = some s' → I s') (hs : I s)
    (hP : ∀ a ∈ as, P a) : Along step C s as ↔ Along step D s as := by
  induction as generalizing s with
  | nil => exact Iff.rfl
  | cons a as ih =>
    have ha := hP a List.mem_cons_self
    have hrest : D s a → ((∀ s', step s a = some s' → Along step C s' as) ↔
        ∀ s', step s a = some s' → Along step D s' as) := fun hD =>
      forall_congr' fun s' => imp_congr_right fun e => ih (hstep s a s' hs ha hD e)
        fun b hb => hP b (List.mem_cons_of_mem a hb)
    constructor
    · rintro ⟨hC, h⟩
      have hD := (hCD s a hs ha).mp hC
      exact ⟨hD, (hrest hD).mp h⟩
    · rintro ⟨hD, h⟩
      exact ⟨(hCD s a hs ha).mpr hD, (hrest hD).mpr h⟩

theorem along_append (h : Along step C s as)
    (h' : ∀ s', run step s as = some s' → Along step C s' bs) : Along step C s (as ++ bs) := by
  induction as generalizing s with
  | nil => exact h' s rfl
  | cons a as ih =>
    refine ⟨h.1, fun s₁ e => ih (h.2 s₁ e) fun s' hrun => h' s' ?_⟩
    exact Option.bind_eq_some_iff.mpr ⟨s₁, e, hrun⟩

/-! ## Conditions that can be computed -/

/-- Whether each of the actions is taken where `c` allows it. -/
def check (step : σ → α → Option σ) (c : σ → α → Bool) : σ → List α → Bool
  | _, [] => true
  | s, a :: as => c s a &&
    match step s a with
    | none => true
    | some s' => check step c s' as

theorem along_of_check {c : σ → α → Bool} (h : check step c s as = true) :
    Along step (fun s a => c s a = true) s as := by
  induction as generalizing s with
  | nil => trivial
  | cons a as ih =>
    obtain ⟨hc, h⟩ := Bool.and_eq_true_iff.mp h
    refine ⟨hc, fun s' e => ih ?_⟩
    rwa [e] at h

end Run
