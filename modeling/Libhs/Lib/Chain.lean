import Mathlib.Data.List.Nodup
import Mathlib.Tactic.Common

/-!
# Chains and rings of pointers

A pointer field is a partial function `next : ρ → Option (Option ρ)`: `none` when
the node is not allocated, `some none` when the field holds NULL, `some (some y)`
when it points at `y`.

* `Chain next l e`: following `next` from the first node of `l` visits `l` in
  order and then arrives at `e`.
* `Ring next h l`: the cycle through the head `h` whose other nodes are `l`.

The edits (`Ring.link`, `Ring.unlink`, `Ring.splice`) are stated for any field
that agrees with the old one away from the written nodes, so they serve a heap
of any shape, and both directions of a doubly linked list.
-/

namespace Pointer

variable {ρ : Type}

/-- The first node of `l`, or `e` when there is none. -/
def firstOr (e : ρ) : List ρ → ρ
  | [] => e
  | x :: _ => x

/-- The last node of `l`, or `h` when there is none. -/
def lastOr (h : ρ) : List ρ → ρ
  | [] => h
  | x :: xs => lastOr x xs

/-- Each node of `l` points at the one after it, the last one at `e`. -/
def Chain (next : ρ → Option (Option ρ)) : List ρ → ρ → Prop
  | [], _ => True
  | x :: xs, e => next x = some (some (firstOr e xs)) ∧ Chain next xs e

/-- The cycle from the head `h` through `l` and back to `h`, no node twice. -/
def Ring (next : ρ → Option (Option ρ)) (h : ρ) (l : List ρ) : Prop :=
  Chain next (h :: l) h ∧ (h :: l).Nodup

variable {next next' : ρ → Option (Option ρ)} {l pre post : List ρ} {x p e h : ρ}

/-! ## First and last -/

@[simp] theorem firstOr_nil : firstOr e [] = e := rfl

@[simp] theorem firstOr_cons : firstOr e (x :: l) = x := rfl

@[simp] theorem lastOr_nil : lastOr h [] = h := rfl

@[simp] theorem lastOr_cons : lastOr h (x :: l) = lastOr x l := rfl

@[simp] theorem firstOr_append (l r : List ρ) : firstOr e (l ++ r) = firstOr (firstOr e r) l := by
  cases l <;> rfl

@[simp] theorem lastOr_append (l r : List ρ) : lastOr h (l ++ r) = lastOr (lastOr h l) r := by
  induction l generalizing h with
  | nil => rfl
  | cons x l ih => exact ih

@[simp] theorem firstOr_reverse (l : List ρ) : firstOr h l.reverse = lastOr h l := by
  induction l generalizing h with
  | nil => rfl
  | cons x l ih => simp [ih]

@[simp] theorem lastOr_reverse (l : List ρ) : lastOr h l.reverse = firstOr h l := by
  rw [← firstOr_reverse, List.reverse_reverse]

theorem lastOr_mem (h : ρ) (l : List ρ) : lastOr h l ∈ h :: l := by
  induction l generalizing h with
  | nil => exact List.mem_cons_self
  | cons x l ih => exact List.mem_cons_of_mem _ (ih x)

/-- A list with its head split at its last node. -/
theorem split_at_last (h : ρ) (l r : List ρ) :
    h :: (l ++ r) = (h :: l).dropLast ++ lastOr h l :: r := by
  induction l generalizing h with
  | nil => rfl
  | cons x l ih =>
    rw [List.cons_append, ih x, List.dropLast_cons_of_ne_nil (List.cons_ne_nil x l)]
    rfl

/-! ## Chains -/

@[simp] theorem chain_nil : Chain next [] e := trivial

@[simp] theorem chain_cons :
    Chain next (x :: l) e ↔ next x = some (some (firstOr e l)) ∧ Chain next l e := Iff.rfl

/-- A chain of a concatenation: the front ends where the back starts. -/
theorem chain_append {r : List ρ} :
    Chain next (l ++ r) e ↔ Chain next l (firstOr e r) ∧ Chain next r e := by
  induction l with
  | nil => simp
  | cons x l ih => simp only [List.cons_append, chain_cons, ih, firstOr_append, and_assoc]

/-- A chain reads the fields of its own nodes only. -/
theorem Chain.congr (hc : Chain next l e) (hag : ∀ y ∈ l, next' y = next y) :
    Chain next' l e := by
  induction l with
  | nil => trivial
  | cons x l ih =>
    refine ⟨(hag x List.mem_cons_self).trans hc.1, ?_⟩
    exact ih hc.2 fun y hy => hag y (List.mem_cons_of_mem _ hy)

theorem Chain.live (hc : Chain next l e) (hx : x ∈ l) : ∃ y, next x = some (some y) := by
  induction l with
  | nil => exact absurd hx List.not_mem_nil
  | cons z l ih =>
    cases hx with
    | head => exact ⟨_, hc.1⟩
    | tail _ hx => exact ih hc.2 hx

/-- Two chains from one start to one end are the same list. -/
theorem Chain.unique {l' : List ρ} (hc : Chain next l e) (hc' : Chain next l' e)
    (he : e ∉ l) (he' : e ∉ l') (hs : firstOr e l = firstOr e l') : l = l' := by
  induction l generalizing l' with
  | nil =>
    cases l' with
    | nil => rfl
    | cons y l' =>
      rw [firstOr_nil, firstOr_cons] at hs
      exact absurd (hs ▸ List.mem_cons_self) he'
  | cons x l ih =>
    cases l' with
    | nil =>
      rw [firstOr_nil, firstOr_cons] at hs
      exact absurd (hs ▸ List.mem_cons_self) he
    | cons y l' =>
      rw [firstOr_cons, firstOr_cons] at hs
      subst hs
      have hnext : firstOr e l = firstOr e l' := by
        have := hc.1.symm.trans hc'.1
        simpa only [Option.some.injEq] using this
      rw [ih hc.2 hc'.2 (fun hm => he (List.mem_cons_of_mem _ hm))
        (fun hm => he' (List.mem_cons_of_mem _ hm)) hnext]

/-- Link `x` in after `p`. -/
theorem Chain.insert (hc : Chain next (pre ++ p :: post) e) (hn : (pre ++ p :: post).Nodup)
    (hx : x ∉ pre ++ p :: post) (hp' : next' p = some (some x))
    (hx' : next' x = some (some (firstOr e post)))
    (hag : ∀ y, y ≠ p → y ≠ x → next' y = next y) :
    Chain next' (pre ++ p :: x :: post) e := by
  rw [chain_append] at hc ⊢
  obtain ⟨hpre, -, hpost⟩ := hc
  obtain ⟨-, hn2, hd⟩ := List.nodup_append.mp hn
  refine ⟨hpre.congr fun y hy => hag y ?_ ?_, hp', hx', hpost.congr fun y hy => hag y ?_ ?_⟩
  · rintro rfl
    exact hd y hy y List.mem_cons_self rfl
  · rintro rfl
    exact hx (List.mem_append_left _ hy)
  · rintro rfl
    exact (List.nodup_cons.mp hn2).1 hy
  · rintro rfl
    exact hx (List.mem_append_right _ (List.mem_cons_of_mem _ hy))

/-- Unlink `x`, the node after `p`, by making `p` point where `x` did. -/
theorem Chain.remove (hc : Chain next (pre ++ p :: x :: post) e)
    (hn : (pre ++ p :: x :: post).Nodup) (hp' : next' p = next x)
    (hag : ∀ y, y ≠ p → y ≠ x → next' y = next y) :
    Chain next' (pre ++ p :: post) e := by
  rw [chain_append] at hc ⊢
  obtain ⟨hpre, -, hx, hpost⟩ := hc
  obtain ⟨-, hn2, hd⟩ := List.nodup_append.mp hn
  simp only [List.nodup_cons, List.mem_cons, not_or] at hn2
  refine ⟨hpre.congr fun y hy => hag y ?_ ?_, hp'.trans hx, hpost.congr fun y hy => hag y ?_ ?_⟩
  · rintro rfl
    exact hd y hy y List.mem_cons_self rfl
  · rintro rfl
    exact hd y hy y (by simp) rfl
  · rintro rfl
    exact hn2.1.2 hy
  · rintro rfl
    exact hn2.2.1 hy

/-! ## Rings -/

theorem ring_nil_iff : Ring next h [] ↔ next h = some (some h) := by
  simp [Ring]

theorem Ring.head_next (hr : Ring next h l) : next h = some (some (firstOr h l)) := hr.1.1

theorem Ring.head_not_mem (hr : Ring next h l) : h ∉ l := (List.nodup_cons.mp hr.2).1

theorem Ring.nodup (hr : Ring next h l) : l.Nodup := (List.nodup_cons.mp hr.2).2

/-- The cycle through a head is unique. -/
theorem Ring.unique {l' : List ρ} (hr : Ring next h l) (hr' : Ring next h l') : l = l' := by
  have hs : firstOr h l = firstOr h l' := by
    have := hr.head_next.symm.trans hr'.head_next
    simpa only [Option.some.injEq] using this
  exact hr.1.2.unique hr'.1.2 hr.head_not_mem hr'.head_not_mem hs

/-- A ring reads the fields of its own nodes and of its head only. -/
theorem Ring.congr (hr : Ring next h l) (hag : ∀ y ∈ h :: l, next' y = next y) :
    Ring next' h l :=
  ⟨hr.1.congr hag, hr.2⟩

/-- Link `x` in between the nodes `l₁` and `l₂` of a ring, after the last of `h :: l₁`. -/
theorem Ring.link {l₁ l₂ : List ρ} (hr : Ring next h (l₁ ++ l₂)) (hx : x ∉ h :: (l₁ ++ l₂))
    (hp' : next' (lastOr h l₁) = some (some x)) (hx' : next' x = some (some (firstOr h l₂)))
    (hag : ∀ y, y ≠ lastOr h l₁ → y ≠ x → next' y = next y) :
    Ring next' h (l₁ ++ x :: l₂) := by
  obtain ⟨hc, hn⟩ := hr
  refine ⟨?_, ?_⟩
  · rw [split_at_last] at hc hn hx ⊢
    exact hc.insert hn hx hp' hx' hag
  · have hperm : (h :: (l₁ ++ x :: l₂)).Perm (x :: h :: (l₁ ++ l₂)) := by
      rw [← List.cons_append, ← List.cons_append]
      exact List.perm_middle
    exact hperm.nodup_iff.mpr (List.nodup_cons.mpr ⟨hx, hn⟩)

/-- Unlink the node `x` of a ring by making its predecessor point where `x` did. -/
theorem Ring.unlink {l₁ l₂ : List ρ} (hr : Ring next h (l₁ ++ x :: l₂))
    (hp' : next' (lastOr h l₁) = next x)
    (hag : ∀ y, y ≠ lastOr h l₁ → y ≠ x → next' y = next y) :
    Ring next' h (l₁ ++ l₂) := by
  obtain ⟨hc, hn⟩ := hr
  refine ⟨?_, ?_⟩
  · rw [split_at_last] at hc hn ⊢
    exact hc.remove hn hp' hag
  · have hsub : List.Sublist (h :: (l₁ ++ l₂)) (h :: (l₁ ++ x :: l₂)) :=
      ((List.sublist_cons_self x l₂).append_left l₁).cons_cons h
    exact hn.sublist hsub

/-- Move the nodes `r` of the ring of `g` between the nodes `l₁` and `l₂` of the ring of `h`.
What the field of `g` holds afterwards does not matter. -/
theorem Ring.splice {g : ρ} {r l₁ l₂ : List ρ} (hr : Ring next h (l₁ ++ l₂)) (hg : Ring next g r)
    (hdisj : ∀ y ∈ h :: (l₁ ++ l₂), y ∉ g :: r) (hne : r ≠ [])
    (hp' : next' (lastOr h l₁) = next g)
    (hlast' : next' (lastOr g r) = some (some (firstOr h l₂)))
    (hag : ∀ y, y ≠ lastOr h l₁ → y ≠ lastOr g r → y ≠ g → next' y = next y) :
    Ring next' h (l₁ ++ (r ++ l₂)) := by
  obtain ⟨hc, hn⟩ := hr
  obtain ⟨⟨hg0, hgc⟩, hgn⟩ := hg
  -- the last node of `r` is the one whose field is written
  obtain ⟨r₀, q, rfl⟩ : ∃ r₀ q, r = r₀ ++ [q] :=
    ⟨r.dropLast, r.getLast hne, (List.dropLast_append_getLast hne).symm⟩
  simp only [lastOr_append, lastOr_cons, lastOr_nil] at hlast' hag
  have hp : lastOr h l₁ ∈ h :: (l₁ ++ l₂) := by rw [split_at_last]; simp
  have hq : ∀ y ∈ h :: (l₁ ++ l₂), y ≠ q := by
    rintro y hy rfl
    exact hdisj y hy (by simp)
  have hgy : ∀ y ∈ h :: (l₁ ++ l₂), y ≠ g := by
    rintro y hy rfl
    exact hdisj y hy (by simp)
  have hn0 := hn
  rw [split_at_last] at hc hn
  rw [chain_append] at hc hgc
  obtain ⟨hpre, -, hpost⟩ := hc
  obtain ⟨-, hn2, hd⟩ := List.nodup_append.mp hn
  refine ⟨?_, ?_⟩
  · rw [split_at_last, List.append_assoc, chain_append]
    refine ⟨hpre.congr fun y hy => ?_, ?_, ?_⟩
    · have hy' : y ∈ h :: (l₁ ++ l₂) := by rw [split_at_last]; exact List.mem_append_left _ hy
      refine hag y ?_ (hq y hy') (hgy y hy')
      rintro rfl
      exact hd _ hy _ List.mem_cons_self rfl
    · rw [hp', hg0]
      simp
    · rw [chain_append]
      refine ⟨hgc.1.congr fun y hy => hag y ?_ ?_ ?_, ?_⟩
      · rintro rfl
        exact hdisj _ hp (by simp [hy])
      · rintro rfl
        simp only [List.nodup_cons, List.nodup_append] at hgn
        exact hgn.2.2.2 _ hy _ List.mem_cons_self rfl
      · rintro rfl
        simp only [List.nodup_cons, List.mem_append, not_or] at hgn
        exact hgn.1.1 hy
      · refine ⟨hlast', hpost.congr fun y hy => ?_⟩
        have hy' : y ∈ h :: (l₁ ++ l₂) := by simp [hy]
        refine hag y ?_ (hq y hy') (hgy y hy')
        rintro rfl
        exact (List.nodup_cons.mp hn2).1 hy
  -- the nodes of both rings are distinct, and the new ring has the same ones
  · have hperm : (h :: (l₁ ++ (r₀ ++ [q] ++ l₂))).Perm ((h :: (l₁ ++ l₂)) ++ (r₀ ++ [q])) := by
      rw [List.cons_append, List.append_assoc l₁]
      exact (List.perm_append_comm.append_left l₁).cons h
    refine hperm.nodup_iff.mpr (List.nodup_append.mpr ⟨hn0, (List.nodup_cons.mp hgn).2, ?_⟩)
    rintro a ha b hb rfl
    exact hdisj a ha (List.mem_cons_of_mem _ hb)

end Pointer
