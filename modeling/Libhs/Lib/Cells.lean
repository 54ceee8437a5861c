import Mathlib.Data.List.Basic

/-!
# A fixed-size array that is filled from the front

A local array with a counter: elements are put at the counter, and what was put is reversed or
compacted in place. A write outside of the array has no value.
-/

namespace Cells

variable {α : Type} {n : Nat} {v : Vector α n} {l : List α} {a : α}

/-- `cells[i] = a;` -/
def put (v : Vector α n) (i : Nat) (a : α) : Option (Vector α n) :=
  if h : i < n then some (v.set i a h) else none

/-- The first cells hold the list. -/
def Fills (v : Vector α n) (l : List α) : Prop := ∀ i, i < l.length → v[i]? = l[i]?

theorem put_none_iff {i : Nat} : put v i a = none ↔ n ≤ i := by
  unfold put
  split
  · next h => simp [h]
  · next h => simpa using h

theorem put_of_lt (v : Vector α n) (a : α) {i : Nat} (h : i < n) : ∃ v', put v i a = some v' :=
  ⟨v.set i a h, dif_pos h⟩

theorem getElem?_put {v' : Vector α n} {i j : Nat} (h : put v i a = some v') :
    v'[j]? = if i = j then some a else v[j]? := by
  unfold put at h
  split at h
  · next hi =>
    cases h
    rw [Vector.getElem?_set]
  · cases h

theorem fills_nil : Fills v [] := fun _ h => absurd h (Nat.not_lt_zero _)

theorem Fills.length_le (h : Fills v l) : l.length ≤ n := by
  by_contra hn
  have hi : n < l.length := Nat.lt_of_not_le hn
  have he := h n hi
  rw [List.getElem?_eq_getElem hi, Vector.getElem?_eq_none (Nat.le_refl n)] at he
  cases he

/-- An element put behind the ones that are there. -/
theorem Fills.put {v' : Vector α n} (h : Fills v l) (hp : put v l.length a = some v') :
    Fills v' (l ++ [a]) := by
  intro i hi
  rw [getElem?_put hp]
  by_cases he : l.length = i
  · simp [he.symm]
  · have hlt : i < l.length := by
      rw [List.length_append, List.length_singleton] at hi
      omega
    rw [if_neg he, h i hlt, List.getElem?_append_left hlt]

/-- The element behind the ones that are there may change. -/
theorem Fills.put_behind {v' : Vector α n} (h : Fills v l) (hp : Cells.put v l.length a = some v') :
    Fills v' l := by
  intro i hi
  rw [getElem?_put hp, if_neg (Nat.ne_of_gt hi)]
  exact h i hi

theorem Fills.take (h : Fills v l) : v.toList.take l.length = l := by
  apply List.ext_getElem?
  intro i
  rw [List.getElem?_take]
  split
  · next hi => rw [Vector.getElem?_toList, h i hi]
  · next hi => rw [List.getElem?_eq_none (Nat.le_of_not_lt hi)]

/-! ## Reversing in place -/

/-- `tmp = cells[i]; cells[i] = cells[depth - i - 1]; cells[depth - i - 1] = tmp;` -/
def swapEnds (depth : Nat) (v : Vector α n) (i : Nat) : Option (Vector α n) := do
  let tmp ← v[i]?
  let last ← v[depth - i - 1]?
  let v ← put v i last
  put v (depth - i - 1) tmp

/-- `for (i = 0; i < depth / 2; i++)` swap the ends. -/
def reverseFirst (depth : Nat) (v : Vector α n) : Option (Vector α n) :=
  (List.range (depth / 2)).foldlM (swapEnds depth) v

/-- `k` cells at each end are reversed. -/
def Swapped (v : Vector α n) (l : List α) (k : Nat) : Prop :=
  ∀ j, j < l.length →
    v[j]? = if j < k ∨ l.length - k ≤ j then l.reverse[j]? else l[j]?

theorem swapEnds_spec {k : Nat} (h : Swapped v l k) (hn : l.length ≤ n) (hk : k < l.length / 2) :
    ∃ v', swapEnds l.length v k = some v' ∧ Swapped v' l (k + 1) := by
  have hkl : k < l.length := by omega
  have hrl : l.length - k - 1 < l.length := by omega
  have hlow : v[k]? = some l[k] := by
    rw [h k hkl, if_neg (by omega), List.getElem?_eq_getElem hkl]
  have hhigh : v[l.length - k - 1]? = some l[l.length - k - 1] := by
    rw [h _ hrl, if_neg (by omega), List.getElem?_eq_getElem hrl]
  obtain ⟨v₁, h₁⟩ := put_of_lt v l[l.length - k - 1] (Nat.lt_of_lt_of_le hkl hn)
  obtain ⟨v₂, h₂⟩ := put_of_lt v₁ l[k] (Nat.lt_of_lt_of_le hrl hn)
  refine ⟨v₂, ?_, ?_⟩
  · simp only [swapEnds, hlow, hhigh, Option.bind_eq_bind, Option.bind_some, h₁, h₂]
  · intro j hj
    rw [getElem?_put h₂, getElem?_put h₁, h j hj, List.getElem?_reverse hj]
    by_cases hjr : l.length - k - 1 = j
    · rw [if_pos hjr, if_pos (by omega), ← List.getElem?_eq_getElem hkl]
      congr 1
      omega
    · by_cases hjk : k = j
      · rw [if_neg hjr, if_pos hjk, if_pos (by omega), ← List.getElem?_eq_getElem hrl]
        congr 1
        omega
      · rw [if_neg hjr, if_neg hjk]
        by_cases hm : j < k ∨ l.length - k ≤ j
        · rw [if_pos hm, if_pos (by omega)]
        · rw [if_neg hm, if_neg (by omega)]

theorem foldlM_swapped (hn : l.length ≤ n) (h : Fills v l) {k : Nat} (hk : k ≤ l.length / 2) :
    ∃ v', (List.range k).foldlM (swapEnds l.length) v = some v' ∧ Swapped v' l k := by
  induction k with
  | zero =>
    refine ⟨v, rfl, fun j hj => ?_⟩
    rw [if_neg (by omega), h j hj]
  | succ k ih =>
    obtain ⟨v₁, h₁, hs₁⟩ := ih (Nat.le_of_succ_le hk)
    obtain ⟨v₂, h₂, hs₂⟩ := swapEnds_spec hs₁ hn hk
    refine ⟨v₂, ?_, hs₂⟩
    rw [List.range_succ, List.foldlM_append, h₁]
    simpa using h₂

theorem reverseFirst_spec (h : Fills v l) :
    ∃ v', reverseFirst l.length v = some v' ∧ Fills v' l.reverse := by
  obtain ⟨v', hv', hs⟩ := foldlM_swapped h.length_le h (Nat.le_refl _)
  refine ⟨v', hv', fun j hj => ?_⟩
  rw [List.length_reverse] at hj
  rw [hs j hj]
  split
  · rfl
  -- the cell in the middle stays
  · next hm =>
    rw [List.getElem?_reverse hj]
    congr 1
    omega

/-! ## Compacting in place -/

/-- What is kept of the first `i` elements is in front, and the elements from `i` on are where they
were. -/
structure Compacted (v : Vector α n) (l kept : List α) (i : Nat) : Prop where
  le : kept.length ≤ i
  front : Fills v kept
  back : ∀ j, i ≤ j → j < l.length → v[j]? = l[j]?

theorem Fills.compacted (h : Fills v l) : Compacted v l [] 0 where
  le := Nat.le_refl 0
  front := fills_nil
  back j _ hj := h j hj

/-- An element that is dropped. -/
theorem Compacted.skip {kept : List α} {i : Nat} (h : Compacted v l kept i) :
    Compacted v l kept (i + 1) where
  le := Nat.le_succ_of_le h.le
  front := h.front
  back j hj := h.back j (Nat.le_of_succ_le hj)

/-- An element that is copied to the front, or onto itself. -/
theorem Compacted.keep {v' : Vector α n} {kept : List α} {i : Nat} (h : Compacted v l kept i)
    (hp : Cells.put v kept.length a = some v') : Compacted v' l (kept ++ [a]) (i + 1) where
  le := by
    rw [List.length_append, List.length_singleton]
    exact Nat.succ_le_succ h.le
  front := h.front.put hp
  back j hj hl := by
    have hne : kept.length ≠ j := Nat.ne_of_lt (Nat.lt_of_le_of_lt h.le hj)
    rw [getElem?_put hp, if_neg hne]
    exact h.back j (Nat.le_of_succ_le hj) hl

end Cells
