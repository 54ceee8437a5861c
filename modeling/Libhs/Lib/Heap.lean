import Mathlib.Logic.Function.Basic
import Mathlib.Data.List.Nodup
import Mathlib.Data.Finset.Card
import Mathlib.Data.Finset.Range

/-!
# A heap of allocated objects

`Heap β` maps addresses to objects of type `β`. An address that was never handed
out, or whose object was freed, is not in the map, and every operation through
such an address fails. So a program that never fails touches no dangling
pointer and frees nothing twice.

Addresses are not reused: a stale pointer stays stale for ever.
-/

namespace Pointer

/-- Allocated objects by address. Addresses from `brk` on were never handed out. -/
structure Heap (β : Type) where
  cell : Nat → Option β
  brk : Nat
  fresh : ∀ a, brk ≤ a → cell a = none

namespace Heap

variable {β : Type}

def empty : Heap β := ⟨fun _ => none, 0, fun _ _ => rfl⟩

/-- Read the object at `a`; fails when `a` is not allocated. -/
def get (h : Heap β) (a : Nat) : Option β := h.cell a

/-- `malloc` and initialise: a fresh address holding `b`. -/
def alloc (h : Heap β) (b : β) : Nat × Heap β :=
  (h.brk, ⟨Function.update h.cell h.brk (some b), h.brk + 1, by
    intro a ha
    rw [Function.update_of_ne (by omega)]
    exact h.fresh a (by omega)⟩)

theorem lt_brk {h : Heap β} {a : Nat} {b : β} (hg : h.get a = some b) : a < h.brk := by
  by_contra hlt
  rw [get, h.fresh a (by omega)] at hg
  cases hg

/-- The map with a live address overwritten keeps its bound. -/
theorem update_fresh (h : Heap β) {a : Nat} (b : Option β) (ha : h.cell a ≠ none) :
    ∀ x, h.brk ≤ x → Function.update h.cell a b x = none := by
  intro x hx
  have hne : x ≠ a := by
    rintro rfl
    exact ha (h.fresh x hx)
  rw [Function.update_of_ne hne]
  exact h.fresh x hx

/-- Replace the object at `a`; fails when `a` is not allocated. -/
def set (h : Heap β) (a : Nat) (b : β) : Option (Heap β) :=
  if ha : h.cell a = none then none
  else some ⟨Function.update h.cell a (some b), h.brk, h.update_fresh (some b) ha⟩

/-- `free`; fails on an address that is not allocated (a double free). -/
def free (h : Heap β) (a : Nat) : Option (Heap β) :=
  if ha : h.cell a = none then none
  else some ⟨Function.update h.cell a none, h.brk, h.update_fresh none ha⟩

@[simp] theorem get_empty (a : Nat) : (empty : Heap β).get a = none := rfl

@[simp] theorem alloc_fst (h : Heap β) (b : β) : (h.alloc b).1 = h.brk := rfl

@[simp] theorem alloc_brk (h : Heap β) (b : β) : (h.alloc b).2.brk = h.brk + 1 := rfl

theorem get_alloc (h : Heap β) (b : β) (a : Nat) :
    (h.alloc b).2.get a = if a = h.brk then some b else h.get a := by
  simp only [alloc, get, Function.update_apply]

@[simp] theorem get_brk (h : Heap β) : h.get h.brk = none := h.fresh _ (Nat.le_refl _)

/-- Writing through a live address succeeds and changes that address only. -/
theorem set_some {h : Heap β} {a : Nat} {b₀ : β} (b : β) (hg : h.get a = some b₀) :
    ∃ h', h.set a b = some h' ∧ h'.brk = h.brk ∧
      ∀ x, h'.get x = if x = a then some b else h.get x := by
  have ha : ¬ h.cell a = none := by
    intro hn
    rw [get, hn] at hg
    cases hg
  refine ⟨⟨Function.update h.cell a (some b), h.brk, h.update_fresh (some b) ha⟩, ?_, rfl, ?_⟩
  · simp only [set, ha, dite_false]
  · intro x
    simp only [get, Function.update_apply]

/-- Freeing a live address succeeds and removes that address only. -/
theorem free_some {h : Heap β} {a : Nat} {b : β} (hg : h.get a = some b) :
    ∃ h', h.free a = some h' ∧ h'.brk = h.brk ∧
      ∀ x, h'.get x = if x = a then none else h.get x := by
  have ha : ¬ h.cell a = none := by
    intro hn
    rw [get, hn] at hg
    cases hg
  refine ⟨⟨Function.update h.cell a none, h.brk, h.update_fresh none ha⟩, ?_, rfl, ?_⟩
  · simp only [free, ha, dite_false]
  · intro x
    simp only [get, Function.update_apply]

/-- Distinct live addresses: there are at most as many as were ever handed out. -/
theorem length_le_brk {h : Heap β} {l : List Nat} (hn : l.Nodup)
    (hl : ∀ a ∈ l, ∃ b, h.get a = some b) : l.length ≤ h.brk := by
  have hsub : l.toFinset ⊆ Finset.range h.brk := by
    intro a ha
    obtain ⟨b, hb⟩ := hl a (List.mem_toFinset.mp ha)
    exact Finset.mem_range.mpr (lt_brk hb)
  have hcard := Finset.card_le_card hsub
  rwa [List.toFinset_card_of_nodup hn, Finset.card_range] at hcard

/-! ### Counting -/

/-- How many allocated objects have the property. -/
def count (h : Heap β) (p : β → Bool) : Nat := (List.range h.brk).countP fun a => (h.get a).any p

/-- Counting a function that changes at one element of the list. -/
theorem countP_change {l : List Nat} {f g : Nat → Bool} {a : Nat} (hn : l.Nodup) (ha : a ∈ l)
    (h : ∀ x, x ≠ a → g x = f x) : l.countP g + (f a).toNat = l.countP f + (g a).toNat := by
  induction l with
  | nil => cases ha
  | cons b l ih =>
    obtain ⟨hb, hn⟩ := List.nodup_cons.mp hn
    rcases List.mem_cons.mp ha with rfl | ha
    · have hrest : l.countP g = l.countP f := by
        refine List.countP_congr fun x hx => ?_
        rw [h x (ne_of_mem_of_not_mem hx hb)]
      simp only [List.countP_cons, hrest]
      cases f a <;> cases g a <;> simp
    · have hne : b ≠ a := (ne_of_mem_of_not_mem ha hb).symm
      have hi := ih hn ha
      simp only [List.countP_cons, h b hne]
      omega

theorem count_alloc (h : Heap β) (b : β) (p : β → Bool) :
    (h.alloc b).2.count p = h.count p + (p b).toNat := by
  have hrest : (List.range h.brk).countP (fun a => ((h.alloc b).2.get a).any p) = h.count p := by
    refine List.countP_congr fun a ha => ?_
    rw [get_alloc, if_neg (Nat.ne_of_lt (List.mem_range.mp ha))]
  rw [count, alloc_brk, List.range_succ, List.countP_append, hrest, List.countP_singleton,
    get_alloc, if_pos rfl]
  cases h : p b <;> simp [h]

theorem count_change {h h' : Heap β} {a : Nat} {b₀ : β} {b : Option β} (p : β → Bool)
    (hg : h.get a = some b₀) (hb : h'.brk = h.brk)
    (hh : ∀ x, h'.get x = if x = a then b else h.get x) :
    h'.count p + (p b₀).toNat = h.count p + (b.any p).toNat := by
  have hc := countP_change (f := fun a => (h.get a).any p) (g := fun a => (h'.get a).any p)
    List.nodup_range (List.mem_range.mpr (lt_brk hg)) fun x hx => by rw [hh, if_neg hx]
  simp only [hg, hh, if_pos, Option.any_some] at hc
  simpa only [count, hb, hh] using hc

theorem count_pos {h : Heap β} {a : Nat} {b : β} {p : β → Bool} (hg : h.get a = some b)
    (hp : p b = true) : 0 < h.count p :=
  List.countP_pos_iff.mpr ⟨a, List.mem_range.mpr (lt_brk hg), by rw [hg]; exact hp⟩

end Heap

end Pointer
