import Libhs.Lib.Chain
import Mathlib.Logic.Function.Basic

/-!
# Doubly linked memory

`Links ρ` holds the two pointer fields of every allocated list node. Loads and
stores go through possibly NULL pointers and fail on NULL and on nodes that are
not allocated. `DRing m h l` says that the head `h` spans the cycle `l` in `next`
direction and its mirror image in `prev` direction.
-/

namespace Pointer

variable {ρ : Type}

/-- The embedded list node of an object. -/
structure Link (ρ : Type) where
  prev : Option ρ
  next : Option ρ
deriving DecidableEq, Repr

abbrev Links (ρ : Type) := ρ → Option (Link ρ)

def nextOf (m : Links ρ) (x : ρ) : Option (Option ρ) := (m x).map Link.next

def prevOf (m : Links ρ) (x : ρ) : Option (Option ρ) := (m x).map Link.prev

/-- Load the node behind the pointer `p`. -/
def load (m : Links ρ) (p : Option ρ) : Option (Link ρ) := do
  let x ← p
  m x

variable [DecidableEq ρ]

/-- `p->next = v`. -/
def storeNext (m : Links ρ) (p v : Option ρ) : Option (Links ρ) := do
  let x ← p
  let k ← m x
  some (Function.update m x (some { k with next := v }))

/-- `p->prev = v`. -/
def storePrev (m : Links ρ) (p v : Option ρ) : Option (Links ρ) := do
  let x ← p
  let k ← m x
  some (Function.update m x (some { k with prev := v }))

omit [DecidableEq ρ] in
theorem nextOf_some {m : Links ρ} {x : ρ} {k : Link ρ} (hk : m x = some k) :
    nextOf m x = some k.next := by
  rw [nextOf, hk]; rfl

omit [DecidableEq ρ] in
theorem prevOf_some {m : Links ρ} {x : ρ} {k : Link ρ} (hk : m x = some k) :
    prevOf m x = some k.prev := by
  rw [prevOf, hk]; rfl

omit [DecidableEq ρ] in
/-- A node is what its two fields say. -/
theorem node_of_fields {m : Links ρ} {x : ρ} {p n : Option ρ} (hn : nextOf m x = some n)
    (hp : prevOf m x = some p) : m x = some ⟨p, n⟩ := by
  cases hk : m x with
  | none => simp [nextOf, hk] at hn
  | some k =>
    rw [nextOf_some hk] at hn
    rw [prevOf_some hk] at hp
    cases hn
    cases hp
    rfl

/-- Rewriting a live node, seen through its two fields. -/
theorem update_live {m : Links ρ} {x : ρ} (k : Link ρ) (hx : m x ≠ none) :
    nextOf (Function.update m x (some k)) = Function.update (nextOf m) x (some k.next) ∧
    prevOf (Function.update m x (some k)) = Function.update (prevOf m) x (some k.prev) ∧
    (∀ y, y ≠ x → Function.update m x (some k) y = m y) ∧
    ∀ y, Function.update m x (some k) y ≠ none ↔ m y ≠ none := by
  refine ⟨?_, ?_, fun y hy => Function.update_of_ne hy .., fun y => ?_⟩
  · funext y
    by_cases hy : y = x
    · subst hy; simp [nextOf]
    · simp [nextOf, hy]
  · funext y
    by_cases hy : y = x
    · subst hy; simp [prevOf]
    · simp [prevOf, hy]
  · by_cases hy : y = x
    · subst hy; simp [hx]
    · rw [Function.update_of_ne hy]

/-- A store through a live pointer writes that field of that node and nothing else. -/
theorem storeNext_some {m : Links ρ} {x : ρ} (v : Option ρ) (hx : m x ≠ none) :
    ∃ m', storeNext m (some x) v = some m' ∧
      nextOf m' = Function.update (nextOf m) x (some v) ∧ prevOf m' = prevOf m ∧
      (∀ y, y ≠ x → m' y = m y) ∧ ∀ y, m' y ≠ none ↔ m y ≠ none := by
  obtain ⟨k, hk⟩ := Option.ne_none_iff_exists'.mp hx
  obtain ⟨hnext, hprev, hothers⟩ := update_live { k with next := v } hx
  refine ⟨_, by simp only [storeNext, Option.bind_eq_bind, Option.bind_some, hk], hnext, ?_, hothers⟩
  rw [hprev, ← prevOf_some hk, Function.update_eq_self]

theorem storePrev_some {m : Links ρ} {x : ρ} (v : Option ρ) (hx : m x ≠ none) :
    ∃ m', storePrev m (some x) v = some m' ∧
      prevOf m' = Function.update (prevOf m) x (some v) ∧ nextOf m' = nextOf m ∧
      (∀ y, y ≠ x → m' y = m y) ∧ ∀ y, m' y ≠ none ↔ m y ≠ none := by
  obtain ⟨k, hk⟩ := Option.ne_none_iff_exists'.mp hx
  obtain ⟨hnext, hprev, hothers⟩ := update_live { k with prev := v } hx
  refine ⟨_, by simp only [storePrev, Option.bind_eq_bind, Option.bind_some, hk], hprev, ?_, hothers⟩
  rw [hnext, ← nextOf_some hk, Function.update_eq_self]

/-- A store makes no node: one that is not allocated stays so. -/
theorem update_none {m : Links ρ} {x y : ρ} {k k' : Link ρ} (hx : m x = some k) (hy : m y = none) :
    Function.update m x (some k') y = none := by
  rwa [Function.update_of_ne]
  rintro rfl
  rw [hx] at hy
  cases hy

theorem storeNext_none {m m' : Links ρ} {p v : Option ρ} {y : ρ} (h : storeNext m p v = some m')
    (hy : m y = none) : m' y = none := by
  obtain ⟨x, rfl, h⟩ := Option.bind_eq_some_iff.mp h
  obtain ⟨k, hk, h⟩ := Option.bind_eq_some_iff.mp h
  cases h
  exact update_none hk hy

theorem storePrev_none {m m' : Links ρ} {p v : Option ρ} {y : ρ} (h : storePrev m p v = some m')
    (hy : m y = none) : m' y = none := by
  obtain ⟨x, rfl, h⟩ := Option.bind_eq_some_iff.mp h
  obtain ⟨k, hk, h⟩ := Option.bind_eq_some_iff.mp h
  cases h
  exact update_none hk hy

/-! ## Double rings -/

/-- The head `h` spans the cycle `l`, and `prev` is the inverse of `next` on it. -/
structure DRing (m : Links ρ) (h : ρ) (l : List ρ) : Prop where
  fwd : Ring (nextOf m) h l
  bwd : Ring (prevOf m) h l.reverse

variable {m m' : Links ρ} {h x : ρ} {l l₁ l₂ : List ρ}

omit [DecidableEq ρ]

theorem Chain.ne_none {n : ρ → Option (Option ρ)} {e : ρ} (hc : Chain n l e) (hx : x ∈ l) :
    n x ≠ none := by
  obtain ⟨y, hy⟩ := hc.live hx
  rw [hy]
  exact Option.some_ne_none _

theorem DRing.live (hr : DRing m h l) (hx : x ∈ h :: l) : m x ≠ none := by
  have hn := hr.fwd.1.ne_none hx
  intro hm
  rw [nextOf, hm] at hn
  exact hn rfl

/-- The head of a ring with its neighbours. -/
theorem DRing.head (hr : DRing m h l) : m h = some ⟨some (lastOr h l), some (firstOr h l)⟩ := by
  refine node_of_fields hr.fwd.head_next ?_
  rw [hr.bwd.head_next, firstOr_reverse]

/-- A node of a ring with its neighbours. -/
theorem DRing.node (hr : DRing m h (l₁ ++ x :: l₂)) :
    m x = some ⟨some (lastOr h l₁), some (firstOr h l₂)⟩ := by
  have hf := hr.fwd.1.2
  have hb := hr.bwd.1.2
  rw [List.reverse_append, List.reverse_cons, List.append_assoc] at hb
  rw [chain_append] at hf hb
  refine node_of_fields hf.2.1 ?_
  have := (chain_append.mp hb.2).1.1
  simpa using this

/-- The node behind a node points back at it. -/
theorem DRing.prev_of_next {y : ρ} (hr : DRing m h l) (hx : x ∈ h :: l)
    (hn : nextOf m x = some (some y)) : prevOf m y = some (some x) := by
  rcases List.mem_cons.mp hx with rfl | hx
  · rw [nextOf_some hr.head, Option.some.injEq, Option.some.injEq] at hn
    cases l with
    | nil => exact hn ▸ prevOf_some hr.head
    | cons z l =>
      have hr₀ : DRing m x ([] ++ z :: l) := hr
      exact hn ▸ prevOf_some hr₀.node
  · obtain ⟨l₁, l₂, rfl⟩ := List.append_of_mem hx
    rw [nextOf_some hr.node, Option.some.injEq, Option.some.injEq] at hn
    have hlast : lastOr h (l₁ ++ [x]) = x := by rw [lastOr_append, lastOr_cons, lastOr_nil]
    cases l₂ with
    | nil =>
      rw [← hn, firstOr_nil, prevOf_some hr.head, hlast]
    | cons z l₂ =>
      rw [List.append_cons] at hr
      rw [← hn, firstOr_cons, prevOf_some hr.node, hlast]

theorem DRing.next_of_prev {y : ρ} (hr : DRing m h l) (hy : y ∈ h :: l)
    (hp : prevOf m y = some (some x)) : nextOf m x = some (some y) := by
  rcases List.mem_cons.mp hy with rfl | hy
  · rw [prevOf_some hr.head, Option.some.injEq, Option.some.injEq] at hp
    rcases List.eq_nil_or_concat' l with rfl | ⟨l₁, z, rfl⟩
    · exact hp ▸ nextOf_some hr.head
    · rw [lastOr_append, lastOr_cons, lastOr_nil] at hp
      exact hp ▸ nextOf_some hr.node
  · obtain ⟨l₁, l₂, rfl⟩ := List.append_of_mem hy
    rw [prevOf_some hr.node, Option.some.injEq, Option.some.injEq] at hp
    rcases List.eq_nil_or_concat' l₁ with rfl | ⟨l₁, z, rfl⟩
    · exact hp ▸ nextOf_some hr.head
    · rw [lastOr_append, lastOr_cons, lastOr_nil] at hp
      rw [List.append_assoc, List.singleton_append] at hr
      exact hp ▸ nextOf_some hr.node

/-- On a ring `prev` is the inverse of `next`. -/
theorem DRing.inverse {y : ρ} (hr : DRing m h l) (hx : x ∈ h :: l) (hy : y ∈ h :: l) :
    nextOf m x = some (some y) ↔ prevOf m y = some (some x) :=
  ⟨hr.prev_of_next hx, hr.next_of_prev hy⟩

/-- A ring can be read at its first node, or at its head. -/
theorem DRing.load_first (hr : DRing m h l) : ∃ k, load m (some (firstOr h l)) = some k := by
  have hmem : firstOr h l ∈ h :: l := by
    cases l with
    | nil => exact List.mem_cons_self
    | cons x l => exact List.mem_cons_of_mem _ List.mem_cons_self
  exact Option.ne_none_iff_exists'.mp (hr.live hmem)

theorem DRing.unique {l' : List ρ} (hr : DRing m h l) (hr' : DRing m h l') : l = l' :=
  hr.fwd.unique hr'.fwd

/-- A double ring reads its own nodes and its head only. -/
theorem DRing.congr (hr : DRing m h l) (hag : ∀ y ∈ h :: l, m' y = m y) : DRing m' h l := by
  refine ⟨hr.fwd.congr fun y hy => ?_, hr.bwd.congr fun y hy => ?_⟩
  · rw [nextOf, nextOf, hag y hy]
  · rw [prevOf, prevOf, hag y (by simpa using hy)]

theorem dring_nil_iff : DRing m h [] ↔ m h = some ⟨some h, some h⟩ := by
  constructor
  · intro hr
    exact hr.head
  · intro hm
    exact ⟨ring_nil_iff.mpr (nextOf_some hm), ring_nil_iff.mpr (prevOf_some hm)⟩

end Pointer
