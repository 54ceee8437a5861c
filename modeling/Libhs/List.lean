import Libhs.Lib.Links
import Libhs.Lib.Walk

/-!
# `list.h`: the intrusive doubly linked list

The functions of `list.h` on a memory of list nodes. A parameter of type `ρ` is a
pointer the caller knows to be a node; a pointer that was loaded from memory has
type `Option ρ` and may be NULL.

Each operation is then shown to edit the list its head spells (`listInsert_spec`,
`listRemove_spec`, `listSplice_spec`), and to leave every node outside of the
lists involved alone.
-/

namespace Libhs
open Pointer

variable {ρ : Type} [DecidableEq ρ]

/-! ## The functions of `list.h` -/

/-- `_hs_list_init`. -/
def hsListInit (m : Links ρ) (list : ρ) : Option (Links ρ) := do
  let m ← storePrev m (some list) (some list)
  storeNext m (some list) (some list)

/-- `_hs_list_insert_internal`. -/
def hsListInsertInternal (m : Links ρ) (prev next : Option ρ) (head : ρ) : Option (Links ρ) := do
  let m ← storeNext m prev (some head)
  let m ← storePrev m (some head) prev
  let m ← storePrev m next (some head)
  storeNext m (some head) next

/-- `_hs_list_add`. -/
def hsListAdd (m : Links ρ) (list head : ρ) : Option (Links ρ) := do
  let k ← m list
  hsListInsertInternal m (some list) k.next head

/-- `_hs_list_add_tail`. -/
def hsListAddTail (m : Links ρ) (list head : ρ) : Option (Links ρ) := do
  let k ← m list
  hsListInsertInternal m k.prev (some list) head

/-- `_hs_list_remove`. -/
def hsListRemove (m : Links ρ) (head : ρ) : Option (Links ρ) := do
  let k ← m head
  let m ← storeNext m k.prev k.next
  let k ← m head
  let m ← storePrev m k.next k.prev
  let m ← storePrev m (some head) none
  storeNext m (some head) none

/-- `_hs_list_is_empty`. -/
def hsListIsEmpty (m : Links ρ) (head : ρ) : Option Bool := do
  let k ← m head
  some (k.next = some head)

/-- `_hs_list_is_singular`. -/
def hsListIsSingular (m : Links ρ) (head : ρ) : Option Bool := do
  let k ← m head
  some (k.next ≠ some head ∧ k.next = k.prev)

/-- `_hs_list_splice_internal`. -/
def hsListSpliceInternal (m : Links ρ) (prev next : Option ρ) (head : ρ) : Option (Links ρ) := do
  if ← hsListIsEmpty m head then
    some m
  else
    let k ← m head
    let m ← storePrev m k.next prev
    let k ← m head
    let m ← storeNext m prev k.next
    let k ← m head
    let m ← storeNext m k.prev next
    let k ← m head
    let m ← storePrev m next k.prev
    hsListInit m head

/-- `_hs_list_splice`. -/
def hsListSplice (m : Links ρ) (list «from» : ρ) : Option (Links ρ) := do
  let k ← m list
  hsListSpliceInternal m (some list) k.next «from»

/-- `_hs_list_splice_tail`. -/
def hsListSpliceTail (m : Links ρ) (list «from» : ρ) : Option (Links ρ) := do
  let k ← m list
  hsListSpliceInternal m k.prev (some list) «from»

/-- `_hs_list_foreach`, guarded by `if ((head)->next)` against a list that was never set up. -/
def hsListForeach {σ α : Type} (links : σ → Links ρ) (head : ρ)
    (body : ρ → σ → Option (Flow α × σ)) (fuel : Nat) (s : σ) : Option (Exit ρ α × σ) := do
  let k ← links s head
  match k.next with
  | none => some (.fell, s)
  | some _ => foreach (fun s => nextOf (links s)) head body fuel s

/-! ## What they do to the lists -/

variable {m : Links ρ} {h g x p n : ρ} {l l₁ l₂ r : List ρ}

theorem listInit_spec (hh : m h ≠ none) :
    ∃ m', hsListInit m h = some m' ∧ DRing m' h [] ∧ ∀ y, y ≠ h → m' y = m y := by
  obtain ⟨m₁, e₁, p₁, n₁, f₁, v₁⟩ := storePrev_some (some h) hh
  obtain ⟨m₂, e₂, n₂, p₂, f₂, -⟩ := storeNext_some (some h) ((v₁ h).mpr hh)
  refine ⟨m₂, by simp only [hsListInit, Option.bind_eq_bind, e₁, Option.bind_some, e₂], ?_, ?_⟩
  · refine ⟨ring_nil_iff.mpr ?_, ring_nil_iff.mpr ?_⟩
    · rw [n₂, Function.update_self]
    · rw [p₂, p₁, Function.update_self]
  · intro y hy
    rw [f₂ y hy, f₁ y hy]

/-- The four stores of an insertion between the live nodes `p` and `n`. -/
theorem insertInternal_some (hp : m p ≠ none) (hn : m n ≠ none) (hx : m x ≠ none) :
    ∃ m', hsListInsertInternal m (some p) (some n) x = some m' ∧
      nextOf m' = Function.update (Function.update (nextOf m) p (some (some x))) x (some (some n)) ∧
      prevOf m' = Function.update (Function.update (prevOf m) x (some (some p))) n (some (some x)) ∧
      ∀ y, y ≠ p → y ≠ n → y ≠ x → m' y = m y := by
  obtain ⟨m₁, e₁, n₁, p₁, f₁, v₁⟩ := storeNext_some (some x) hp
  obtain ⟨m₂, e₂, p₂, n₂, f₂, v₂⟩ := storePrev_some (some p) ((v₁ x).mpr hx)
  obtain ⟨m₃, e₃, p₃, n₃, f₃, v₃⟩ := storePrev_some (some x) ((v₂ n).mpr ((v₁ n).mpr hn))
  obtain ⟨m₄, e₄, n₄, p₄, f₄, -⟩ :=
    storeNext_some (some n) ((v₃ x).mpr ((v₂ x).mpr ((v₁ x).mpr hx)))
  refine ⟨m₄, ?_, ?_, ?_, ?_⟩
  · simp only [hsListInsertInternal, Option.bind_eq_bind, e₁, e₂, e₃, e₄, Option.bind_some]
  · rw [n₄, n₃, n₂, n₁]
  · rw [p₄, p₃, p₂, p₁]
  · intro y hyp hyn hyx
    rw [f₄ y hyx, f₃ y hyn, f₂ y hyx, f₁ y hyp]

/-- Inserting an unlinked node `x` between the nodes `l₁` and `l₂` of a list. -/
theorem listInsert_spec (hr : DRing m h (l₁ ++ l₂)) (hx : x ∉ h :: (l₁ ++ l₂)) (hxl : m x ≠ none) :
    ∃ m', hsListInsertInternal m (some (lastOr h l₁)) (some (firstOr h l₂)) x = some m' ∧
      DRing m' h (l₁ ++ x :: l₂) ∧ ∀ y, y ∉ h :: (l₁ ++ l₂) → y ≠ x → m' y = m y := by
  have hp : lastOr h l₁ ∈ h :: (l₁ ++ l₂) := by
    rw [split_at_last]; simp
  have hn : firstOr h l₂ ∈ h :: (l₁ ++ l₂) := by
    cases l₂ <;> simp
  obtain ⟨m', e, n', p', f⟩ := insertInternal_some (hr.live hp) (hr.live hn) hxl
  have hpx : lastOr h l₁ ≠ x := fun heq => hx (heq ▸ hp)
  have hnx : firstOr h l₂ ≠ x := fun heq => hx (heq ▸ hn)
  refine ⟨m', e, ⟨?_, ?_⟩, ?_⟩
  · refine hr.fwd.link hx ?_ ?_ ?_
    · rw [n', Function.update_of_ne hpx, Function.update_self]
    · rw [n', Function.update_self]
    · intro y hyp hyx
      rw [n', Function.update_of_ne hyx, Function.update_of_ne hyp]
  · -- backward, `x` goes in after the mirror image of `l₂`
    have hb := hr.bwd
    rw [List.reverse_append] at hb
    have hx' : x ∉ h :: (l₂.reverse ++ l₁.reverse) := by
      simpa [and_comm] using hx
    rw [List.reverse_append, List.reverse_cons, List.append_assoc, List.singleton_append]
    refine hb.link hx' ?_ ?_ ?_
    · rw [lastOr_reverse, p', Function.update_self]
    · rw [firstOr_reverse, p', Function.update_of_ne hnx.symm, Function.update_self]
    · intro y hyn hyx
      rw [lastOr_reverse] at hyn
      rw [p', Function.update_of_ne hyn, Function.update_of_ne hyx]
  · intro y hy hyx
    refine f y ?_ ?_ hyx
    · rintro rfl; exact hy hp
    · rintro rfl; exact hy hn

/-- `_hs_list_add` is cons. -/
theorem listAdd_spec (hr : DRing m h l) (hx : x ∉ h :: l) (hxl : m x ≠ none) :
    ∃ m', hsListAdd m h x = some m' ∧ DRing m' h (x :: l) ∧
      ∀ y, y ∉ h :: l → y ≠ x → m' y = m y := by
  have hr₀ : DRing m h ([] ++ l) := hr
  obtain ⟨m', e, hr', f⟩ := listInsert_spec hr₀ hx hxl
  refine ⟨m', ?_, hr', f⟩
  simpa only [hsListAdd, hr.head, Option.bind_eq_bind, Option.bind_some, lastOr_nil] using e

/-- `_hs_list_add_tail` appends at the end. -/
theorem listAddTail_spec (hr : DRing m h l) (hx : x ∉ h :: l) (hxl : m x ≠ none) :
    ∃ m', hsListAddTail m h x = some m' ∧ DRing m' h (l ++ [x]) ∧
      ∀ y, y ∉ h :: l → y ≠ x → m' y = m y := by
  have hr0 : DRing m h (l ++ []) := by rwa [List.append_nil]
  obtain ⟨m', e, hr', f⟩ := listInsert_spec hr0 (by rwa [List.append_nil]) hxl
  rw [List.append_nil] at f
  refine ⟨m', ?_, hr', f⟩
  simpa only [hsListAddTail, hr.head, Option.bind_eq_bind, Option.bind_some, firstOr_nil] using e

/-- `_hs_list_remove` deletes the node and clears its pointers. -/
theorem listRemove_spec (hr : DRing m h (l₁ ++ x :: l₂)) :
    ∃ m', hsListRemove m x = some m' ∧ DRing m' h (l₁ ++ l₂) ∧ m' x = some ⟨none, none⟩ ∧
      ∀ y, y ∉ h :: (l₁ ++ x :: l₂) → m' y = m y := by
  have hxn := hr.node
  have hp : lastOr h l₁ ∈ h :: (l₁ ++ x :: l₂) := by rw [split_at_last]; simp
  have hn : firstOr h l₂ ∈ h :: (l₁ ++ x :: l₂) := by cases l₂ <;> simp
  have hxm : x ∈ h :: (l₁ ++ x :: l₂) := by simp
  have hnd := hr.fwd.2
  rw [split_at_last] at hnd
  have hpx : lastOr h l₁ ≠ x := by
    rintro heq
    rw [heq] at hnd
    simp [List.nodup_append] at hnd
  have hnx : firstOr h l₂ ≠ x := by
    rintro rfl
    have hnd' := hr.fwd.2
    cases l₂ with
    | nil => simp at hnd'
    | cons z l₂ => simp [List.nodup_append] at hnd'
  -- the neighbours may be one node, the head
  obtain ⟨m₁, e₁, n₁, p₁, f₁, v₁⟩ := storeNext_some (some (firstOr h l₂)) (hr.live hp)
  obtain ⟨m₂, e₂, p₂, n₂, f₂, v₂⟩ :=
    storePrev_some (some (lastOr h l₁)) ((v₁ _).mpr (hr.live hn))
  obtain ⟨m₃, e₃, p₃, n₃, f₃, v₃⟩ :=
    storePrev_some (none : Option ρ) ((v₂ x).mpr ((v₁ x).mpr (hr.live hxm)))
  obtain ⟨m₄, e₄, n₄, p₄, f₄, -⟩ :=
    storeNext_some (none : Option ρ) ((v₃ x).mpr ((v₂ x).mpr ((v₁ x).mpr (hr.live hxm))))
  have hx₁ : m₁ x = some ⟨some (lastOr h l₁), some (firstOr h l₂)⟩ := by
    rw [f₁ x hpx.symm, hxn]
  refine ⟨m₄, ?_, ⟨?_, ?_⟩, ?_, ?_⟩
  · simp only [hsListRemove, Option.bind_eq_bind, hxn, Option.bind_some, e₁, hx₁, e₂, e₃, e₄]
  · refine hr.fwd.unlink ?_ ?_
    · rw [n₄, n₃, n₂, n₁, Function.update_of_ne hpx, Function.update_self, nextOf_some hxn]
    · intro y hyp hyx
      rw [n₄, n₃, n₂, n₁, Function.update_of_ne hyx, Function.update_of_ne hyp]
  · have hb := hr.bwd
    rw [List.reverse_append, List.reverse_cons, List.append_assoc, List.singleton_append] at hb
    rw [List.reverse_append]
    refine hb.unlink ?_ ?_
    · rw [lastOr_reverse, p₄, p₃, p₂, Function.update_of_ne hnx, Function.update_self,
        prevOf_some hxn]
    · intro y hyn hyx
      rw [lastOr_reverse] at hyn
      rw [p₄, p₃, p₂, p₁, Function.update_of_ne hyx, Function.update_of_ne hyn]
  · refine node_of_fields ?_ ?_
    · rw [n₄, Function.update_self]
    · rw [p₄, p₃, Function.update_self]
  · intro y hy
    have hyp : y ≠ lastOr h l₁ := by rintro rfl; exact hy hp
    have hyn : y ≠ firstOr h l₂ := by rintro rfl; exact hy hn
    have hyx : y ≠ x := by rintro rfl; exact hy hxm
    rw [f₄ y hyx, f₃ y hyx, f₂ y hyn, f₁ y hyp]

/-- Memory that was freed stays so. -/
theorem listRemove_none {m' : Links ρ} {y : ρ} (hrem : hsListRemove m x = some m')
    (hy : m y = none) : m' y = none := by
  obtain ⟨k₁, -, hrem⟩ := Option.bind_eq_some_iff.mp hrem
  obtain ⟨m₁, e₁, hrem⟩ := Option.bind_eq_some_iff.mp hrem
  obtain ⟨k₂, -, hrem⟩ := Option.bind_eq_some_iff.mp hrem
  obtain ⟨m₂, e₂, hrem⟩ := Option.bind_eq_some_iff.mp hrem
  obtain ⟨m₃, e₃, hrem⟩ := Option.bind_eq_some_iff.mp hrem
  exact storeNext_none hrem (storePrev_none e₃ (storePrev_none e₂ (storeNext_none e₁ hy)))

theorem listIsEmpty_spec (hr : DRing m h l) : hsListIsEmpty m h = some (l.isEmpty) := by
  simp only [hsListIsEmpty, hr.head, Option.bind_eq_bind, Option.bind_some]
  cases l with
  | nil => simp
  | cons x l =>
    have hx : x ≠ h := by
      rintro rfl
      exact hr.fwd.head_not_mem List.mem_cons_self
    simp [hx]

theorem listIsSingular_spec (hr : DRing m h l) :
    hsListIsSingular m h = some (decide (l.length = 1)) := by
  simp only [hsListIsSingular, hr.head, Option.bind_eq_bind, Option.bind_some]
  have hnd := hr.fwd.2
  match l, hnd with
  | [], _ => simp
  | [x], hnd =>
    have hx : x ≠ h := fun he => (List.nodup_cons.mp hnd).1 (he ▸ List.mem_cons_self)
    simp [hx]
  | x :: y :: l, hnd =>
    have hlast : lastOr y l ∈ y :: l := lastOr_mem y l
    have hx : x ≠ lastOr y l := fun he =>
      (List.nodup_cons.mp (List.nodup_cons.mp hnd).2).1 (he ▸ hlast)
    simp [hx]

/-- Moving the nodes of the list `g` between the nodes `l₁` and `l₂` of the list `h`. -/
theorem listSpliceInternal_spec (hr : DRing m h (l₁ ++ l₂)) (hg : DRing m g r)
    (hdisj : ∀ y ∈ h :: (l₁ ++ l₂), y ∉ g :: r) :
    ∃ m', hsListSpliceInternal m (some (lastOr h l₁)) (some (firstOr h l₂)) g = some m' ∧
      DRing m' h (l₁ ++ (r ++ l₂)) ∧ DRing m' g [] ∧
      ∀ y, y ∉ h :: (l₁ ++ l₂) → y ∉ g :: r → m' y = m y := by
  by_cases hne : r = []
  · subst hne
    refine ⟨m, ?_, hr, hg, fun _ _ _ => rfl⟩
    simp only [hsListSpliceInternal, listIsEmpty_spec hg, Option.bind_eq_bind, Option.bind_some,
      List.isEmpty_nil, ↓reduceIte]
  · have hp : lastOr h l₁ ∈ h :: (l₁ ++ l₂) := by rw [split_at_last]; simp
    have hn : firstOr h l₂ ∈ h :: (l₁ ++ l₂) := by cases l₂ <;> simp
    have hf : firstOr g r ∈ r := by
      cases r with
      | nil => exact absurd rfl hne
      | cons y r => exact List.mem_cons_self
    have hq : lastOr g r ∈ r := by
      cases r with
      | nil => exact absurd rfl hne
      | cons y r => exact lastOr_mem y r
    have hgr : g ∉ r := hg.fwd.head_not_mem
    have hgf : g ≠ firstOr g r := fun he => hgr (he ▸ hf)
    have hgq : g ≠ lastOr g r := fun he => hgr (he ▸ hq)
    have hout : ∀ {y z : ρ}, y ∈ h :: (l₁ ++ l₂) → z ∈ g :: r → y ≠ z := by
      rintro y z hy hz rfl
      exact hdisj y hy hz
    have hpg := hout hp List.mem_cons_self
    have hng := hout hn List.mem_cons_self
    have hpq := hout hp (List.mem_cons_of_mem g hq)
    have hnf := hout hn (List.mem_cons_of_mem g hf)
    have hgl := hg.live (List.mem_cons_self)
    obtain ⟨m₁, e₁, p₁, n₁, f₁, v₁⟩ :=
      storePrev_some (some (lastOr h l₁)) (hg.live (List.mem_cons_of_mem g hf))
    have g₁ : m₁ g = m g := f₁ g hgf
    obtain ⟨m₂, e₂, n₂, p₂, f₂, v₂⟩ :=
      storeNext_some (some (firstOr g r)) ((v₁ _).mpr (hr.live hp))
    have g₂ : m₂ g = m g := (f₂ g hpg.symm).trans g₁
    obtain ⟨m₃, e₃, n₃, p₃, f₃, v₃⟩ := storeNext_some (some (firstOr h l₂))
      ((v₂ _).mpr ((v₁ _).mpr (hg.live (List.mem_cons_of_mem g hq))))
    have g₃ : m₃ g = m g := (f₃ g hgq).trans g₂
    obtain ⟨m₄, e₄, p₄, n₄, f₄, v₄⟩ := storePrev_some (some (lastOr g r))
      ((v₃ _).mpr ((v₂ _).mpr ((v₁ _).mpr (hr.live hn))))
    have g₄ : m₄ g = m g := (f₄ g hng.symm).trans g₃
    obtain ⟨m₅, e₅, hi, f₅⟩ := listInit_spec (m := m₄) (h := g) (by rw [g₄]; exact hgl)
    have hnext : ∀ y, y ≠ g → nextOf m₅ y = nextOf m₄ y := fun y hy => by
      rw [nextOf, nextOf, f₅ y hy]
    have hprev : ∀ y, y ≠ g → prevOf m₅ y = prevOf m₄ y := fun y hy => by
      rw [prevOf, prevOf, f₅ y hy]
    refine ⟨m₅, ?_, ⟨?_, ?_⟩, hi, ?_⟩
    · have hempty : r.isEmpty = false := by
        cases r with
        | nil => exact absurd rfl hne
        | cons y r => rfl
      simp only [hsListSpliceInternal, listIsEmpty_spec hg, Option.bind_eq_bind, Option.bind_some,
        hempty, Bool.false_eq_true, ↓reduceIte, hg.head, e₁, g₁, e₂, g₂, e₃, g₃, e₄, e₅]
    · refine hr.fwd.splice hg.fwd hdisj hne ?_ ?_ ?_
      · rw [hnext _ hpg, n₄, n₃, n₂, Function.update_of_ne hpq, Function.update_self,
          hg.fwd.head_next]
      · rw [hnext _ hgq.symm, n₄, n₃, Function.update_self]
      · intro y hyp hyq hyg
        rw [hnext y hyg, n₄, n₃, n₂, n₁, Function.update_of_ne hyq, Function.update_of_ne hyp]
    · -- backward, the mirror image of `r` goes between those of `l₂` and `l₁`
      have hb := hr.bwd
      rw [List.reverse_append] at hb
      have hdisj' : ∀ y ∈ h :: (l₂.reverse ++ l₁.reverse), y ∉ g :: r.reverse := by
        intro y hy hy'
        refine hdisj y ?_ (by simpa using hy')
        simpa [or_comm] using hy
      have hne' : r.reverse ≠ [] := by simpa using hne
      rw [List.reverse_append, List.reverse_append, List.append_assoc]
      refine hb.splice hg.bwd hdisj' hne' ?_ ?_ ?_
      · rw [lastOr_reverse, hprev _ hng, p₄, Function.update_self, hg.bwd.head_next,
          firstOr_reverse]
      · rw [lastOr_reverse, firstOr_reverse, hprev _ hgf.symm, p₄, Function.update_of_ne hnf.symm,
          p₃, p₂, p₁, Function.update_self]
      · intro y hyn hyf hyg
        rw [lastOr_reverse] at hyn hyf
        rw [hprev y hyg, p₄, Function.update_of_ne hyn, p₃, p₂, p₁, Function.update_of_ne hyf]
    · intro y hy hyr
      have hyp : y ≠ lastOr h l₁ := by rintro rfl; exact hy hp
      have hyn : y ≠ firstOr h l₂ := by rintro rfl; exact hy hn
      have hyg : y ≠ g := by rintro rfl; exact hyr List.mem_cons_self
      have hyf : y ≠ firstOr g r := by rintro rfl; exact hyr (List.mem_cons_of_mem g hf)
      have hyq : y ≠ lastOr g r := by rintro rfl; exact hyr (List.mem_cons_of_mem g hq)
      rw [f₅ y hyg, f₄ y hyn, f₃ y hyq, f₂ y hyp, f₁ y hyf]

/-- `_hs_list_splice` puts the other list in front and leaves it empty. -/
theorem listSplice_spec (hr : DRing m h l) (hg : DRing m g r)
    (hdisj : ∀ y ∈ h :: l, y ∉ g :: r) :
    ∃ m', hsListSplice m h g = some m' ∧ DRing m' h (r ++ l) ∧ DRing m' g [] ∧
      ∀ y, y ∉ h :: l → y ∉ g :: r → m' y = m y := by
  have hr₀ : DRing m h ([] ++ l) := hr
  obtain ⟨m', e, hr', hg', f⟩ := listSpliceInternal_spec hr₀ hg hdisj
  refine ⟨m', ?_, hr', hg', f⟩
  simpa only [hsListSplice, hr.head, Option.bind_eq_bind, Option.bind_some, lastOr_nil] using e

/-- `_hs_list_splice_tail` puts it at the end. -/
theorem listSpliceTail_spec (hr : DRing m h l) (hg : DRing m g r)
    (hdisj : ∀ y ∈ h :: l, y ∉ g :: r) :
    ∃ m', hsListSpliceTail m h g = some m' ∧ DRing m' h (l ++ r) ∧ DRing m' g [] ∧
      ∀ y, y ∉ h :: l → y ∉ g :: r → m' y = m y := by
  have hr₀ : DRing m h (l ++ []) := by rwa [List.append_nil]
  obtain ⟨m', e, hr', hg', f⟩ := listSpliceInternal_spec hr₀ hg (by rwa [List.append_nil])
  rw [List.append_nil] at hr' f
  refine ⟨m', ?_, hr', hg', f⟩
  simpa only [hsListSpliceTail, hr.head, Option.bind_eq_bind, Option.bind_some, firstOr_nil] using e

/-- The rule of `_hs_list_foreach` on a list that was set up. -/
theorem listForeach_rule {σ α : Type} {links : σ → Links ρ} {body : ρ → σ → Option (Flow α × σ)}
    {I : List ρ → σ → Prop} {Q : Exit ρ α → σ → Prop}
    (hrest : ∀ l s, I l s → Rest (fun s => nextOf (links s)) h l s)
    (hstep : ∀ x l s, I (x :: l) s → ∃ f s', body x s = some (f, s') ∧ Round I Q x l s' f)
    (hdone : ∀ s, I [] s → Q .fell s) {s : σ} {fuel : Nat} (hI : I l s)
    (hstart : nextOf (links s) h = some (some (firstOr h l))) (hfuel : l.length < fuel) :
    ∃ e s', hsListForeach links h body fuel s = some (e, s') ∧ Q e s' := by
  obtain ⟨e, s', he, hq⟩ := foreach_rule hrest hstep hdone hI hstart hfuel
  refine ⟨e, s', ?_, hq⟩
  obtain ⟨k, hk, hn⟩ := Option.map_eq_some_iff.mp hstart
  simpa only [hsListForeach, hk, Option.bind_eq_bind, Option.bind_some, hn] using he

/-- The same for a body that frees the node it visits. -/
theorem listForeach_free {σ α : Type} {links : σ → Links ρ} {body : ρ → σ → Option (Flow α × σ)}
    {P : List ρ → σ → Prop} {s : σ} {fuel : Nat} (hr : DRing (links s) h l)
    (hstep : ∀ x l' t, P (x :: l') t → x ∉ l' → ∃ t', body x t = some (.next, t') ∧
      links t' = Function.update (links t) x none ∧ P l' t')
    (hP : P l s) (hfuel : l.length < fuel) :
    ∃ s', hsListForeach links h body fuel s = some (.fell, s') ∧ P [] s' := by
  obtain ⟨e, s', he, rfl, hP'⟩ := listForeach_rule (l := l)
    (I := fun l' t => P l' t ∧ (∃ done, l = done ++ l') ∧ ∀ y ∈ h :: l', links t y = links s y)
    (Q := fun e t => e = .fell ∧ P [] t)
    (fun l' t ⟨_, ⟨done, hl⟩, hsame⟩ => by
      rw [hl] at hr
      have hfwd : Rest nextOf h l' (links s) := hr.fwd.rest
      obtain ⟨hc, hn, v, hv⟩ := hfwd
      refine ⟨hc.congr fun y hy => ?_, hn, v, ?_⟩
      · simp only [nextOf, hsame y (List.mem_cons_of_mem _ hy)]
      · simpa only [nextOf, hsame h List.mem_cons_self] using hv)
    (fun x l' t ⟨hP, ⟨done, hl⟩, hsame⟩ => by
      have hnd : (h :: x :: l').Nodup := by
        have hn := hr.fwd.2
        rw [hl] at hn
        exact hn.sublist ((List.sublist_append_right _ _).cons_cons _)
      have hx := List.nodup_cons.mp (List.nodup_cons.mp hnd).2
      obtain ⟨t', e, hlinks, hP'⟩ := hstep x l' t hP hx.1
      refine ⟨.next, t', e, hP', ⟨done ++ [x], by simp [hl]⟩, fun y hy => ?_⟩
      have hne : y ≠ x := by
        rintro rfl
        rcases List.mem_cons.mp hy with rfl | hy
        · exact (List.nodup_cons.mp hnd).1 List.mem_cons_self
        · exact hx.1 hy
      rw [hlinks, Function.update_of_ne hne]
      refine hsame y ?_
      rcases List.mem_cons.mp hy with rfl | hy
      · exact List.mem_cons_self
      · exact List.mem_cons_of_mem _ (List.mem_cons_of_mem _ hy))
    (fun t ⟨hP, _, _⟩ => ⟨rfl, hP⟩)
    ⟨hP, ⟨[], rfl⟩, fun _ _ => rfl⟩ hr.fwd.head_next hfuel
  exact ⟨s', he, hP'⟩

end Libhs
