import Libhs.Lib.Run
import Libhs.Lib.Visits
import Libhs.List

/-!
# Runs of the list functions

Any sequence of the functions of `list.h` on any number of lists in one memory, followed
by `_hs_list_foreach` with a body that unlinks or frees the nodes it likes.

`Spells` says which sequence each head of a memory spells.
-/

namespace Libhs
open Pointer

variable {ρ α : Type}

/-! ## Memories of lists -/

/-- The sequence of each node that is the head of a list. -/
abbrev Sequences (ρ : Type) := ρ → Option (List ρ)

/-- Each head spans the cycle of its sequence, and no node is in two cycles. -/
structure Spells (m : Links ρ) (L : Sequences ρ) : Prop where
  ring : ∀ h l, L h = some l → DRing m h l
  disjoint : ∀ h l g r, L h = some l → L g = some r → h ≠ g → List.Disjoint (h :: l) (g :: r)

/-- The node is in no cycle. -/
def Unlinked (L : Sequences ρ) (x : ρ) : Prop := ∀ h l, L h = some l → x ∉ h :: l

variable {m m' : Links ρ} {L L' : Sequences ρ} {h g x : ρ} {l r : List ρ}

/-- An edit of the lists `P` that takes no node of the others. -/
theorem Spells.edit {P : ρ → Prop} (hs : Spells m L) (hsame : ∀ k, ¬P k → L' k = L k)
    (hring : ∀ k s, P k → L' k = some s → DRing m' k s)
    (hframe : ∀ k s, ¬P k → L k = some s → ∀ y ∈ k :: s, m' y = m y)
    (hothers : ∀ h l k s, P h → ¬P k → L' h = some l → L k = some s →
      List.Disjoint (h :: l) (k :: s))
    (hapart : ∀ h l k s, P h → P k → h ≠ k → L' h = some l → L' k = some s →
      List.Disjoint (h :: l) (k :: s)) : Spells m' L' where
  ring k s hk := by
    by_cases hP : P k
    · exact hring k s hP hk
    · rw [hsame k hP] at hk
      exact (hs.ring k s hk).congr (hframe k s hP hk)
  disjoint h l k s hh hk hne := by
    by_cases hPh : P h
    · by_cases hPk : P k
      · exact hapart h l k s hPh hPk hne hh hk
      · rw [hsame k hPk] at hk
        exact hothers h l k s hPh hPk hh hk
    · rw [hsame h hPh] at hh
      by_cases hPk : P k
      · exact fun y hy hy' => hothers k s h l hPk hPh hk hh hy' hy
      · rw [hsame k hPk] at hk
        exact hs.disjoint h l k s hh hk hne

variable [DecidableEq ρ]

/-- An edit of one list, which takes nodes that were its own or in no list. -/
theorem Spells.editOne (hs : Spells m L) (hr : DRing m' h l)
    (hframe : ∀ k s, k ≠ h → L k = some s → ∀ y ∈ k :: s, m' y = m y)
    (hothers : ∀ k s, k ≠ h → L k = some s → List.Disjoint (h :: l) (k :: s)) :
    Spells m' (Function.update L h (some l)) := by
  refine hs.edit (P := fun k => k = h) (fun k hk => Function.update_of_ne hk ..) ?_
    (fun k s => hframe k s) ?_ ?_
  · rintro k s rfl hk
    rw [Function.update_self] at hk
    cases hk
    exact hr
  · rintro k t j s rfl hj hk hjs
    rw [Function.update_self] at hk
    cases hk
    exact hothers j s hj hjs
  · rintro k t j s rfl rfl hne
    exact absurd rfl hne

/-- An edit of two lists, which take nodes that were their own. -/
theorem Spells.editTwo (hs : Spells m L) (hne : h ≠ g) (hh : DRing m' h l) (hg : DRing m' g r)
    (hapart : List.Disjoint (h :: l) (g :: r))
    (hframe : ∀ k s, k ≠ h → k ≠ g → L k = some s → ∀ y ∈ k :: s, m' y = m y)
    (hothers : ∀ k s, k ≠ h → k ≠ g → L k = some s →
      List.Disjoint (h :: l) (k :: s) ∧ List.Disjoint (g :: r) (k :: s)) :
    Spells m' (Function.update (Function.update L h (some l)) g (some r)) := by
  have hLh : Function.update (Function.update L h (some l)) g (some r) h = some l := by
    rw [Function.update_of_ne hne, Function.update_self]
  have hLg : Function.update (Function.update L h (some l)) g (some r) g = some r :=
    Function.update_self ..
  refine hs.edit (P := fun k => k = h ∨ k = g) (fun k hk => ?_) ?_
    (fun k s hk => hframe k s (fun e => hk (Or.inl e)) fun e => hk (Or.inr e)) ?_ ?_
  · rw [not_or] at hk
    rw [Function.update_of_ne hk.2, Function.update_of_ne hk.1]
  · rintro k s (rfl | rfl) hk
    · rw [hLh] at hk
      cases hk
      exact hh
    · rw [hLg] at hk
      cases hk
      exact hg
  · intro k u j s hk hj hu hLj
    rw [not_or] at hj
    obtain ⟨hdh, hdg⟩ := hothers j s hj.1 hj.2 hLj
    rcases hk with rfl | rfl
    · rw [hLh] at hu
      cases hu
      exact hdh
    · rw [hLg] at hu
      cases hu
      exact hdg
  · rintro k u j s (rfl | rfl) (rfl | rfl) hkj hk hj
    · exact absurd rfl hkj
    · rw [hLh] at hk
      rw [hLg] at hj
      cases hk
      cases hj
      exact hapart
    · rw [hLg] at hk
      rw [hLh] at hj
      cases hk
      cases hj
      exact fun y hy hyl => hapart hyl hy
    · exact absurd rfl hkj

/-! ## The operations on the sequences -/

/-- A call of a function of `list.h`. -/
inductive ListOp (ρ : Type)
  | init (list : ρ)
  | add (list head : ρ)
  | addTail (list head : ρ)
  | remove (head : ρ)
  | splice (list «from» : ρ)
  | spliceTail (list «from» : ρ)

/-- The call on memory. -/
def ListOp.exec (m : Links ρ) : ListOp ρ → Option (Links ρ)
  | .init list => hsListInit m list
  | .add list head => hsListAdd m list head
  | .addTail list head => hsListAddTail m list head
  | .remove head => hsListRemove m head
  | .splice list «from» => hsListSplice m list «from»
  | .spliceTail list «from» => hsListSpliceTail m list «from»

/-- The sequence of one head is edited. -/
def Sequences.edit (L : Sequences ρ) (h : ρ) (f : List ρ → List ρ) : Sequences ρ :=
  Function.update L h ((L h).map f)

/-- The call on the sequences. -/
def ListOp.apply (L : Sequences ρ) : ListOp ρ → Sequences ρ
  | .init list => Function.update L list (some [])
  | .add list head => L.edit list fun l => head :: l
  | .addTail list head => L.edit list fun l => l ++ [head]
  | .remove head => fun h => (L h).map fun l => l.filter (· ≠ head)
  | .splice list «from» =>
    (L.edit list fun l => (L «from»).getD [] ++ l).edit «from» fun _ => []
  | .spliceTail list «from» =>
    (L.edit list fun l => l ++ (L «from»).getD []).edit «from» fun _ => []

/-- What a call asks for: a new head and a node that is put in are allocated and in no list, a node
that is removed is in a list, and two different lists are spliced. -/
def ListOp.Allowed (live : ρ → Prop) (L : Sequences ρ) : ListOp ρ → Prop
  | .init list => live list ∧ Unlinked L list
  | .add list head => (L list).isSome ∧ live head ∧ Unlinked L head
  | .addTail list head => (L list).isSome ∧ live head ∧ Unlinked L head
  | .remove head => ∃ h l, L h = some l ∧ head ∈ l
  | .splice list «from» => (L list).isSome ∧ (L «from»).isSome ∧ list ≠ «from»
  | .spliceTail list «from» => (L list).isSome ∧ (L «from»).isSome ∧ list ≠ «from»

/-- The calls are allowed one after the other. -/
def ListOp.AllAllowed (live : ρ → Prop) : Sequences ρ → List (ListOp ρ) → Prop :=
  Run.Along (fun L op => some (ListOp.apply L op)) (ListOp.Allowed live)

/-- The sequences that the calls make in a memory without lists. -/
def sequencesOf (ops : List (ListOp ρ)) : Sequences ρ := ops.foldl ListOp.apply fun _ => none

/-! ## Each call edits the sequences -/

theorem edit_eq {f : List ρ → List ρ} (hL : L h = some l) :
    L.edit h f = Function.update L h (some (f l)) := by
  rw [Sequences.edit, hL, Option.map_some]

/-- A call keeps the memory that it does not link. -/
theorem live_of_frame {y : ρ} (hr : DRing m' h l) (hf : y ∉ h :: l → m' y = m y)
    (hy : m y ≠ none) : m' y ≠ none := by
  by_cases hm : y ∈ h :: l
  · exact hr.live hm
  · rwa [hf hm]

theorem spells_init (hs : Spells m L) (hl : m h ≠ none) (hu : Unlinked L h) :
    ∃ m', hsListInit m h = some m' ∧ Spells m' (Function.update L h (some [])) ∧
      ∀ y, m y ≠ none → m' y ≠ none := by
  obtain ⟨m', e, hr, hf⟩ := listInit_spec hl
  refine ⟨m', e, hs.editOne hr (fun k s _ hL y hy => hf y ?_) (fun k s _ hL => ?_),
    fun y => live_of_frame hr fun hy => hf y (List.ne_of_not_mem_cons hy)⟩
  · rintro rfl
    exact hu k s hL hy
  · rw [List.singleton_disjoint]
    exact hu k s hL

/-- A node that was in no list is put in one. -/
theorem spells_insert (hs : Spells m L) (hL : L h = some l) (hu : Unlinked L x)
    (hr : DRing m' h r) (hmem : ∀ y, y ∈ r ↔ y = x ∨ y ∈ l)
    (hf : ∀ y, y ∉ h :: l → y ≠ x → m' y = m y) :
    Spells m' (Function.update L h (some r)) ∧ ∀ y, m y ≠ none → m' y ≠ none := by
  refine ⟨hs.editOne hr (fun k s hk hLk y hy => hf y ?_ ?_) (fun k s hk hLk y hy hyk => ?_),
    fun y => live_of_frame hr fun hy => hf y ?_ ?_⟩
  · exact fun hyl => hs.disjoint k s h l hLk hL hk hy hyl
  · rintro rfl
    exact hu k s hLk hy
  · rcases List.mem_cons.mp hy with rfl | hyr
    · exact hs.disjoint y l k s hL hLk hk.symm List.mem_cons_self hyk
    · rcases (hmem y).mp hyr with rfl | hyl
      · exact hu k s hLk hyk
      · exact hs.disjoint h l k s hL hLk hk.symm (List.mem_cons_of_mem _ hyl) hyk
  · rw [List.mem_cons, not_or, hmem] at hy
    rw [List.mem_cons, not_or]
    exact ⟨hy.1, fun hyl => hy.2 (Or.inr hyl)⟩
  · rw [List.mem_cons, not_or, hmem] at hy
    exact fun hyx => hy.2 (Or.inl hyx)

theorem spells_remove (hs : Spells m L) (hL : L h = some l) (hx : x ∈ l) :
    ∃ m', hsListRemove m x = some m' ∧
      Spells m' (fun k => (L k).map fun s => s.filter (· ≠ x)) ∧
      ∀ y, m y ≠ none → m' y ≠ none := by
  have hnd := (hs.ring h l hL).fwd.2
  obtain ⟨l₁, l₂, rfl⟩ := List.append_of_mem hx
  obtain ⟨m', e, hr, hnode, hf⟩ := listRemove_spec (hs.ring _ _ hL)
  have hfilter : (l₁ ++ x :: l₂).filter (· ≠ x) = l₁ ++ l₂ := by
    obtain ⟨-, hback, hapart⟩ := List.nodup_append.mp (List.nodup_cons.mp hnd).2
    have h₁ : ∀ y ∈ l₁, y ≠ x := fun y hy => hapart y hy x List.mem_cons_self
    have h₂ : ∀ y ∈ l₂, y ≠ x := fun y hy hyx => (List.nodup_cons.mp hback).1 (hyx ▸ hy)
    rw [List.filter_append, List.filter_cons_of_neg (by simp),
      List.filter_eq_self.mpr fun y hy => by simpa using h₁ y hy,
      List.filter_eq_self.mpr fun y hy => by simpa using h₂ y hy]
  have heq : (fun k => (L k).map fun s => s.filter (· ≠ x)) =
      Function.update L h (some (l₁ ++ l₂)) := by
    funext k
    by_cases hk : k = h
    · subst hk
      rw [Function.update_self, hL, Option.map_some, hfilter]
    · rw [Function.update_of_ne hk]
      cases hLk : L k with
      | none => rfl
      | some s =>
        have hxs : ∀ y ∈ s, y ≠ x := by
          rintro y hy rfl
          exact hs.disjoint k s h _ hLk hL hk (List.mem_cons_of_mem _ hy)
            (List.mem_cons_of_mem _ hx)
        rw [Option.map_some, List.filter_eq_self.mpr fun y hy => by simpa using hxs y hy]
  have hsub : ∀ y ∈ h :: (l₁ ++ l₂), y ∈ h :: (l₁ ++ x :: l₂) := by
    intro y hy
    simp only [List.mem_cons, List.mem_append] at hy ⊢
    rcases hy with hy | hy | hy
    · exact Or.inl hy
    · exact Or.inr (Or.inl hy)
    · exact Or.inr (Or.inr (Or.inr hy))
  refine ⟨m', e, ?_, fun y hy => ?_⟩
  · rw [heq]
    refine hs.editOne hr (fun k s hk hLk y hy => hf y fun hyl => ?_) fun k s hk hLk y hy hyk => ?_
    · exact hs.disjoint k s h _ hLk hL hk hy hyl
    · exact hs.disjoint h _ k s hL hLk hk.symm (hsub y hy) hyk
  · by_cases hyx : y = x
    · rw [hyx, hnode]
      exact Option.some_ne_none _
    · refine live_of_frame hr (fun hyl => hf y fun hmem => hyl ?_) hy
      simp only [List.mem_cons, List.mem_append] at hmem ⊢
      rcases hmem with hm | hm | hm | hm
      · exact Or.inl hm
      · exact Or.inr (Or.inl hm)
      · exact absurd hm hyx
      · exact Or.inr (Or.inr hm)

/-- The nodes of one list go into another one. -/
theorem spells_splice {t : List ρ} (hs : Spells m L) (hL : L h = some l) (hLg : L g = some r)
    (hne : h ≠ g) (hr : DRing m' h t) (hg : DRing m' g [])
    (hmem : ∀ y, y ∈ t ↔ y ∈ l ∨ y ∈ r)
    (hf : ∀ y, y ∉ h :: l → y ∉ g :: r → m' y = m y) :
    Spells m' (Function.update (Function.update L h (some t)) g (some [])) ∧
      ∀ y, m y ≠ none → m' y ≠ none := by
  have hsplit : ∀ y ∈ h :: t, y ∈ h :: l ∨ y ∈ r := by
    intro y hy
    rcases List.mem_cons.mp hy with rfl | hy
    · exact Or.inl List.mem_cons_self
    · exact ((hmem y).mp hy).imp_left (List.mem_cons_of_mem _)
  have hgt : g ∉ h :: t := by
    intro hgt
    rcases hsplit g hgt with hgl | hgr
    · exact hs.disjoint h l g r hL hLg hne hgl List.mem_cons_self
    · exact (hs.ring g r hLg).fwd.head_not_mem hgr
  refine ⟨hs.editTwo hne hr hg (fun y hy hyg => ?_) (fun k s hkh hkg hLk y hy => ?_)
    (fun k s hkh hkg hLk => ⟨fun y hy hyk => ?_, fun y hy hyk => ?_⟩), fun y hy => ?_⟩
  · obtain rfl := List.mem_singleton.mp hyg
    exact hgt hy
  · refine hf y (fun hyl => ?_) fun hyr => ?_
    · exact hs.disjoint k s h l hLk hL hkh hy hyl
    · exact hs.disjoint k s g r hLk hLg hkg hy hyr
  · rcases hsplit y hy with hyl | hyr
    · exact hs.disjoint k s h l hLk hL hkh hyk hyl
    · exact hs.disjoint k s g r hLk hLg hkg hyk (List.mem_cons_of_mem _ hyr)
  · obtain rfl := List.mem_singleton.mp hy
    exact hs.disjoint k s y r hLk hLg hkg hyk List.mem_cons_self
  · by_cases hyg : y = g
    · rw [hyg]
      exact hg.live List.mem_cons_self
    · refine live_of_frame hr (fun hyt => hf y (fun hyl => hyt ?_) fun hyr => hyt ?_) hy
      · rcases List.mem_cons.mp hyl with rfl | hyl
        · exact List.mem_cons_self
        · exact List.mem_cons_of_mem _ ((hmem y).mpr (Or.inl hyl))
      · have hyr := (List.mem_cons.mp hyr).resolve_left hyg
        exact List.mem_cons_of_mem _ ((hmem y).mpr (Or.inr hyr))

theorem splice_eq {f : List ρ → List ρ} (hL : L h = some l) (hLg : L g = some r) (hne : h ≠ g) :
    (L.edit h f).edit g (fun _ => []) =
      Function.update (Function.update L h (some (f l))) g (some []) := by
  have hg : L.edit h f g = some r := by rw [edit_eq hL, Function.update_of_ne hne.symm, hLg]
  rw [edit_eq hg, edit_eq hL]

variable {live : ρ → Prop} {op : ListOp ρ} {ops : List (ListOp ρ)}

theorem listOp_spec (hs : Spells m L) (hlive : ∀ y, live y → m y ≠ none)
    (ha : op.Allowed live L) :
    ∃ m', ListOp.exec m op = some m' ∧ Spells m' (ListOp.apply L op) ∧
      ∀ y, m y ≠ none → m' y ≠ none := by
  cases op with
  | init list => exact spells_init hs (hlive list ha.1) ha.2
  | add list head =>
    obtain ⟨hL, hl, hu⟩ := ha
    obtain ⟨l, hL⟩ := Option.isSome_iff_exists.mp hL
    obtain ⟨m', e, hr, hf⟩ := listAdd_spec (hs.ring list l hL) (hu list l hL) (hlive head hl)
    refine ⟨m', e, ?_⟩
    rw [ListOp.apply, edit_eq hL]
    exact spells_insert hs hL hu hr (fun y => List.mem_cons) hf
  | addTail list head =>
    obtain ⟨hL, hl, hu⟩ := ha
    obtain ⟨l, hL⟩ := Option.isSome_iff_exists.mp hL
    obtain ⟨m', e, hr, hf⟩ := listAddTail_spec (hs.ring list l hL) (hu list l hL) (hlive head hl)
    refine ⟨m', e, ?_⟩
    rw [ListOp.apply, edit_eq hL]
    exact spells_insert hs hL hu hr (fun y => by simp [or_comm]) hf
  | remove head =>
    obtain ⟨h, l, hL, hx⟩ := ha
    exact spells_remove hs hL hx
  | splice list «from» =>
    obtain ⟨hL, hLg, hne⟩ := ha
    obtain ⟨l, hL⟩ := Option.isSome_iff_exists.mp hL
    obtain ⟨r, hLg⟩ := Option.isSome_iff_exists.mp hLg
    obtain ⟨m', e, hr, hg, hf⟩ := listSplice_spec (hs.ring list l hL) (hs.ring «from» r hLg)
      fun y hy => hs.disjoint list l «from» r hL hLg hne hy
    refine ⟨m', e, ?_⟩
    rw [ListOp.apply, splice_eq hL hLg hne, hLg, Option.getD_some]
    exact spells_splice hs hL hLg hne hr hg (fun y => by simp [or_comm]) hf
  | spliceTail list «from» =>
    obtain ⟨hL, hLg, hne⟩ := ha
    obtain ⟨l, hL⟩ := Option.isSome_iff_exists.mp hL
    obtain ⟨r, hLg⟩ := Option.isSome_iff_exists.mp hLg
    obtain ⟨m', e, hr, hg, hf⟩ := listSpliceTail_spec (hs.ring list l hL) (hs.ring «from» r hLg)
      fun y hy => hs.disjoint list l «from» r hL hLg hne hy
    refine ⟨m', e, ?_⟩
    rw [ListOp.apply, splice_eq hL hLg hne, hLg, Option.getD_some]
    exact spells_splice hs hL hLg hne hr hg (fun y => by simp) hf

theorem run_listOps (hs : Spells m L) (hlive : ∀ y, live y → m y ≠ none)
    (ha : ListOp.AllAllowed live L ops) :
    ∃ m', Run.run ListOp.exec m ops = some m' ∧ Spells m' (ops.foldl ListOp.apply L) := by
  induction ops generalizing m L with
  | nil => exact ⟨m, rfl, hs⟩
  | cons op ops ih =>
    obtain ⟨m₁, e₁, h₁, l₁⟩ := listOp_spec hs hlive ha.1
    obtain ⟨m', e, h'⟩ := ih h₁ (fun y hy => l₁ y (hlive y hy)) (ha.2 _ rfl)
    refine ⟨m', ?_, h'⟩
    simpa only [Run.run, e₁, Option.bind_eq_bind, Option.bind_some] using e

/-! ## Loops that unlink and free -/

/-- What a loop body does to the node it visits. -/
inductive Disposal
  | keep
  | unlink
  | free
deriving DecidableEq

/-- `_hs_list_remove`, and `free` of the object. -/
def dispose (d : Disposal) (x : ρ) (m : Links ρ) : Option (Links ρ) :=
  match d with
  | .keep => some m
  | .unlink => hsListRemove m x
  | .free => do
    let m ← hsListRemove m x
    some (Function.update m x none)

/-- The node was taken off its list. -/
def Gone (log : List (ρ × Disposal)) (x : ρ) : Prop := ∃ d, (x, d) ∈ log ∧ d ≠ .keep

instance (log : List (ρ × Disposal)) (x : ρ) : Decidable (Gone log x) :=
  decidable_of_iff (∃ v ∈ log, v.1 = x ∧ v.2 ≠ .keep) <| by
    constructor
    · rintro ⟨v, hv, rfl, hd⟩
      exact ⟨v.2, hv, hd⟩
    · rintro ⟨d, hv, hd⟩
      exact ⟨(x, d), hv, rfl, hd⟩

/-- The sequences without the nodes that are gone. -/
def Sequences.without (L : Sequences ρ) (log : List (ρ × Disposal)) : Sequences ρ :=
  fun h => (L h).map fun l => l.filter fun x => ¬Gone log x

variable {log : List (ρ × Disposal)} {d : Disposal}

omit [DecidableEq ρ] in
theorem gone_snoc {y : ρ} : Gone (log ++ [(x, d)]) y ↔ Gone log y ∨ y = x ∧ d ≠ .keep := by
  unfold Gone
  constructor
  · rintro ⟨d', hm, hd⟩
    rcases List.mem_append.mp hm with hm | hm
    · exact Or.inl ⟨d', hm, hd⟩
    · cases List.mem_singleton.mp hm
      exact Or.inr ⟨rfl, hd⟩
  · rintro (⟨d', hm, hd⟩ | ⟨rfl, hd⟩)
    · exact ⟨d', List.mem_append_left _ hm, hd⟩
    · exact ⟨d, List.mem_append_right _ List.mem_cons_self, hd⟩

theorem sequences_without_nil (L : Sequences ρ) : L.without [] = L := by
  funext h
  have hgone (x : ρ) : ¬Gone [] x := fun ⟨_, hm, _⟩ => absurd hm List.not_mem_nil
  simp [Sequences.without, hgone]

theorem without_keep (L : Sequences ρ) (log : List (ρ × Disposal)) (x : ρ) :
    L.without (log ++ [(x, .keep)]) = L.without log := by
  funext h
  simp [Sequences.without, gone_snoc]

theorem without_gone (L : Sequences ρ) (log : List (ρ × Disposal)) (x : ρ) (hd : d ≠ .keep) :
    L.without (log ++ [(x, d)]) = fun h => (L.without log h).map fun l => l.filter (· ≠ x) := by
  funext h
  simp only [Sequences.without, Option.map_map]
  congr 1
  funext l
  rw [Function.comp_apply, List.filter_filter]
  refine List.filter_congr fun y _ => ?_
  simp [gone_snoc, hd, and_comm]

/-- A node in no list can be freed. -/
theorem spells_free (hs : Spells m L) (hu : Unlinked L x) :
    Spells (Function.update m x none) L where
  ring h l hL := (hs.ring h l hL).congr fun y hy => by
    refine Function.update_of_ne ?_ ..
    rintro rfl
    exact hu h l hL hy
  disjoint := hs.disjoint

/-- Disposing of a linked node. What was freed stays so. -/
theorem dispose_spec (hs : Spells m (L.without log)) (hL : L.without log h = some l) (hx : x ∈ l)
    (d : Disposal) :
    ∃ m', dispose d x m = some m' ∧ Spells m' (L.without (log ++ [(x, d)])) ∧
      (d = .free → m' x = none) ∧ ∀ y, m y = none → m' y = none := by
  cases d with
  | keep => exact ⟨m, rfl, by rwa [without_keep], nofun, fun _ hy => hy⟩
  | unlink =>
    obtain ⟨m', e, hs', -⟩ := spells_remove hs hL hx
    have hd : Disposal.unlink ≠ .keep := by decide
    exact ⟨m', e, by rwa [without_gone L log x hd], nofun, fun y => listRemove_none e⟩
  | free =>
    obtain ⟨m', e, hs', -⟩ := spells_remove hs hL hx
    have hd : Disposal.free ≠ .keep := by decide
    rw [← without_gone L log x hd] at hs'
    refine ⟨Function.update m' x none, ?_, spells_free hs' ?_, fun _ => Function.update_self ..,
      fun y hy => ?_⟩
    · simp only [dispose, e, Option.bind_eq_bind, Option.bind_some]
    · -- the node was not a head either
      intro k s hk hxs
      rw [without_gone L log x hd] at hk
      obtain ⟨t, ht, rfl⟩ := Option.map_eq_some_iff.mp hk
      rcases List.mem_cons.mp hxs with rfl | hxs
      · by_cases hxh : x = h
        · subst hxh
          exact (hs.ring x l hL).fwd.head_not_mem hx
        · exact hs.disjoint x t h l ht hL hxh List.mem_cons_self (List.mem_cons_of_mem _ hx)
      · simp at hxs
    · by_cases hyx : y = x
      · rw [hyx, Function.update_self]
      · rw [Function.update_of_ne hyx]
        exact listRemove_none e hy

/-- The loop has visited the nodes in front of `todo`. -/
structure AtNode (act : List (ρ × Disposal) → ρ → Disposal × Flow α) (L : Sequences ρ) (l : List ρ)
    (todo : List ρ) (s : Links ρ × List (ρ × Disposal)) : Prop where
  went : Went act s.2
  spells : Spells s.1 (L.without s.2)
  freed : ∀ x, (x, .free) ∈ s.2 → s.1 x = none
  split : s.2.map Prod.fst ++ todo = l

/-- What is still to visit is still in the list. -/
theorem without_todo {todo : List ρ} (hL : L h = some l) (hnd : l.Nodup)
    (hsplit : log.map Prod.fst ++ todo = l) :
    L.without log h = some ((log.map Prod.fst).filter (fun x => ¬Gone log x) ++ todo) := by
  have htodo : ∀ y ∈ todo, ¬Gone log y := by
    rintro y hy ⟨d, hm, -⟩
    rw [← hsplit] at hnd
    exact (List.nodup_append.mp hnd).2.2 y (List.mem_map_of_mem hm) y hy rfl
  have hfilter : (todo.filter fun x => ¬Gone log x) = todo :=
    List.filter_eq_self.mpr fun y hy => by simpa using htodo y hy
  rw [Sequences.without, hL, Option.map_some, ← hsplit, List.filter_append, hfilter]

theorem listForeach_visits (hs : Spells m L) (hL : L h = some l)
    (act : List (ρ × Disposal) → ρ → Disposal × Flow α) {fuel : Nat} (hfuel : l.length < fuel) :
    ∃ e s, hsListForeach Prod.fst h (visit act dispose) fuel (m, []) = some (e, s) ∧
      Traversed act l s.2 e.flow ∧ Spells s.1 (L.without s.2) ∧
      ∀ x, (x, .free) ∈ s.2 → s.1 x = none := by
  have hr := hs.ring h l hL
  have hnd : l.Nodup := (List.nodup_cons.mp hr.fwd.2).2
  have hstart : AtNode act L l l (m, []) :=
    ⟨.nil, by rwa [sequences_without_nil], fun _ hm => absurd hm List.not_mem_nil, rfl⟩
  refine listForeach_rule (I := AtNode act L l)
    (Q := fun e s => Traversed act l s.2 e.flow ∧ Spells s.1 (L.without s.2) ∧
      ∀ x, (x, .free) ∈ s.2 → s.1 x = none) ?_ ?_ ?_ hstart ?_ hfuel
  · intro todo s hI
    exact (hI.spells.ring h _ (without_todo hL hnd hI.split)).fwd.rest
  · -- a visit
    intro x todo s hI
    obtain ⟨m', hd, hs', hfree, hkept⟩ := dispose_spec hI.spells (without_todo hL hnd hI.split)
      (List.mem_append_right _ List.mem_cons_self) (act s.2 x).1
    have hfreed : ∀ y, (y, .free) ∈ s.2 ++ [(x, (act s.2 x).1)] → m' y = none := by
      intro y hy
      rcases List.mem_append.mp hy with hy | hy
      · exact hkept y (hI.freed y hy)
      · have heq := List.mem_singleton.mp hy
        rw [Prod.mk.injEq] at heq
        exact heq.1 ▸ hfree heq.2.symm
    refine ⟨_, _, visit_some hd, ?_⟩
    cases hf : (act s.2 x).2 with
    | next =>
      refine ⟨hI.went.snoc hf, hs', hfreed, ?_⟩
      rw [← hI.split]
      simp
    | brk => exact ⟨.left hI.went hI.split hf nofun, hs', hfreed⟩
    | ret a => exact ⟨.left hI.went hI.split hf nofun, hs', hfreed⟩
  · intro s hI
    have hall := hI.split
    rw [List.append_nil] at hall
    exact ⟨.all hI.went hall, hI.spells, hI.freed⟩
  · exact hr.fwd.head_next

/-! ## Lists after any calls -/

/-- What can be done with the list `h` of a memory that spells `L`. -/
structure UsableList (m : Links ρ) (L : Sequences ρ) (h : ρ) (l : List ρ) : Prop where
  inverse : ∀ x ∈ h :: l, ∀ y ∈ h :: l,
    nextOf m x = some (some y) ↔ prevOf m y = some (some x)
  isEmpty : hsListIsEmpty m h = some l.isEmpty
  foreach : ∀ {α : Type} (act : List (ρ × Disposal) → ρ → Disposal × Flow α) (fuel : Nat),
    l.length < fuel →
      ∃ e s, hsListForeach Prod.fst h (visit act dispose) fuel (m, []) = some (e, s) ∧
        Traversed act l s.2 e.flow ∧ Spells s.1 (L.without s.2) ∧
        (∀ x, (x, .free) ∈ s.2 → s.1 x = none) ∧
        ((∀ log x, (act log x).2 = .next) → s.2.map Prod.fst = l)

theorem Spells.usable (hs : Spells m L) (hL : L h = some l) : UsableList m L h l where
  inverse _ hx _ hy := (hs.ring h l hL).inverse hx hy
  isEmpty := listIsEmpty_spec (hs.ring h l hL)
  foreach act fuel hfuel := by
    obtain ⟨e, s, he, htr, hs', hfreed⟩ := listForeach_visits hs hL act hfuel
    exact ⟨e, s, he, htr, hs', hfreed, htr.all_of_always⟩

omit [DecidableEq ρ] in
theorem spells_none (m : Links ρ) : Spells m fun _ => none where
  ring _ _ hL := nomatch hL
  disjoint _ _ _ _ hL := nomatch hL

/-- After any calls the heads of the memory spell the sequences that the calls make, and each list
can be traversed while its nodes are unlinked and freed. -/
theorem lists_spelled (m : Links ρ)
    (ha : ListOp.AllAllowed (fun x => m x ≠ none) (fun _ => none) ops) :
    ∃ m', Run.run ListOp.exec m ops = some m' ∧ Spells m' (sequencesOf ops) ∧
      ∀ h l, sequencesOf ops h = some l → UsableList m' (sequencesOf ops) h l := by
  obtain ⟨m', e, hs⟩ := run_listOps (spells_none m) (fun _ hy => hy) ha
  exact ⟨m', e, hs, fun h l hL => Spells.usable hs hL⟩

omit [DecidableEq ρ] in
theorem unlinked_none (x : ρ) : Unlinked (fun _ => none) x := fun _ _ h => nomatch h

theorem unlinked_update (hu : Unlinked L x) (hx : x ∉ h :: l) :
    Unlinked (Function.update L h (some l)) x := by
  intro k s hk
  by_cases hkh : k = h
  · subst hkh
    rw [Function.update_self] at hk
    cases hk
    exact hx
  · rw [Function.update_of_ne hkh] at hk
    exact hu k s hk

/-- A node of one list goes to another one, and is removed there. -/
theorem lists_spelled_moved :
    ∃ m' : Links Nat, Run.run ListOp.exec (fun _ => some ⟨none, none⟩)
        [.init 0, .add 0 1, .init 2, .splice 2 0, .remove 1] = some m' ∧
      Spells m' (sequencesOf [.init 0, .add 0 1, .init 2, .splice 2 0, .remove 1]) ∧
      ∀ h l, sequencesOf [.init 0, .add 0 1, .init 2, .splice 2 0, .remove 1] h = some l →
        UsableList m' (sequencesOf [.init 0, .add 0 1, .init 2, .splice 2 0, .remove 1]) h l := by
  have hl : (some ⟨none, none⟩ : Option (Link Nat)) ≠ none := Option.some_ne_none _
  have h₁ := unlinked_update (unlinked_none 1) (h := 0) (l := []) (by decide)
  refine lists_spelled _ ⟨⟨hl, unlinked_none 0⟩, ?_⟩
  rintro _ ⟨⟩
  refine ⟨⟨rfl, hl, h₁⟩, ?_⟩
  rintro _ ⟨⟩
  refine ⟨⟨hl, ?_⟩, ?_⟩
  · exact unlinked_update (unlinked_update (unlinked_none 2) (by decide)) (by decide)
  rintro _ ⟨⟩
  refine ⟨⟨rfl, rfl, by decide⟩, ?_⟩
  rintro _ ⟨⟩
  exact ⟨⟨2, [1], rfl, by decide⟩, fun _ _ => trivial⟩

end Libhs
