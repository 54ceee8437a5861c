import Libhs.Lib.Walk
import Libhs.Basic
import Mathlib.Logic.Function.Basic

/-!
# `htable.c`: the chained hash table

A table is an array of head cells, each closing a circle of `_hs_htable_head`
nodes. A pointer into this structure is a head cell or a node (`HRef`); the key
field exists in nodes only. The operations fail on NULL, on nodes that are not
allocated and on cells outside of the array.

`hs_htable_foreach` and `hs_htable_foreach_hash` run an arbitrary loop body on a
program state that contains the table.
-/

namespace Libhs
open Pointer

/-- A `_hs_htable_head *`: the cell `&heads[i]`, or the node embedded in `n`. -/
inductive HRef (ν : Type)
  | cell (i : Nat)
  | node (n : ν)
deriving DecidableEq, Repr

/-- `struct _hs_htable_head` of an allocated object. -/
structure HNode (ν : Type) where
  next : Option (HRef ν)
  key : UInt32
deriving DecidableEq, Repr

/-- `struct _hs_htable`, together with the memory of the nodes. -/
structure HTable (ν : Type) where
  size : Nat
  heads : Nat → Option (HRef ν)
  nodes : ν → Option (HNode ν)

variable {ν : Type}

/-- The field `next` behind a pointer. -/
def HTable.next (t : HTable ν) : HRef ν → Option (Option (HRef ν))
  | .cell i => if i < t.size then some (t.heads i) else none
  | .node n => (t.nodes n).map HNode.next

/-- `_hs_htable_hash_str`. -/
def hsHtableHashStr (s : CStr) : UInt32 :=
  s.bytes.foldl (fun hash c => hash * 101 + c.toUInt32) 0

/-- `_hs_htable_get_head`; the division fails on an empty table. -/
def hsHtableGetHead (t : HTable ν) (key : UInt32) : Option (HRef ν) :=
  if t.size = 0 then none else some (.cell (key.toNat % t.size))

/-- `_hs_htable_clear`. -/
def hsHtableClear (t : HTable ν) : HTable ν :=
  { t with heads := fun i => if i < t.size then some (.cell i) else t.heads i }

/-- `_hs_htable_init`; `mallocOk` says whether the array could be allocated. -/
def hsHtableInit (t : HTable ν) (size : Nat) (mallocOk : Bool) : Int × HTable ν :=
  if mallocOk then (0, hsHtableClear { t with size := size, heads := fun _ => none })
  else (hsError .memory none, t)

/-- `_hs_htable_release`: the array is gone. -/
def hsHtableRelease (t : HTable ν) : HTable ν :=
  { t with size := 0, heads := fun _ => none }

variable [DecidableEq ν]

/-- `p->next = v`. -/
def HTable.setNext (t : HTable ν) (p : HRef ν) (v : Option (HRef ν)) : Option (HTable ν) :=
  match p with
  | .cell i => if i < t.size then some { t with heads := Function.update t.heads i v } else none
  | .node n => do
    let nd ← t.nodes n
    some { t with nodes := Function.update t.nodes n (some { nd with next := v }) }

/-- `n->key = key`. -/
def HTable.setKey (t : HTable ν) (n : ν) (key : UInt32) : Option (HTable ν) := do
  let nd ← t.nodes n
  some { t with nodes := Function.update t.nodes n (some { nd with key := key }) }

/-- `_hs_htable_add`. -/
def hsHtableAdd (t : HTable ν) (key : UInt32) (n : ν) : Option (HTable ν) := do
  let head ← hsHtableGetHead t key
  let t ← t.setKey n key
  let first ← t.next head
  let t ← t.setNext (.node n) first
  t.setNext head (some (.node n))

/-- `_hs_htable_insert`. -/
def hsHtableInsert (t : HTable ν) (prev n : ν) : Option (HTable ν) := do
  let p ← t.nodes prev
  let t ← t.setKey n p.key
  let p ← t.nodes prev
  let t ← t.setNext (.node n) p.next
  t.setNext (.node prev) (some (.node n))

/-- The loop of `_hs_htable_remove`: look for the node in front of `head`. -/
def hsHtableRemoveLoop (t : HTable ν) (head : ν) : Nat → Option (HRef ν) → Option (HTable ν)
  | 0, _ => none
  | fuel + 1, prev =>
    if prev = some (.node head) then some t
    else do
      let p ← prev
      let next ← t.next p
      if next = some (.node head) then
        let after ← t.next (.node head)
        let t ← t.setNext p after
        t.setNext (.node head) none
      else
        hsHtableRemoveLoop t head fuel next

/-- `_hs_htable_remove`, following at most `fuel` pointers. -/
def hsHtableRemove (fuel : Nat) (t : HTable ν) (head : ν) : Option (HTable ν) := do
  let prev ← t.next (.node head)
  hsHtableRemoveLoop t head fuel prev

/-! ## The loop macros -/

variable {σ α : Type}

/-- A loop body on a cursor: the cursor stands at nodes, never at a head cell. -/
def onNode (body : ν → σ → Option (Flow α × σ)) : HRef ν → σ → Option (Flow α × σ)
  | .cell _, _ => none
  | .node n, s => body n s

/-- The outer loop of `hs_htable_foreach` from the cell `i` on, with `n` cells left and the cursor
at `cur`. After a `break` the cursor is not at the head cell, which ends this loop too. -/
def hsHtableForeachFrom (table : σ → HTable ν) (body : ν → σ → Option (Flow α × σ)) (fuel : Nat) :
    Nat → Nat → Option (HRef ν) → σ → Option (Option α × σ)
  | 0, _, _, s => some (none, s)
  | n + 1, i, cur, s =>
    if cur = some (.cell i) then do
      let (e, s) ← foreach (fun s => (table s).next) (.cell i) (onNode body) fuel s
      match e with
      | .fell => hsHtableForeachFrom table body fuel n (i + 1) (some (.cell (i + 1))) s
      | .brk _ => hsHtableForeachFrom table body fuel n (i + 1) none s
      | .ret a => some (some a, s)
    else some (none, s)

/-- `hs_htable_foreach`; `some a` when the body returned `a` out of the calling function. -/
def hsHtableForeach (table : σ → HTable ν) (body : ν → σ → Option (Flow α × σ)) (fuel : Nat)
    (s : σ) : Option (Option α × σ) :=
  hsHtableForeachFrom table body fuel (table s).size 0 (some (.cell 0)) s

/-- The body of `hs_htable_foreach_hash`, behind its test `if (cur->key == (k))`. -/
def ifKey (table : σ → HTable ν) (k : UInt32) (body : ν → σ → Option (Flow α × σ)) (n : ν)
    (s : σ) : Option (Flow α × σ) := do
  let nd ← (table s).nodes n
  if nd.key = k then body n s else some (.next, s)

/-- `hs_htable_foreach_hash`. -/
def hsHtableForeachHash (table : σ → HTable ν) (k : UInt32)
    (body : ν → σ → Option (Flow α × σ)) (fuel : Nat) (s : σ) : Option (Exit (HRef ν) α × σ) :=
  if (table s).size = 0 then some (.fell, s)
  else do
    let head ← hsHtableGetHead (table s) k
    foreach (fun s => (table s).next) head (onNode (ifKey table k body)) fuel s

/-! ## Edits of the circles -/

variable {t : HTable ν} {B : Nat → List ν} {n p : ν} {i : Nat} {l l₁ l₂ : List ν}

omit [DecidableEq ν] in
/-- The key field of an allocated node. -/
def HTable.keyOf (t : HTable ν) (n : ν) : Option UInt32 := (t.nodes n).map HNode.key

omit [DecidableEq ν] in
theorem HTable.keyOf_some {nd : HNode ν} (h : t.nodes n = some nd) : t.keyOf n = some nd.key := by
  rw [HTable.keyOf, h]; rfl

omit [DecidableEq ν] in
theorem HTable.next_node_ne_none : t.next (.node n) ≠ none ↔ t.keyOf n ≠ none := by
  simp [HTable.next, HTable.keyOf]

theorem setNext_some {p : HRef ν} (v : Option (HRef ν)) (hp : t.next p ≠ none) :
    ∃ t', t.setNext p v = some t' ∧ t'.next = Function.update t.next p (some v) ∧
      t'.size = t.size ∧ t'.keyOf = t.keyOf := by
  cases p with
  | cell i =>
    have hi : i < t.size := by
      by_contra hi
      simp [HTable.next, hi] at hp
    refine ⟨{ t with heads := Function.update t.heads i v }, by simp [HTable.setNext, hi],
      ?_, rfl, rfl⟩
    funext q
    by_cases hq : q = .cell i
    · subst hq; simp [HTable.next, hi]
    · rw [Function.update_of_ne hq]
      cases q with
      | cell j =>
        have hj : j ≠ i := fun hj => hq (hj ▸ rfl)
        simp [HTable.next, hj]
      | node m => rfl
  | node n =>
    obtain ⟨nd, hnd⟩ : ∃ nd, t.nodes n = some nd := by
      rw [← Option.ne_none_iff_exists']
      simpa [HTable.next] using hp
    refine ⟨{ t with nodes := Function.update t.nodes n (some { nd with next := v }) },
      by simp [HTable.setNext, hnd], ?_, rfl, ?_⟩
    · funext q
      by_cases hq : q = .node n
      · subst hq; simp [HTable.next]
      · rw [Function.update_of_ne hq]
        cases q with
        | cell j => rfl
        | node m =>
          have hm : m ≠ n := fun hm => hq (hm ▸ rfl)
          simp [HTable.next, hm]
    · funext m
      by_cases hm : m = n
      · subst hm; simp [HTable.keyOf, hnd]
      · simp [HTable.keyOf, hm]

theorem setKey_some (key : UInt32) (hn : t.keyOf n ≠ none) :
    ∃ t', t.setKey n key = some t' ∧ t'.next = t.next ∧ t'.size = t.size ∧
      t'.keyOf = Function.update t.keyOf n (some key) := by
  obtain ⟨nd, hnd⟩ : ∃ nd, t.nodes n = some nd := by
    rw [← Option.ne_none_iff_exists']
    simpa [HTable.keyOf] using hn
  refine ⟨{ t with nodes := Function.update t.nodes n (some { nd with key := key }) },
    by simp [HTable.setKey, hnd], ?_, rfl, ?_⟩
  · funext q
    cases q with
    | cell j => rfl
    | node m =>
      by_cases hm : m = n
      · subst hm; simp [HTable.next, hnd]
      · simp [HTable.next, hm]
  · funext m
    by_cases hm : m = n
    · subst hm; simp [HTable.keyOf]
    · rw [Function.update_of_ne hm]
      simp [HTable.keyOf, hm]

omit [DecidableEq ν] in
theorem node_injective : Function.Injective (HRef.node : ν → HRef ν) := fun _ _ h => by
  cases h; rfl

omit [DecidableEq ν] in
theorem node_mem_map : HRef.node n ∈ l.map HRef.node ↔ n ∈ l :=
  List.mem_map_of_injective node_injective

/-- `_hs_htable_add` puts the node in front of its bucket. -/
theorem htableAdd_spec {key : UInt32} (hi : key.toNat % t.size = i) (hs : 0 < t.size)
    (hr : Ring t.next (.cell i) (l.map .node)) (hn : n ∉ l) (hl : t.keyOf n ≠ none) :
    ∃ t', hsHtableAdd t key n = some t' ∧ t'.size = t.size ∧
      Ring t'.next (.cell i) ((n :: l).map .node) ∧
      t'.keyOf = Function.update t.keyOf n (some key) ∧
      ∀ p, p ≠ .cell i → p ≠ .node n → t'.next p = t.next p := by
  have hh := hr.head_next
  obtain ⟨t₁, e₁, n₁, s₁, k₁⟩ := setKey_some key hl
  obtain ⟨t₂, e₂, n₂, s₂, k₂⟩ :=
    setNext_some (t := t₁) (p := .node n) (some (firstOr (.cell i) (l.map .node))) (by
      rw [HTable.next_node_ne_none, k₁]; simp)
  obtain ⟨t₃, e₃, n₃, s₃, k₃⟩ :=
    setNext_some (t := t₂) (p := .cell i) (some (.node n)) (by rw [n₂, n₁]; simp [hh])
  refine ⟨t₃, ?_, by rw [s₃, s₂, s₁], ?_, by rw [k₃, k₂, k₁], ?_⟩
  · have hhead : hsHtableGetHead t key = some (.cell i) := by
      simp [hsHtableGetHead, Nat.ne_of_gt hs, hi]
    simp only [hsHtableAdd, hhead, Option.bind_eq_bind, Option.bind_some, e₁, n₁, hh, e₂, e₃]
  · have hx : (HRef.node n : HRef ν) ∉ .cell i :: ([] ++ l.map .node) := by
      simpa using hn
    have hr₀ : Ring t.next (.cell i) ([] ++ l.map .node) := hr
    refine hr₀.link hx ?_ ?_ ?_
    · rw [n₃, lastOr_nil, Function.update_self]
    · rw [n₃, Function.update_of_ne (by simp), n₂, Function.update_self]
    · intro y hy hyn
      rw [lastOr_nil] at hy
      rw [n₃, Function.update_of_ne hy, n₂, Function.update_of_ne hyn, n₁]
  · intro p hp hpn
    rw [n₃, Function.update_of_ne hp, n₂, Function.update_of_ne hpn, n₁]

/-- `_hs_htable_insert` puts the node behind `p`, with the key of `p`. -/
theorem htableInsert_spec (hr : Ring t.next (.cell i) ((l₁ ++ p :: l₂).map .node))
    (hn : n ∉ l₁ ++ p :: l₂) (hl : t.keyOf n ≠ none) :
    ∃ t', hsHtableInsert t p n = some t' ∧ t'.size = t.size ∧
      Ring t'.next (.cell i) ((l₁ ++ p :: n :: l₂).map .node) ∧
      t'.keyOf = Function.update t.keyOf n (t.keyOf p) ∧
      ∀ q, q ≠ .node p → q ≠ .node n → t'.next q = t.next q := by
  have hpn : p ≠ n := by
    rintro rfl
    simp at hn
  have hnext : t.next (.node p) = some (some (firstOr (.cell i) (l₂.map .node))) := by
    have hc := hr.1
    rw [List.map_append, List.map_cons, ← List.cons_append, chain_append] at hc
    exact hc.2.1
  obtain ⟨nd, hnd, hfirst⟩ := Option.map_eq_some_iff.mp hnext
  obtain ⟨t₁, e₁, n₁, s₁, k₁⟩ := setKey_some nd.key hl
  have hnext₁ := hnext
  rw [← n₁] at hnext₁
  obtain ⟨nd₁, hnd₁, hfirst₁⟩ := Option.map_eq_some_iff.mp hnext₁
  obtain ⟨t₂, e₂, n₂, s₂, k₂⟩ :=
    setNext_some (t := t₁) (p := .node n) (some (firstOr (.cell i) (l₂.map .node))) (by
      rw [HTable.next_node_ne_none, k₁]; simp)
  obtain ⟨t₃, e₃, n₃, s₃, k₃⟩ := setNext_some (t := t₂) (p := .node p) (some (.node n)) (by
    rw [n₂, Function.update_of_ne (fun h => hpn (node_injective h)), n₁, hnext]; simp)
  refine ⟨t₃, ?_, by rw [s₃, s₂, s₁], ?_, ?_, ?_⟩
  · simp only [hsHtableInsert, hnd, Option.bind_eq_bind, Option.bind_some, e₁, hnd₁, hfirst₁, e₂,
      e₃]
  · have hx : (HRef.node n : HRef ν) ∉ .cell i :: ((l₁ ++ [p]).map .node ++ l₂.map .node) := by
      rw [← List.map_append, List.append_assoc, List.singleton_append]
      simpa only [List.mem_cons, reduceCtorEq, node_mem_map, false_or] using hn
    have hr₀ : Ring t.next (.cell i) ((l₁ ++ [p]).map .node ++ l₂.map .node) := by
      rwa [← List.map_append, List.append_assoc]
    have hlast : lastOr (.cell i) ((l₁ ++ [p]).map .node) = HRef.node p := by simp
    have hlinked : (l₁ ++ p :: n :: l₂).map HRef.node =
        (l₁ ++ [p]).map .node ++ .node n :: l₂.map .node := by simp
    rw [hlinked]
    refine hr₀.link hx ?_ ?_ ?_
    · rw [n₃, hlast, Function.update_self]
    · rw [n₃, Function.update_of_ne (fun h => hpn (node_injective h).symm), n₂,
        Function.update_self]
    · intro y hy hyn
      rw [hlast] at hy
      rw [n₃, Function.update_of_ne hy, n₂, Function.update_of_ne hyn, n₁]
  · rw [k₃, k₂, k₁, HTable.keyOf_some hnd]
  · intro q hq hqn
    rw [n₃, Function.update_of_ne hq, n₂, Function.update_of_ne hqn, n₁]

/-- The search of `_hs_htable_remove` along the nodes `path` that lead back to `n`. -/
theorem removeLoop_spec {path : List (HRef ν)} {fuel : Nat} (hc : Chain t.next path (.node n))
    (hn : HRef.node n ∉ path) (hne : path ≠ []) (hl : t.keyOf n ≠ none)
    (hfuel : path.length ≤ fuel) :
    ∃ t', hsHtableRemoveLoop t n fuel (some (firstOr (.node n) path)) = some t' ∧
      t'.size = t.size ∧ t'.keyOf = t.keyOf ∧
      t'.next = Function.update (Function.update t.next (lastOr (.node n) path)
        (t.next (.node n))) (.node n) (some none) := by
  induction path generalizing fuel with
  | nil => exact absurd rfl hne
  | cons p path ih =>
    obtain ⟨fuel, rfl⟩ : ∃ f, fuel = f + 1 := ⟨fuel - 1, by simp at hfuel; omega⟩
    have hpn : p ≠ .node n := fun he => hn (he ▸ List.mem_cons_self)
    cases path with
    | nil =>
      obtain ⟨after, hafter⟩ := Option.ne_none_iff_exists'.mp (HTable.next_node_ne_none.mpr hl)
      obtain ⟨t₁, e₁, n₁, s₁, k₁⟩ := setNext_some (t := t) (p := p) after (by rw [hc.1]; simp)
      obtain ⟨t₂, e₂, n₂, s₂, k₂⟩ := setNext_some (t := t₁) (p := .node n) none (by
        rw [HTable.next_node_ne_none, k₁]; exact hl)
      have hnext : t.next p = some (some (.node n)) := hc.1
      refine ⟨t₂, ?_, by rw [s₂, s₁], by rw [k₂, k₁], ?_⟩
      · simp only [hsHtableRemoveLoop, firstOr_cons, Option.some.injEq, hpn, ↓reduceIte,
          Option.bind_eq_bind, Option.bind_some, hnext, hafter, e₁, e₂]
      · rw [n₂, n₁, hafter]
        rfl
    | cons q path =>
      have hq : q ≠ .node n := by
        rintro rfl
        exact hn (by simp)
      obtain ⟨t', e, hs, hk, hx⟩ := ih hc.2 (fun hm => hn (List.mem_cons_of_mem _ hm))
        (List.cons_ne_nil _ _) (by simpa using hfuel)
      have hnext : t.next p = some (some q) := hc.1
      refine ⟨t', ?_, hs, hk, hx⟩
      simpa only [hsHtableRemoveLoop, firstOr_cons, Option.some.injEq, hpn, ↓reduceIte,
        Option.bind_eq_bind, Option.bind_some, hnext, hq] using e

/-- `_hs_htable_remove` unlinks exactly its node, and stops. -/
theorem htableRemove_spec {fuel : Nat} (hr : Ring t.next (.cell i) ((l₁ ++ n :: l₂).map .node))
    (hfuel : l₁.length + l₂.length < fuel) :
    ∃ t', hsHtableRemove fuel t n = some t' ∧ t'.size = t.size ∧
      Ring t'.next (.cell i) ((l₁ ++ l₂).map .node) ∧ t'.keyOf = t.keyOf ∧
      ∀ p, p ≠ lastOr (.cell i) (l₁.map .node) → p ≠ .node n → t'.next p = t.next p := by
  have hr0 := hr
  rw [List.map_append, List.map_cons] at hr
  have hc := hr.1
  have hnd := hr.2
  rw [← List.cons_append, chain_append] at hc
  obtain ⟨hfront, hnext, hback⟩ := hc
  have hl : t.keyOf n ≠ none := by
    rw [← HTable.next_node_ne_none, hnext]
    simp
  -- the way from `n` back to `n` around its circle
  have hpath : Chain t.next (l₂.map .node ++ .cell i :: l₁.map .node) (.node n) :=
    chain_append.mpr ⟨hback, hfront⟩
  have hnp : HRef.node n ∉ l₂.map HRef.node ++ .cell i :: l₁.map HRef.node := by
    simp only [List.nodup_cons, List.nodup_append, List.mem_append, List.mem_cons, node_mem_map,
      not_or] at hnd ⊢
    refine ⟨hnd.2.2.1.1, by simp, fun hm => ?_⟩
    exact hnd.2.2.2 _ (node_mem_map.mpr hm) _ (Or.inl rfl) rfl
  have hlen : (l₂.map HRef.node ++ .cell i :: l₁.map HRef.node).length ≤ fuel := by
    simp
    omega
  obtain ⟨t', e, hs, hk, hx⟩ := removeLoop_spec hpath hnp (by simp) hl hlen
  rw [lastOr_append, lastOr_cons] at hx
  have hpn : lastOr (.cell i) (l₁.map .node) ≠ HRef.node n := by
    intro he
    have := lastOr_mem (.cell i) (l₁.map HRef.node)
    rw [he] at this
    exact hnp (List.mem_append_right _ this)
  refine ⟨t', ?_, hs, ?_, hk, ?_⟩
  · simp only [hsHtableRemove, hnext, Option.bind_eq_bind, Option.bind_some]
    simpa using e
  · rw [List.map_append]
    refine hr.unlink ?_ ?_
    · rw [hx, Function.update_of_ne hpn, Function.update_self]
    · intro y hy hyn
      rw [hx, Function.update_of_ne hyn, Function.update_of_ne hy]
  · intro p hp hpn
    rw [hx, Function.update_of_ne hpn, Function.update_of_ne hp]

/-! ## The table as buckets -/

/-- The table `t` holds the buckets `B`: each cell closes the circle of its bucket, and a node
with key `k` is in bucket `k % size`. -/
structure Buckets (t : HTable ν) (B : Nat → List ν) : Prop where
  pos : 0 < t.size
  ring : ∀ i, i < t.size → Ring t.next (.cell i) ((B i).map .node)
  home : ∀ i, ∀ n ∈ B i, ∃ k, t.keyOf n = some k ∧ k.toNat % t.size = i

omit [DecidableEq ν] in
theorem Buckets.lt (hb : Buckets t B) (hn : n ∈ B i) : i < t.size := by
  obtain ⟨k, -, hk⟩ := hb.home i n hn
  rw [← hk]
  exact Nat.mod_lt _ hb.pos

omit [DecidableEq ν] in
theorem Buckets.index_eq (hb : Buckets t B) {j : Nat} (hi : n ∈ B i) (hj : n ∈ B j) : i = j := by
  obtain ⟨k, hk, rfl⟩ := hb.home i n hi
  obtain ⟨k', hk', rfl⟩ := hb.home j n hj
  rw [hk] at hk'
  cases hk'
  rfl

omit [DecidableEq ν] in
theorem Buckets.nodup (hb : Buckets t B) (i : Nat) : (B i).Nodup := by
  by_cases hi : i < t.size
  · exact List.Nodup.of_map _ (hb.ring i hi).nodup
  · cases h : B i with
    | nil => exact List.nodup_nil
    | cons n l => exact absurd (hb.lt (n := n) (by rw [h]; exact List.mem_cons_self)) hi

omit [DecidableEq ν] in
/-- The buckets are read off the cells and the linked nodes only. -/
theorem Buckets.congr {t' : HTable ν} (hb : Buckets t B) (hs : t'.size = t.size)
    (hcell : ∀ i, t'.next (.cell i) = t.next (.cell i))
    (hnode : ∀ i, ∀ n ∈ B i, t'.nodes n = t.nodes n) : Buckets t' B := by
  refine ⟨by rw [hs]; exact hb.pos, fun i hi => ?_, fun i n hn => ?_⟩
  · refine (hb.ring i (by rwa [hs] at hi)).congr fun y hy => ?_
    rcases List.mem_cons.mp hy with rfl | hy
    · exact hcell i
    · obtain ⟨n, hn, rfl⟩ := List.mem_map.mp hy
      simp only [HTable.next, hnode i n hn]
  · rw [HTable.keyOf, hnode i n hn, hs]
    exact hb.home i n hn

omit [DecidableEq ν] in
theorem buckets_clear (hs : 0 < t.size) : Buckets (hsHtableClear t) fun _ => [] := by
  refine ⟨hs, fun i hi => ring_nil_iff.mpr ?_, fun i n hn => absurd hn List.not_mem_nil⟩
  have hi' : i < t.size := hi
  simp [HTable.next, hsHtableClear, hi']

omit [DecidableEq ν] in
/-- The circles of two cells have no pointer in common. -/
theorem Buckets.apart (hb : Buckets t B) {j : Nat} (hji : j ≠ i) {y z : HRef ν}
    (hy : y ∈ .cell j :: (B j).map .node) (hz : z ∈ .cell i :: (B i).map .node) : y ≠ z := by
  rintro rfl
  rcases List.mem_cons.mp hy with rfl | hy
  · simp only [List.mem_cons, HRef.cell.injEq, List.mem_map, reduceCtorEq, and_false,
      exists_false, or_false] at hz
    exact hji hz
  · obtain ⟨m, hm, rfl⟩ := List.mem_map.mp hy
    simp only [List.mem_cons, reduceCtorEq, node_mem_map, false_or] at hz
    exact hji (hb.index_eq hm hz)

omit [DecidableEq ν] in
/-- An edit of the circle of one cell. -/
theorem Buckets.edit {t' : HTable ν} (hb : Buckets t B) (hi : i < t.size) (hs : t'.size = t.size)
    (hr : Ring t'.next (.cell i) (l.map .node))
    (hhome : ∀ m ∈ l, ∃ k, t'.keyOf m = some k ∧ k.toNat % t.size = i)
    (hnext : ∀ j, j ≠ i → ∀ y ∈ HRef.cell j :: (B j).map .node, t'.next y = t.next y)
    (hkey : ∀ j, j ≠ i → ∀ m ∈ B j, t'.keyOf m = t.keyOf m) :
    Buckets t' (Function.update B i l) := by
  refine ⟨by rw [hs]; exact hb.pos, fun j hj => ?_, fun j m hm => ?_⟩
  · by_cases hji : j = i
    · subst hji
      rwa [Function.update_self]
    · rw [Function.update_of_ne hji]
      exact (hb.ring j (by rwa [hs] at hj)).congr (hnext j hji)
  · rw [hs]
    by_cases hji : j = i
    · subst hji
      rw [Function.update_self] at hm
      exact hhome m hm
    · rw [Function.update_of_ne hji] at hm
      rw [hkey j hji m hm]
      exact hb.home j m hm

theorem buckets_add (hb : Buckets t B) {key : UInt32} (hi : key.toNat % t.size = i)
    (hn : ∀ j, n ∉ B j) (hl : t.keyOf n ≠ none) :
    ∃ t', hsHtableAdd t key n = some t' ∧ t'.size = t.size ∧
      Buckets t' (Function.update B i (n :: B i)) ∧
      t'.keyOf = Function.update t.keyOf n (some key) := by
  have hlt : i < t.size := by
    rw [← hi]
    exact Nat.mod_lt _ hb.pos
  have hout {j : Nat} {m : ν} (hm : m ∈ B j) : m ≠ n := fun he => hn j (he ▸ hm)
  obtain ⟨t', e, hs, hr, hk, hf⟩ := htableAdd_spec hi hb.pos (hb.ring i hlt) (hn i) hl
  refine ⟨t', e, hs, hb.edit hlt hs hr (fun m hm => ?_) (fun j hji y hy => hf y ?_ ?_)
    (fun j _ m hm => ?_), hk⟩
  · rw [hk]
    rcases List.mem_cons.mp hm with rfl | hm
    · exact ⟨key, Function.update_self .., hi⟩
    · rw [Function.update_of_ne (hout hm)]
      exact hb.home i m hm
  · exact hb.apart hji hy List.mem_cons_self
  · rintro rfl
    simp only [List.mem_cons, reduceCtorEq, node_mem_map, false_or] at hy
    exact hn j hy
  · rw [hk, Function.update_of_ne (hout hm)]

/-- Inserting a node behind a linked one, under its key. -/
theorem buckets_insert (hb : Buckets t B) (hB : B i = l₁ ++ p :: l₂) (hn : ∀ j, n ∉ B j)
    (hl : t.keyOf n ≠ none) :
    ∃ t', hsHtableInsert t p n = some t' ∧ t'.size = t.size ∧
      Buckets t' (Function.update B i (l₁ ++ p :: n :: l₂)) ∧
      t'.keyOf = Function.update t.keyOf n (t.keyOf p) := by
  have hp : p ∈ B i := by rw [hB]; simp
  have hlt : i < t.size := hb.lt hp
  have hout {j : Nat} {m : ν} (hm : m ∈ B j) : m ≠ n := fun he => hn j (he ▸ hm)
  have hr := hb.ring i hlt
  rw [hB] at hr
  obtain ⟨t', e, hs, hr', hk, hf⟩ := htableInsert_spec hr (by rw [← hB]; exact hn i) hl
  refine ⟨t', e, hs, hb.edit hlt hs hr' (fun m hm => ?_) (fun j hji y hy => hf y ?_ ?_)
    (fun j _ m hm => ?_), hk⟩
  · rw [hk]
    by_cases hmn : m = n
    · subst hmn
      rw [Function.update_self]
      exact hb.home i p hp
    · rw [Function.update_of_ne hmn]
      refine hb.home i m ?_
      rw [hB]
      simpa [hmn] using hm
  · exact hb.apart hji hy (List.mem_cons_of_mem _ (node_mem_map.mpr hp))
  · rintro rfl
    simp only [List.mem_cons, reduceCtorEq, node_mem_map, false_or] at hy
    exact hn j hy
  · rw [hk, Function.update_of_ne (hout hm)]

/-- Removing a linked node. The nodes behind it keep their pointers, so a loop that already read
the next one can go on. -/
theorem buckets_remove (hb : Buckets t B) (hB : B i = l₁ ++ n :: l₂) {fuel : Nat}
    (hfuel : (B i).length ≤ fuel) :
    ∃ t', hsHtableRemove fuel t n = some t' ∧ t'.size = t.size ∧
      Buckets t' (Function.update B i (l₁ ++ l₂)) ∧ t'.keyOf = t.keyOf := by
  have hn : n ∈ B i := by rw [hB]; simp
  have hlt : i < t.size := hb.lt hn
  have hr := hb.ring i hlt
  rw [hB] at hr
  have hlen : l₁.length + l₂.length < fuel := by
    rw [hB] at hfuel
    simp at hfuel
    omega
  obtain ⟨t', e, hs, hr', hk, hf⟩ := htableRemove_spec hr hlen
  have hlast : lastOr (.cell i) (l₁.map HRef.node) ∈ HRef.cell i :: (B i).map HRef.node := by
    rw [hB, List.map_append, split_at_last]
    simp
  refine ⟨t', e, hs, hb.edit hlt hs hr' (fun m hm => ?_) (fun j hji y hy => hf y ?_ ?_)
    (fun j _ m _ => by rw [hk]), hk⟩
  · rw [hk]
    refine hb.home i m ?_
    rw [hB]
    rcases List.mem_append.mp hm with hm | hm
    · exact List.mem_append_left _ hm
    · exact List.mem_append_right _ (List.mem_cons_of_mem _ hm)
  · exact hb.apart hji hy hlast
  · exact hb.apart hji hy (List.mem_cons_of_mem _ (node_mem_map.mpr hn))

/-! ## Rules of the loop macros -/

variable {table : σ → HTable ν} {body : ν → σ → Option (Flow α × σ)} {fuel : Nat} {s : σ}

/-- `hs_htable_foreach_hash` visits the nodes of one bucket and skips foreign keys. -/
theorem htableForeachHash_rule {I : List ν → σ → Prop} {Q : Exit (HRef ν) α → σ → Prop}
    {k : UInt32} (hpos : 0 < (table s).size) (hi : k.toNat % (table s).size = i)
    (hrest : ∀ l s, I l s → Rest (fun s => (table s).next) (.cell i) (l.map .node) s)
    (hskip : ∀ x l s, I (x :: l) s → (table s).keyOf x ≠ some k → I l s)
    (hstep : ∀ x l s, I (x :: l) s → (table s).keyOf x = some k →
      ∃ f s', body x s = some (f, s') ∧
        match f with
        | .next => I l s'
        | .brk => Q (.brk (.node x)) s'
        | .ret a => Q (.ret a) s')
    (hdone : ∀ s, I [] s → Q .fell s) (hI : I l s)
    (hstart : (table s).next (.cell i) = some (some (firstOr (.cell i) (l.map .node))))
    (hfuel : l.length < fuel) :
    ∃ e s', hsHtableForeachHash table k body fuel s = some (e, s') ∧ Q e s' := by
  have hhead : hsHtableGetHead (table s) k = some (.cell i) := by
    simp [hsHtableGetHead, Nat.ne_of_gt hpos, hi]
  obtain ⟨e, s', he, hq⟩ : ∃ e s', foreach (fun s => (table s).next) (HRef.cell i)
      (onNode (ifKey table k body)) fuel s = some (e, s') ∧ Q e s' :=
    foreach_rule (I := fun L s => ∃ l, L = l.map HRef.node ∧ I l s)
    (by rintro L s ⟨l, rfl, hl⟩; exact hrest l s hl)
    (by
      rintro y L s ⟨l, hL, hl⟩
      cases l with
      | nil => cases hL
      | cons x l =>
        rw [List.map_cons, List.cons.injEq] at hL
        obtain ⟨rfl, rfl⟩ := hL
        obtain ⟨v, hv⟩ := (hrest _ _ hl).1.live (x := HRef.node x) (by simp)
        obtain ⟨nd, hnd⟩ : ∃ nd, (table s).nodes x = some nd := by
          rw [← Option.ne_none_iff_exists']
          intro hn
          simp [HTable.next, hn] at hv
        have hkey := HTable.keyOf_some hnd
        -- nodes with other hashes share the bucket
        by_cases hk : nd.key = k
        · obtain ⟨f, s', hb, hf⟩ := hstep x l s hl (by rw [hkey, hk])
          refine ⟨f, s', by simp [onNode, ifKey, hnd, hk, hb], ?_⟩
          cases f with
          | next => exact ⟨l, rfl, hf⟩
          | brk => exact hf
          | ret a => exact hf
        · refine ⟨.next, s, by simp [onNode, ifKey, hnd, hk], ⟨l, rfl, ?_⟩⟩
          exact hskip x l s hl (by rw [hkey]; simpa using hk))
    (by
      rintro s ⟨l, hl, hI⟩
      cases l with
      | nil => exact hdone s hI
      | cons x l => cases hl)
    ⟨l, rfl, hI⟩ hstart (by simpa using hfuel)
  refine ⟨e, s', ?_, hq⟩
  simp only [hsHtableForeachHash, Nat.ne_of_gt hpos, ↓reduceIte, hhead, Option.bind_eq_bind,
    Option.bind_some]
  exact he

/-- `hs_htable_foreach` visits the buckets in order. `J i` holds in front of cell `i`. -/
theorem htableForeach_rule {J : Nat → σ → Prop} {I : Nat → List ν → σ → Prop}
    {Q : Option α → σ → Prop} {N : Nat}
    (henter : ∀ i s, i < N → J i s → ∃ l, I i l s ∧ l.length < fuel ∧
      (table s).next (.cell i) = some (some (firstOr (.cell i) (l.map .node))))
    (hrest : ∀ i l s, I i l s → Rest (fun s => (table s).next) (.cell i) (l.map .node) s)
    (hstep : ∀ i x l s, I i (x :: l) s → ∃ f s', body x s = some (f, s') ∧
      match f with
      | .next => I i l s'
      | .brk => Q none s'
      | .ret a => Q (some a) s')
    (hleave : ∀ i s, I i [] s → J (i + 1) s)
    (hdone : ∀ s, J N s → Q none s) (h0 : J 0 s) (hN : (table s).size = N) :
    ∃ r s', hsHtableForeach table body fuel s = some (r, s') ∧ Q r s' := by
  -- by induction on the number of cells that are left
  have key : ∀ n i s, i + n = N → J i s →
      ∃ r s', hsHtableForeachFrom table body fuel n i (some (.cell i)) s = some (r, s') ∧
        Q r s' := by
    intro n
    induction n with
    | zero =>
      intro i s hi hJ
      have hiN : i = N := by omega
      subst hiN
      exact ⟨none, s, rfl, hdone s hJ⟩
    | succ n ih =>
      intro i s hi hJ
      obtain ⟨l, hI, hlen, hstart⟩ := henter i s (by omega) hJ
      obtain ⟨e, s', he, hq⟩ : ∃ e s', foreach (fun s => (table s).next) (HRef.cell i)
          (onNode body) fuel s = some (e, s') ∧
          match e with
          | .fell => J (i + 1) s'
          | .brk _ => Q none s'
          | .ret a => Q (some a) s' :=
        foreach_rule (I := fun L s => ∃ l, L = l.map HRef.node ∧ I i l s)
          (Q := fun e s => match e with
            | .fell => J (i + 1) s
            | .brk _ => Q none s
            | .ret a => Q (some a) s)
        (by rintro L s ⟨l, rfl, hl⟩; exact hrest i l s hl)
        (by
          rintro y L s ⟨l, hL, hl⟩
          cases l with
          | nil => cases hL
          | cons x l =>
            rw [List.map_cons, List.cons.injEq] at hL
            obtain ⟨rfl, rfl⟩ := hL
            obtain ⟨f, s', hb, hf⟩ := hstep i x l s hl
            refine ⟨f, s', by simp [onNode, hb], ?_⟩
            cases f with
            | next => exact ⟨l, rfl, hf⟩
            | brk => exact hf
            | ret a => exact hf)
        (by
          rintro s ⟨l, hl, hI⟩
          cases l with
          | nil => exact hleave i s hI
          | cons x l => cases hl)
        ⟨l, rfl, hI⟩ hstart (by simpa using hlen)
      cases e with
      | fell =>
        obtain ⟨r, t, ht, hr⟩ := ih (i + 1) s' (by omega) hq
        exact ⟨r, t, by simp [hsHtableForeachFrom, he, ht], hr⟩
      | brk x =>
        refine ⟨none, s', ?_, hq⟩
        cases n with
        | zero => simp [hsHtableForeachFrom, he]
        | succ n => simp [hsHtableForeachFrom, he]
      | ret a => exact ⟨some a, s', by simp [hsHtableForeachFrom, he], hq⟩
  obtain ⟨r, s', h, hq⟩ := key N 0 s (by omega) h0
  exact ⟨r, s', by rw [hsHtableForeach, hN]; exact h, hq⟩

end Libhs
