import Libhs.Lib.Run
import Libhs.Lib.Visits
import Libhs.HTable

/-!
# Runs of the hash table

Any sequence of `_hs_htable_add`, `_hs_htable_insert` and `_hs_htable_remove` on a new
table, followed by one of the loops with a body that unlinks the nodes it likes and stops
where it likes.

`Represents` says which chains of nodes with their keys the memory of a table holds.
-/

namespace Libhs
open Pointer

variable {ν α : Type}

/-! ## Chains -/

/-- The nodes of each bucket with their keys. -/
abbrev Chains (ν : Type) := Nat → List (ν × UInt32)

/-- The table `t` holds the chains `C`: each cell closes the circle of its chain, and the nodes have
the keys of the chain, which belong there. -/
structure Represents (t : HTable ν) (C : Chains ν) : Prop where
  pos : 0 < t.size
  ring : ∀ i, i < t.size → Ring t.next (.cell i) ((C i).map fun e => .node e.1)
  key : ∀ i, ∀ e ∈ C i, t.keyOf e.1 = some e.2
  home : ∀ i, ∀ e ∈ C i, e.2.toNat % t.size = i

variable {t : HTable ν} {C C' : Chains ν} {i j fuel size : Nat} {n p : ν} {key : UInt32}
  {l l₁ l₂ : List (ν × UInt32)}

theorem represents_iff : Represents t C ↔
    Buckets t (fun i => (C i).map Prod.fst) ∧ ∀ i, ∀ e ∈ C i, t.keyOf e.1 = some e.2 := by
  constructor
  · intro h
    refine ⟨⟨h.pos, fun i hi => ?_, fun i n hn => ?_⟩, h.key⟩
    · rw [List.map_map]
      exact h.ring i hi
    · obtain ⟨e, he, rfl⟩ := List.mem_map.mp hn
      exact ⟨e.2, h.key i e he, h.home i e he⟩
  · rintro ⟨hb, hkey⟩
    refine ⟨hb.pos, fun i hi => ?_, hkey, fun i e he => ?_⟩
    · have hr := hb.ring i hi
      rwa [List.map_map] at hr
    · obtain ⟨k, hk, hi⟩ := hb.home i e.1 (List.mem_map_of_mem he)
      rw [hkey i e he] at hk
      cases hk
      exact hi

theorem Represents.buckets (h : Represents t C) : Buckets t fun i => (C i).map Prod.fst :=
  (represents_iff.mp h).1

theorem Represents.nodup (h : Represents t C) (i : Nat) : ((C i).map Prod.fst).Nodup :=
  h.buckets.nodup i

/-- No node is in two buckets. -/
theorem Represents.disjoint (h : Represents t C) (hij : i ≠ j) :
    List.Disjoint ((C i).map Prod.fst) ((C j).map Prod.fst) :=
  fun _ hi hj => hij (h.buckets.index_eq hi hj)

/-- No bucket but those of the cells has nodes. -/
theorem Represents.lt (h : Represents t C) {e : ν × UInt32} (he : e ∈ C i) : i < t.size :=
  h.buckets.lt (List.mem_map_of_mem he)

/-- The node is in one of the chains. -/
def Linked (C : Chains ν) (n : ν) : Prop := ∃ i, n ∈ (C i).map Prod.fst

variable [DecidableEq ν]

/-- The chains of a table of `size` cells after an addition in front. -/
def Chains.add (C : Chains ν) (size : Nat) (key : UInt32) (n : ν) : Chains ν :=
  Function.update C (key.toNat % size) ((n, key) :: C (key.toNat % size))

/-- `n` behind `p`, with the key of `p`. -/
def insertAfter (p n : ν) : List (ν × UInt32) → List (ν × UInt32)
  | [] => []
  | e :: l => if e.1 = p then e :: (n, e.2) :: l else e :: insertAfter p n l

def Chains.insert (C : Chains ν) (p n : ν) : Chains ν := fun i => insertAfter p n (C i)

def Chains.erase (C : Chains ν) (n : ν) : Chains ν := fun i => (C i).filter fun e => e.1 ≠ n

/-! ## The operations on the chains -/

omit [DecidableEq ν] in
theorem update_map (C : Chains ν) (i : Nat) (l : List (ν × UInt32)) :
    (fun j => (Function.update C i l j).map Prod.fst) =
      Function.update (fun j => (C j).map Prod.fst) i (l.map Prod.fst) := by
  funext j
  exact Function.apply_update (fun _ => List.map Prod.fst) C i l j

omit [DecidableEq ν] in
/-- A linked node stands in one place of one chain. -/
theorem Represents.split (h : Represents t C) (hn : Linked C n) :
    ∃ i k l₁ l₂, C i = l₁ ++ (n, k) :: l₂ ∧ n ∉ l₁.map Prod.fst ∧ n ∉ l₂.map Prod.fst ∧
      ∀ j, j ≠ i → n ∉ (C j).map Prod.fst := by
  obtain ⟨i, hi⟩ := hn
  obtain ⟨⟨m, k⟩, he, rfl⟩ := List.mem_map.mp hi
  obtain ⟨l₁, l₂, hC⟩ := List.append_of_mem he
  have hnd := h.nodup i
  rw [hC, List.map_append, List.map_cons] at hnd
  obtain ⟨-, hback, hapart⟩ := List.nodup_append.mp hnd
  refine ⟨i, k, l₁, l₂, hC, fun hm => ?_, (List.nodup_cons.mp hback).1, fun j hji hj => ?_⟩
  · exact hapart _ hm _ List.mem_cons_self rfl
  · exact h.disjoint hji hj hi

omit [DecidableEq ν] in
theorem update_eq (hi : C' i = l) (hj : ∀ j, j ≠ i → C' j = C j) : C' = Function.update C i l := by
  funext j
  by_cases hji : j = i
  · subst hji
    rw [Function.update_self, hi]
  · rw [Function.update_of_ne hji, hj j hji]

theorem insertAfter_of_notMem (hp : p ∉ l.map Prod.fst) : insertAfter p n l = l := by
  induction l with
  | nil => rfl
  | cons e l ih =>
    rw [List.map_cons, List.mem_cons, not_or] at hp
    rw [insertAfter, if_neg (fun h => hp.1 h.symm), ih hp.2]

theorem insertAfter_split (hp : p ∉ l₁.map Prod.fst) :
    insertAfter p n (l₁ ++ (p, key) :: l₂) = l₁ ++ (p, key) :: (n, key) :: l₂ := by
  induction l₁ with
  | nil => rw [List.nil_append, insertAfter, if_pos rfl, List.nil_append]
  | cons e l₁ ih =>
    rw [List.map_cons, List.mem_cons, not_or] at hp
    rw [List.cons_append, insertAfter, if_neg (fun h => hp.1 h.symm), ih hp.2, List.cons_append]

theorem filter_of_notMem (hn : n ∉ l.map Prod.fst) : (l.filter fun e => e.1 ≠ n) = l := by
  refine List.filter_eq_self.mpr fun e he => ?_
  have hne : e.1 ≠ n := fun h => hn (h ▸ List.mem_map_of_mem he)
  simpa using hne

/-- A new node takes its key, the others keep theirs. -/
theorem keys_update {t' : HTable ν} (hkey : ∀ i, ∀ e ∈ C i, t.keyOf e.1 = some e.2)
    (hn : ¬Linked C n) (hk : t'.keyOf = Function.update t.keyOf n (some key)) {e : ν × UInt32}
    (he : e = (n, key) ∨ e ∈ C i) : t'.keyOf e.1 = some e.2 := by
  rcases he with rfl | he
  · rw [hk, Function.update_self]
  · have hne : e.1 ≠ n := fun h => hn ⟨i, h ▸ List.mem_map_of_mem he⟩
    rw [hk, Function.update_of_ne hne, hkey i e he]

theorem live_update {t' : HTable ν} (hl : t.keyOf n ≠ none)
    (hk : t'.keyOf = Function.update t.keyOf n (some key)) (m : ν) :
    t'.keyOf m ≠ none ↔ t.keyOf m ≠ none := by
  by_cases hm : m = n
  · subst hm
    rw [hk, Function.update_self]
    exact iff_of_true (Option.some_ne_none _) hl
  · rw [hk, Function.update_of_ne hm]

theorem represents_add (h : Represents t C) (hn : ¬Linked C n) (hl : t.keyOf n ≠ none)
    (key : UInt32) :
    ∃ t', hsHtableAdd t key n = some t' ∧ t'.size = t.size ∧
      Represents t' (C.add t.size key n) ∧ ∀ m, t'.keyOf m ≠ none ↔ t.keyOf m ≠ none := by
  obtain ⟨t', e, hs, hb, hk⟩ := buckets_add h.buckets rfl (fun j hj => hn ⟨j, hj⟩) hl
  refine ⟨t', e, hs, represents_iff.mpr ⟨?_, fun i e he => ?_⟩, live_update hl hk⟩
  · rw [Chains.add, update_map]
    exact hb
  · rw [Chains.add] at he
    by_cases hi : i = key.toNat % t.size
    · subst hi
      rw [Function.update_self] at he
      exact keys_update h.key hn hk (List.mem_cons.mp he)
    · rw [Function.update_of_ne hi] at he
      exact keys_update h.key hn hk (Or.inr he)

theorem represents_insert (h : Represents t C) (hp : Linked C p) (hn : ¬Linked C n)
    (hl : t.keyOf n ≠ none) :
    ∃ t', hsHtableInsert t p n = some t' ∧ t'.size = t.size ∧
      Represents t' (C.insert p n) ∧ ∀ m, t'.keyOf m ≠ none ↔ t.keyOf m ≠ none := by
  obtain ⟨i, k, l₁, l₂, hC, hp₁, -, hother⟩ := h.split hp
  have hB : (C i).map Prod.fst = l₁.map Prod.fst ++ p :: l₂.map Prod.fst := by
    rw [hC, List.map_append, List.map_cons]
  have hpk : t.keyOf p = some k := h.key i (p, k) (by rw [hC]; simp)
  obtain ⟨t', e, hs, hb, hk⟩ := buckets_insert h.buckets hB (fun j hj => hn ⟨j, hj⟩) hl
  rw [hpk] at hk
  have hinsert : C.insert p n = Function.update C i (l₁ ++ (p, k) :: (n, k) :: l₂) := by
    refine update_eq ?_ fun j hji => insertAfter_of_notMem (hother j hji)
    rw [Chains.insert, hC, insertAfter_split hp₁]
  refine ⟨t', e, hs, represents_iff.mpr ⟨?_, fun j e he => ?_⟩, live_update hl hk⟩
  · rw [hinsert, update_map]
    simpa using hb
  · rw [hinsert] at he
    by_cases hji : j = i
    · subst hji
      rw [Function.update_self] at he
      refine keys_update h.key hn hk (i := j) ?_
      rw [hC]
      simp only [List.mem_append, List.mem_cons] at he ⊢
      rcases he with he | he | he | he
      · exact Or.inr (Or.inl he)
      · exact Or.inr (Or.inr (Or.inl he))
      · exact Or.inl he
      · exact Or.inr (Or.inr (Or.inr he))
    · rw [Function.update_of_ne hji] at he
      exact keys_update h.key hn hk (Or.inr he)

theorem represents_remove (h : Represents t C) (hn : Linked C n)
    (hfuel : ∀ i, (C i).length ≤ fuel) :
    ∃ t', hsHtableRemove fuel t n = some t' ∧ t'.size = t.size ∧
      Represents t' (C.erase n) ∧ ∀ m, t'.keyOf m ≠ none ↔ t.keyOf m ≠ none := by
  obtain ⟨i, k, l₁, l₂, hC, hn₁, hn₂, hother⟩ := h.split hn
  have hB : (C i).map Prod.fst = l₁.map Prod.fst ++ n :: l₂.map Prod.fst := by
    rw [hC, List.map_append, List.map_cons]
  have hlen : ((C i).map Prod.fst).length ≤ fuel := by
    rw [List.length_map]
    exact hfuel i
  obtain ⟨t', e, hs, hb, hk⟩ := buckets_remove h.buckets hB hlen
  have herase : C.erase n = Function.update C i (l₁ ++ l₂) := by
    refine update_eq ?_ fun j hji => filter_of_notMem (hother j hji)
    rw [Chains.erase, hC, List.filter_append, filter_of_notMem hn₁,
      List.filter_cons_of_neg (by simp), filter_of_notMem hn₂]
  refine ⟨t', e, hs, represents_iff.mpr ⟨?_, fun j e he => ?_⟩, fun m => by rw [hk]⟩
  · rw [herase, update_map, List.map_append]
    exact hb
  · rw [hk]
    exact h.key j e (List.mem_of_mem_filter he)

/-! ## Sequences of operations -/

/-- An operation on a table. -/
inductive HTableOp (ν : Type)
  | add (key : UInt32) (n : ν)
  | insert (prev n : ν)
  | remove (n : ν)

/-- The operation on memory. -/
def HTableOp.exec (fuel : Nat) (t : HTable ν) : HTableOp ν → Option (HTable ν)
  | .add key n => hsHtableAdd t key n
  | .insert prev n => hsHtableInsert t prev n
  | .remove n => hsHtableRemove fuel t n

/-- The operation on the chains. -/
def HTableOp.apply (size : Nat) (C : Chains ν) : HTableOp ν → Chains ν
  | .add key n => C.add size key n
  | .insert prev n => C.insert prev n
  | .remove n => C.erase n

omit [DecidableEq ν] in
/-- A node that is put in is allocated and not in the table; one that is named otherwise is. -/
def HTableOp.Allowed (live : ν → Prop) (C : Chains ν) : HTableOp ν → Prop
  | .add _ n => ¬Linked C n ∧ live n
  | .insert prev n => Linked C prev ∧ ¬Linked C n ∧ live n
  | .remove n => Linked C n

/-- The operations are allowed one after the other, on a table of `size` cells. -/
def HTableOp.AllAllowed (live : ν → Prop) (size : Nat) : Chains ν → List (HTableOp ν) → Prop :=
  Run.Along (fun C op => some (op.apply size C)) (HTableOp.Allowed live)

/-- The chains that the operations make in an empty table. -/
def chainsOf (size : Nat) (ops : List (HTableOp ν)) : Chains ν :=
  ops.foldl (HTableOp.apply size) fun _ => []

variable {live : ν → Prop} {op : HTableOp ν} {ops : List (HTableOp ν)}

theorem exec_represents (h : Represents t C) (hlive : ∀ m, t.keyOf m ≠ none ↔ live m)
    (ha : op.Allowed live C) (hfuel : ∀ i, (C i).length ≤ fuel) :
    ∃ t', op.exec fuel t = some t' ∧ t'.size = t.size ∧ Represents t' (op.apply t.size C) ∧
      ∀ m, t'.keyOf m ≠ none ↔ t.keyOf m ≠ none := by
  cases op with
  | add key n => exact represents_add h ha.1 ((hlive n).mpr ha.2) key
  | insert prev n => exact represents_insert h ha.1 ha.2.1 ((hlive n).mpr ha.2.2)
  | remove n => exact represents_remove h ha hfuel

theorem insertAfter_length (p n : ν) (l : List (ν × UInt32)) :
    (insertAfter p n l).length ≤ l.length + 1 := by
  induction l with
  | nil => exact Nat.zero_le _
  | cons e l ih =>
    rw [insertAfter]
    split
    · exact Nat.le_refl _
    · exact Nat.succ_le_succ ih

/-- An operation makes a chain longer by one node at most. -/
theorem apply_length (C : Chains ν) (size : Nat) (op : HTableOp ν) (i : Nat) :
    (op.apply size C i).length ≤ (C i).length + 1 := by
  cases op with
  | add key n =>
    show (Function.update C _ _ i).length ≤ _
    by_cases hi : i = key.toNat % size
    · subst hi
      rw [Function.update_self]
      exact Nat.le_refl _
    · rw [Function.update_of_ne hi]
      exact Nat.le_succ _
  | insert prev n => exact insertAfter_length prev n (C i)
  | remove n => exact Nat.le_succ_of_le (List.length_filter_le _ _)

theorem run_represents (h : Represents t C) (hlive : ∀ m, t.keyOf m ≠ none ↔ live m)
    (ha : HTableOp.AllAllowed live t.size C ops) (hfuel : ∀ i, (C i).length + ops.length < fuel) :
    ∃ t', Run.run (HTableOp.exec fuel) t ops = some t' ∧ t'.size = t.size ∧
      Represents t' (ops.foldl (HTableOp.apply t.size) C) ∧
      ∀ i, (ops.foldl (HTableOp.apply t.size) C i).length < fuel := by
  induction ops generalizing t C with
  | nil => exact ⟨t, rfl, rfl, h, hfuel⟩
  | cons op ops ih =>
    have hlen (i : Nat) : (op.apply t.size C i).length + ops.length < fuel := by
      have hop := apply_length C t.size op i
      have hi := hfuel i
      rw [List.length_cons] at hi
      omega
    obtain ⟨t₁, e₁, s₁, h₁, l₁⟩ :=
      exec_represents h hlive ha.1 fun i =>
        Nat.le_trans (Nat.le_add_right _ _) (Nat.le_of_lt (hfuel i))
    obtain ⟨t', e, hs, h', hl⟩ := ih h₁ (fun m => (l₁ m).trans (hlive m))
      (by rw [s₁]; exact ha.2 _ rfl) hlen
    rw [s₁] at hs h' hl
    refine ⟨t', ?_, hs, h', hl⟩
    simpa only [Run.run, e₁, Option.bind_eq_bind, Option.bind_some] using e

/-! ## Loops that unlink -/

/-- A loop body that may unlink the node it visits. -/
def unlinkIf (fuel : Nat) (unlink : Bool) (n : ν) (t : HTable ν) : Option (HTable ν) :=
  if unlink then hsHtableRemove fuel t n else some t

/-- The chains without the nodes that were unlinked at a visit. -/
def Chains.without (C : Chains ν) (log : List (ν × Bool)) : Chains ν :=
  fun i => (C i).filter fun e => (e.1, true) ∉ log

omit [DecidableEq ν] in
/-- The nodes of the first `N` buckets. -/
def Chains.nodes (C : Chains ν) (N : Nat) : List ν :=
  (List.range N).flatMap fun i => (C i).map Prod.fst

omit [DecidableEq ν] in
/-- The nodes with the key `k`. -/
def Chains.withKey (C : Chains ν) (size : Nat) (k : UInt32) : List ν :=
  ((C (k.toNat % size)).filter fun e => e.2 = k).map Prod.fst

variable {log : List (ν × Bool)} {act : List (ν × Bool) → ν → Bool × Flow α}

theorem without_nil (C : Chains ν) : C.without [] = C := by
  funext i
  simp [Chains.without]

theorem without_snoc (C : Chains ν) (log : List (ν × Bool)) (n : ν) (unlink : Bool) :
    C.without (log ++ [(n, unlink)]) =
      if unlink then (C.without log).erase n else C.without log := by
  funext i
  cases unlink with
  | true =>
    simp only [Chains.without, Chains.erase, ↓reduceIte, List.filter_filter]
    refine List.filter_congr fun e _ => ?_
    simp [and_comm]
  | false => simp [Chains.without]

/-- A visit of a linked node. -/
theorem visit_represents (h : Represents t (C.without log)) (hn : Linked (C.without log) n)
    (hfuel : ∀ i, (C i).length ≤ fuel) (act : List (ν × Bool) → ν → Bool × Flow α) :
    ∃ t', visit act (unlinkIf fuel) n (t, log) =
        some ((act log n).2, (t', log ++ [(n, (act log n).1)])) ∧ t'.size = t.size ∧
      Represents t' (C.without (log ++ [(n, (act log n).1)])) := by
  rw [without_snoc]
  cases hu : (act log n).1 with
  | true =>
    obtain ⟨t', e, hs, h', -⟩ := represents_remove h hn fun i =>
      Nat.le_trans (List.length_filter_le _ _) (hfuel i)
    refine ⟨t', ?_, hs, h'⟩
    rw [← hu]
    exact visit_some (by rw [hu]; exact e)
  | false =>
    refine ⟨t, ?_, rfl, h⟩
    rw [← hu]
    exact visit_some (by rw [hu]; rfl)

/-- Nodes that were not visited are still there. -/
theorem without_append {done todo : List (ν × UInt32)} (hC : C i = done ++ todo)
    (hlog : ∀ e ∈ todo, e.1 ∉ log.map Prod.fst) :
    C.without log i = (done.filter fun e => (e.1, true) ∉ log) ++ todo := by
  have htodo : (todo.filter fun e => (e.1, true) ∉ log) = todo := by
    refine List.filter_eq_self.mpr fun e he => ?_
    simpa using fun hm => hlog e he (List.mem_map_of_mem hm)
  rw [Chains.without, hC, List.filter_append, htodo]

theorem mem_without {done todo : List (ν × UInt32)} {e : ν × UInt32} (hC : C i = done ++ e :: todo)
    (hno : ∀ e' ∈ e :: todo, e'.1 ∉ log.map Prod.fst) : e ∈ C.without log i := by
  rw [without_append hC hno]
  exact List.mem_append_right _ List.mem_cons_self

/-- The nodes of a chain from the cursor on are still linked up to its cell. -/
theorem rest_without {σ : Type} {table : σ → HTable ν} {s : σ} {done todo : List (ν × UInt32)}
    (h : Represents (table s) (C.without log)) (hi : i < (table s).size) (hC : C i = done ++ todo)
    (hlog : ∀ e ∈ todo, e.1 ∉ log.map Prod.fst) :
    Rest (fun s => (table s).next) (.cell i) ((todo.map Prod.fst).map .node) s := by
  have hr := h.ring i hi
  rw [without_append hC hlog, List.map_append] at hr
  rw [List.map_map]
  exact Ring.rest hr

/-! ## `hs_htable_foreach` -/

omit [DecidableEq ν] in
theorem nodes_succ (C : Chains ν) (i : Nat) :
    C.nodes (i + 1) = C.nodes i ++ (C i).map Prod.fst := by
  simp [Chains.nodes, List.range_succ]

omit [DecidableEq ν] in
/-- The first buckets come first. -/
theorem nodes_prefix (C : Chains ν) {i N : Nat} (hi : i ≤ N) : C.nodes i <+: C.nodes N := by
  obtain ⟨k, rfl⟩ := Nat.exists_eq_add_of_le hi
  clear hi
  induction k with
  | zero => exact List.prefix_rfl
  | succ k ih =>
    rw [← Nat.add_assoc, nodes_succ]
    exact ih.trans (List.prefix_append _ _)

omit [DecidableEq ν] in
theorem mem_nodes {N : Nat} : n ∈ C.nodes N ↔ ∃ i, i < N ∧ n ∈ (C i).map Prod.fst := by
  simp [Chains.nodes]

omit [DecidableEq ν] in
theorem Represents.nodes_nodup (h : Represents t C) (N : Nat) : (C.nodes N).Nodup := by
  induction N with
  | zero => exact List.nodup_nil
  | succ N ih =>
    rw [nodes_succ]
    refine ih.append (h.nodup N) fun m hm hN => ?_
    obtain ⟨i, hi, hmi⟩ := mem_nodes.mp hm
    exact h.disjoint (Nat.ne_of_lt hi) hmi hN

omit [DecidableEq ν] in
/-- The loop goes over exactly the linked nodes. -/
theorem Represents.mem_nodes_iff (h : Represents t C) : n ∈ C.nodes t.size ↔ Linked C n := by
  rw [mem_nodes]
  constructor
  · rintro ⟨i, -, hi⟩
    exact ⟨i, hi⟩
  · rintro ⟨i, hi⟩
    exact ⟨i, h.buckets.lt hi, hi⟩

/-- The loop is in bucket `i`, with the nodes `l` of it still to visit. -/
structure AtBucket (act : List (ν × Bool) → ν → Bool × Flow α) (C : Chains ν) (N i : Nat)
    (l : List ν) (s : HTable ν × List (ν × Bool)) : Prop where
  lt : i < N
  size : s.1.size = N
  went : Went act s.2
  holds : Represents s.1 (C.without s.2)
  split : ∃ done todo, C i = done ++ todo ∧ todo.map Prod.fst = l ∧
    s.2.map Prod.fst = C.nodes i ++ done.map Prod.fst

/-- The loop is in front of bucket `i`. -/
structure BeforeBucket (act : List (ν × Bool) → ν → Bool × Flow α) (C : Chains ν) (N i : Nat)
    (s : HTable ν × List (ν × Bool)) : Prop where
  size : s.1.size = N
  went : Went act s.2
  holds : Represents s.1 (C.without s.2)
  visited : s.2.map Prod.fst = C.nodes i

omit [DecidableEq ν] in
/-- What is still to visit was not visited. -/
theorem notMem_visited {done todo : List (ν × UInt32)} (h : Represents t C)
    (hC : C i = done ++ todo)
    (hlog : log.map Prod.fst = C.nodes i ++ done.map Prod.fst) :
    ∀ e ∈ todo, e.1 ∉ log.map Prod.fst := by
  intro e he hm
  have hnd := h.nodes_nodup (i + 1)
  rw [nodes_succ, hC, List.map_append, ← List.append_assoc, ← hlog] at hnd
  exact (List.nodup_append.mp hnd).2.2 _ hm _ (List.mem_map_of_mem he) rfl

theorem htableForeach_visits (h : Represents t C) (hfuel : ∀ i, (C i).length < fuel)
    (act : List (ν × Bool) → ν → Bool × Flow α) :
    ∃ r s, hsHtableForeach Prod.fst (visit act (unlinkIf fuel)) fuel (t, []) = some (r, s) ∧
      Represents s.1 (C.without s.2) ∧ ∃ f, Traversed act (C.nodes t.size) s.2 f ∧ r = f.value := by
  refine htableForeach_rule (J := BeforeBucket act C t.size) (I := AtBucket act C t.size)
    (Q := fun r s => Represents s.1 (C.without s.2) ∧
      ∃ f, Traversed act (C.nodes t.size) s.2 f ∧ r = f.value) ?_ ?_ ?_ ?_ ?_ ?_ rfl
  · -- the first node of a bucket
    intro i s hi hJ
    have hC : C i = [] ++ C i := rfl
    have hlog : s.2.map Prod.fst = C.nodes i ++ ([] : List (ν × UInt32)).map Prod.fst := by
      rw [hJ.visited, List.map_nil, List.append_nil]
    refine ⟨(C i).map Prod.fst, ⟨hi, hJ.size, hJ.went, hJ.holds, [], C i, hC, rfl, hlog⟩,
      by rw [List.length_map]; exact hfuel i, ?_⟩
    have hr := hJ.holds.ring i (by rw [hJ.size]; exact hi)
    rw [without_append hC (notMem_visited h hC hlog), List.filter_nil, List.nil_append] at hr
    rw [List.map_map]
    exact hr.head_next
  · intro i l s hI
    obtain ⟨done, todo, hC, rfl, hlog⟩ := hI.split
    exact rest_without hI.holds (by rw [hI.size]; exact hI.lt) hC (notMem_visited h hC hlog)
  · -- a visit
    intro i x l s hI
    obtain ⟨done, todo, hC, htodo, hlog⟩ := hI.split
    obtain ⟨e, todo, rfl, rfl, rfl⟩ := List.map_eq_cons_iff.mp htodo
    have he : e ∈ C.without s.2 i := mem_without hC (notMem_visited h hC hlog)
    obtain ⟨t', hv, hs, h'⟩ := visit_represents hI.holds ⟨i, List.mem_map_of_mem he⟩
      (fun i => Nat.le_of_lt (hfuel i)) act
    obtain ⟨rest, hrest⟩ := nodes_prefix C hI.lt
    have horder : s.2.map Prod.fst ++ e.1 :: (todo.map Prod.fst ++ rest) = C.nodes t.size := by
      rw [← hrest, nodes_succ, hC, hlog]
      simp
    refine ⟨_, _, hv, ?_⟩
    cases hf : (act s.2 e.1).2 with
    | next =>
      refine ⟨hI.lt, hs.trans hI.size, hI.went.snoc hf, h', done ++ [e], todo, ?_, rfl, ?_⟩
      · rw [hC, List.append_assoc, List.singleton_append]
      · simp [hlog]
    | brk => exact ⟨h', .brk, .left hI.went horder hf nofun, rfl⟩
    | ret a => exact ⟨h', .ret a, .left hI.went horder hf nofun, rfl⟩
  · -- the next bucket
    intro i s hI
    obtain ⟨done, todo, hC, htodo, hlog⟩ := hI.split
    refine ⟨hI.size, hI.went, hI.holds, ?_⟩
    rw [nodes_succ, hlog, hC, List.map_append, htodo, List.append_nil]
  · intro s hJ
    exact ⟨hJ.holds, .next, .all hJ.went hJ.visited, rfl⟩
  · refine ⟨rfl, .nil, ?_, rfl⟩
    rw [without_nil]
    exact h

/-! ## `hs_htable_foreach_hash` -/

omit [DecidableEq ν] in
/-- The loop goes over exactly the nodes with its key. -/
theorem Represents.mem_withKey (h : Represents t C) {k : UInt32} :
    n ∈ C.withKey t.size k ↔ ∃ i, (n, k) ∈ C i := by
  simp only [Chains.withKey, List.mem_map, List.mem_filter, decide_eq_true_eq]
  constructor
  · rintro ⟨e, ⟨he, rfl⟩, rfl⟩
    exact ⟨_, he⟩
  · rintro ⟨i, hi⟩
    have hhome := h.home i (n, k) hi
    exact ⟨(n, k), ⟨hhome ▸ hi, rfl⟩, rfl⟩

omit [DecidableEq ν] in
theorem Represents.withKey_nodup (h : Represents t C) (k : UInt32) : (C.withKey t.size k).Nodup :=
  (h.nodup _).sublist (List.filter_sublist.map _)

/-- The loop is in bucket `i` and has visited the nodes with the key `k` in front of `l`. -/
structure AtKey (act : List (ν × Bool) → ν → Bool × Flow α) (C : Chains ν) (N : Nat) (k : UInt32)
    (i : Nat) (l : List ν) (s : HTable ν × List (ν × Bool)) : Prop where
  size : s.1.size = N
  went : Went act s.2
  holds : Represents s.1 (C.without s.2)
  split : ∃ done todo, C i = done ++ todo ∧ todo.map Prod.fst = l ∧
    s.2.map Prod.fst = (done.filter fun e => e.2 = k).map Prod.fst

omit [DecidableEq ν] in
theorem notMem_visited_key {done todo : List (ν × UInt32)} {k : UInt32} (h : Represents t C)
    (hC : C i = done ++ todo)
    (hlog : log.map Prod.fst = (done.filter fun e => e.2 = k).map Prod.fst) :
    ∀ e ∈ todo, e.1 ∉ log.map Prod.fst := by
  intro e he hm
  have hnd := h.nodup i
  rw [hC, List.map_append] at hnd
  rw [hlog] at hm
  have hdone : e.1 ∈ done.map Prod.fst := (List.filter_sublist.map _).subset hm
  exact (List.nodup_append.mp hnd).2.2 _ hdone _ (List.mem_map_of_mem he) rfl

theorem htableForeachHash_visits (h : Represents t C) (hfuel : ∀ i, (C i).length < fuel)
    (k : UInt32) (act : List (ν × Bool) → ν → Bool × Flow α) :
    ∃ x s, hsHtableForeachHash Prod.fst k (visit act (unlinkIf fuel)) fuel (t, []) = some (x, s) ∧
      Represents s.1 (C.without s.2) ∧ Traversed act (C.withKey t.size k) s.2 x.flow := by
  have hi : k.toNat % t.size < t.size := Nat.mod_lt _ h.pos
  generalize hk : k.toNat % t.size = i at hi
  have hkey : C.withKey t.size k = ((C i).filter fun e => e.2 = k).map Prod.fst := by
    rw [Chains.withKey, hk]
  refine htableForeachHash_rule (l := (C i).map Prod.fst) (I := AtKey act C t.size k i)
    (Q := fun x s => Represents s.1 (C.without s.2) ∧
      Traversed act (C.withKey t.size k) s.2 x.flow) h.pos hk ?_ ?_ ?_ ?_ ?_ ?_
      (by rw [List.length_map]; exact hfuel i)
  · intro l s hI
    obtain ⟨done, todo, hC, rfl, hlog⟩ := hI.split
    exact rest_without hI.holds (by rw [hI.size]; exact hi) hC (notMem_visited_key h hC hlog)
  · -- a node with another key
    intro x l s hI hne
    obtain ⟨done, todo, hC, htodo, hlog⟩ := hI.split
    obtain ⟨e, todo, rfl, rfl, rfl⟩ := List.map_eq_cons_iff.mp htodo
    have he : e ∈ C.without s.2 i := mem_without hC (notMem_visited_key h hC hlog)
    have hek : e.2 ≠ k := fun heq => hne (by rw [hI.holds.key i e he, heq])
    refine ⟨hI.size, hI.went, hI.holds, done ++ [e], todo, ?_, rfl, ?_⟩
    · rw [hC, List.append_assoc, List.singleton_append]
    · simp [hlog, List.filter_append, hek]
  · -- a visit
    intro x l s hI hx
    obtain ⟨done, todo, hC, htodo, hlog⟩ := hI.split
    obtain ⟨e, todo, rfl, rfl, rfl⟩ := List.map_eq_cons_iff.mp htodo
    have he : e ∈ C.without s.2 i := mem_without hC (notMem_visited_key h hC hlog)
    have hek : e.2 = k := by
      rw [hI.holds.key i e he] at hx
      exact Option.some.inj hx
    obtain ⟨t', hv, hs, h'⟩ := visit_represents hI.holds ⟨i, List.mem_map_of_mem he⟩
      (fun i => Nat.le_of_lt (hfuel i)) act
    have horder : s.2.map Prod.fst ++ e.1 :: (todo.filter fun e => e.2 = k).map Prod.fst =
        C.withKey t.size k := by
      simp [hkey, hC, hlog, List.filter_append, hek]
    refine ⟨_, _, hv, ?_⟩
    cases hf : (act s.2 e.1).2 with
    | next =>
      refine ⟨hs.trans hI.size, hI.went.snoc hf, h', done ++ [e], todo, ?_, rfl, ?_⟩
      · rw [hC, List.append_assoc, List.singleton_append]
      · simp [hlog, List.filter_append, hek]
    | brk => exact ⟨h', .left hI.went horder hf nofun⟩
    | ret a => exact ⟨h', .left hI.went horder hf nofun⟩
  · intro s hI
    obtain ⟨done, todo, hC, htodo, hlog⟩ := hI.split
    rw [List.map_eq_nil_iff] at htodo
    subst htodo
    rw [List.append_nil] at hC
    exact ⟨hI.holds, .all hI.went (by rw [hlog, hkey, hC])⟩
  · exact ⟨rfl, .nil, by rw [without_nil]; exact h, [], C i, rfl, rfl, rfl⟩
  · have hr := h.ring i hi
    rw [List.map_map]
    exact hr.head_next

/-! ## A table after any operations -/

/-- What can be done with a table that holds the chains `C`. -/
structure Usable (fuel : Nat) (t : HTable ν) (C : Chains ν) : Prop where
  holds : Represents t C
  disjoint : ∀ i j, i ≠ j → List.Disjoint ((C i).map Prod.fst) ((C j).map Prod.fst)
  removes : ∀ n, Linked C n →
    ∃ t', hsHtableRemove fuel t n = some t' ∧ Represents t' (C.erase n)
  nodes : (C.nodes t.size).Nodup ∧ ∀ n, n ∈ C.nodes t.size ↔ Linked C n
  foreach : ∀ {α : Type} (act : List (ν × Bool) → ν → Bool × Flow α),
    ∃ r s, hsHtableForeach Prod.fst (visit act (unlinkIf fuel)) fuel (t, []) = some (r, s) ∧
      Represents s.1 (C.without s.2) ∧
      (∃ f, Traversed act (C.nodes t.size) s.2 f ∧ r = f.value) ∧
      ((∀ log x, (act log x).2 = .next) → s.2.map Prod.fst = C.nodes t.size)
  withKey : ∀ k, (C.withKey t.size k).Nodup ∧ ∀ n, n ∈ C.withKey t.size k ↔ ∃ i, (n, k) ∈ C i
  foreachHash : ∀ {α : Type} (k : UInt32) (act : List (ν × Bool) → ν → Bool × Flow α),
    ∃ x s, hsHtableForeachHash Prod.fst k (visit act (unlinkIf fuel)) fuel (t, []) = some (x, s) ∧
      Represents s.1 (C.without s.2) ∧ Traversed act (C.withKey t.size k) s.2 x.flow ∧
      ((∀ log x, (act log x).2 = .next) → s.2.map Prod.fst = C.withKey t.size k)

theorem Represents.usable (h : Represents t C) (hfuel : ∀ i, (C i).length < fuel) :
    Usable fuel t C where
  holds := h
  disjoint _ _ hij := h.disjoint hij
  removes n hn := by
    obtain ⟨t', e, -, h', -⟩ := represents_remove h hn fun i => Nat.le_of_lt (hfuel i)
    exact ⟨t', e, h'⟩
  nodes := ⟨h.nodes_nodup _, fun _ => h.mem_nodes_iff⟩
  foreach act := by
    obtain ⟨r, s, e, h', f, htr, hr⟩ := htableForeach_visits h hfuel act
    exact ⟨r, s, e, h', ⟨f, htr, hr⟩, htr.all_of_always⟩
  withKey k := ⟨h.withKey_nodup k, fun _ => h.mem_withKey⟩
  foreachHash k act := by
    obtain ⟨x, s, e, h', htr⟩ := htableForeachHash_visits h hfuel k act
    exact ⟨x, s, e, h', htr, htr.all_of_always⟩

omit [DecidableEq ν] in
theorem represents_init (t : HTable ν) (hsize : 0 < size) :
    Represents (hsHtableInit t size true).2 fun _ => [] :=
  represents_iff.mpr ⟨buckets_clear hsize, fun _ _ he => absurd he List.not_mem_nil⟩

omit [DecidableEq ν] in
theorem keyOf_ne_none : t.keyOf n ≠ none ↔ t.nodes n ≠ none := by
  simp [HTable.keyOf]

/-- After any operations on a new table, its memory holds the chains they make, and the loops go
over exactly these. -/
theorem htable_usable (t : HTable ν) (hsize : 0 < size)
    (ha : HTableOp.AllAllowed (fun n => t.nodes n ≠ none) size (fun _ => []) ops)
    (hfuel : ops.length < fuel) :
    ∃ t', Run.run (HTableOp.exec fuel) (hsHtableInit t size true).2 ops = some t' ∧
      t'.size = size ∧ Usable fuel t' (chainsOf size ops) := by
  obtain ⟨t', e, hs, h, hl⟩ := run_represents (represents_init t hsize) (fun m => keyOf_ne_none) ha
    fun i => by simpa using hfuel
  exact ⟨t', e, hs, h.usable hl⟩

/-- Two nodes in the second bucket of three, of which the one in front is removed. -/
theorem htable_usable_two :
    ∃ t' : HTable Nat, Run.run (HTableOp.exec 4)
        (hsHtableInit ⟨0, fun _ => none, fun _ => some ⟨none, 0⟩⟩ 3 true).2
        [.add 7 0, .insert 0 1, .remove 0] = some t' ∧
      t'.size = 3 ∧ Usable 4 t' (chainsOf 3 [.add 7 0, .insert 0 1, .remove 0]) := by
  have hlive (n : Nat) : (some ⟨none, 0⟩ : Option (HNode Nat)) ≠ none := Option.some_ne_none _
  refine htable_usable _ (by decide) ⟨⟨?_, hlive 0⟩, ?_⟩ (by decide)
  · rintro ⟨i, hi⟩
    cases hi
  rintro _ ⟨⟩
  refine ⟨⟨⟨1, by decide⟩, ?_, hlive 1⟩, ?_⟩
  · rintro ⟨i, hi⟩
    by_cases h1 : i = 1
    · subst h1
      exact absurd hi (by decide)
    · simp [HTableOp.apply, Chains.add, h1] at hi
  rintro _ ⟨⟩
  exact ⟨⟨1, by decide⟩, fun _ _ => trivial⟩

end Libhs
