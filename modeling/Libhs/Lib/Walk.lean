import Libhs.Lib.Chain

/-!
# Traversals that cache the next node

The loop `for (cur = first, nxt = cur->next; cur != stop; cur = nxt, nxt = cur->next)`
over a circular list, whose body may change the memory: in particular it may
unlink and free the node it visits, because the next one was read before.

`walk` runs the loop for a bounded number of rounds and fails when a pointer it
follows is NULL or dangling, or when the bound is used up. `foreach_rule` is its
total-correctness rule: with an invariant over the nodes still to visit the loop
ends, within one round more than there are nodes.
-/

namespace Pointer

/-- How a round of a loop body ends. -/
inductive Flow (α : Type)
  | next
  | brk
  | ret (a : α)

/-- How the loop itself ends: its condition failed, a `break` at a node, a `return`. -/
inductive Exit (ρ α : Type)
  | fell
  | brk (x : ρ)
  | ret (a : α)

variable {σ ρ α : Type} [DecidableEq ρ]

/-- The loop from the pointers `cur` and `nxt`, both possibly NULL. -/
def walk (next : σ → ρ → Option (Option ρ)) (stop : ρ) (body : ρ → σ → Option (Flow α × σ)) :
    Nat → Option ρ → Option ρ → σ → Option (Exit ρ α × σ)
  | 0, _, _, _ => none
  | fuel + 1, cur, nxt, s =>
    if cur = some stop then some (.fell, s)
    else do
      let x ← cur
      let (flow, s) ← body x s
      match flow with
      | .next => do
        let y ← nxt
        let nxt' ← next s y
        walk next stop body fuel (some y) nxt' s
      | .brk => some (.brk x, s)
      | .ret a => some (.ret a, s)

/-- The whole loop, started behind `head` and stopped when it is back there. -/
def foreach (next : σ → ρ → Option (Option ρ)) (head : ρ) (body : ρ → σ → Option (Flow α × σ))
    (fuel : Nat) (s : σ) : Option (Exit ρ α × σ) := do
  let first ← next s head
  let x ← first
  let nxt ← next s x
  walk next head body fuel (some x) nxt s

variable {next : σ → ρ → Option (Option ρ)} {head : ρ} {body : ρ → σ → Option (Flow α × σ)}

/-- What a round owes the rest of the loop. -/
def Round (I : List ρ → σ → Prop) (Q : Exit ρ α → σ → Prop) (x : ρ) (l : List ρ) (s : σ) :
    Flow α → Prop
  | .next => I l s
  | .brk => Q (.brk x) s
  | .ret a => Q (.ret a) s

/-- The nodes `l` are still linked up to `head`, and the loop's last load is from a live head. -/
def Rest (next : σ → ρ → Option (Option ρ)) (head : ρ) (l : List ρ) (s : σ) : Prop :=
  Chain (next s) l head ∧ head ∉ l ∧ ∃ v, next s head = some v

omit [DecidableEq ρ] in
/-- Half way around a ring. -/
theorem Ring.rest {s : σ} {done todo : List ρ} (hr : Ring (next s) head (done ++ todo)) :
    Rest next head todo s := by
  have hc := hr.1
  rw [← List.cons_append, chain_append] at hc
  exact ⟨hc.2, fun hm => hr.head_not_mem (List.mem_append_right _ hm), _, hr.head_next⟩

omit [DecidableEq ρ] in
/-- The load `cur->next` of a round: from a node of `l`, or from the head. -/
theorem Rest.load {s : σ} {l : List ρ} (h : Rest next head l s) :
    ∃ w, next s (firstOr head l) = some w ∧ ∀ x l', l = x :: l' → w = some (firstOr head l') := by
  obtain ⟨hc, -, v, hv⟩ := h
  cases l with
  | nil => exact ⟨v, hv, fun _ _ h => nomatch h⟩
  | cons y l =>
    refine ⟨_, hc.1, ?_⟩
    rintro x l' h
    cases h
    rfl

theorem walk_rule {I : List ρ → σ → Prop} {Q : Exit ρ α → σ → Prop}
    (hrest : ∀ l s, I l s → Rest next head l s)
    (hstep : ∀ x l s, I (x :: l) s → ∃ f s', body x s = some (f, s') ∧ Round I Q x l s' f)
    (hdone : ∀ s, I [] s → Q .fell s)
    {l : List ρ} {s : σ} (nxt : Option ρ) {fuel : Nat} (hI : I l s)
    (hnxt : ∀ x l', l = x :: l' → nxt = some (firstOr head l')) (hfuel : l.length < fuel) :
    ∃ e s', walk next head body fuel (some (firstOr head l)) nxt s = some (e, s') ∧ Q e s' := by
  induction fuel generalizing l s nxt with
  | zero => exact absurd hfuel (Nat.not_lt_zero _)
  | succ fuel ih =>
    cases l with
    | nil => exact ⟨.fell, s, by simp [walk], hdone s hI⟩
    | cons x l =>
      have hx : x ≠ head := by
        rintro rfl
        exact (hrest _ _ hI).2.1 List.mem_cons_self
      obtain ⟨f, s', hb, hr⟩ := hstep x l s hI
      cases f with
      | brk => exact ⟨.brk x, s', by simp [walk, hx, hb], hr⟩
      | ret a => exact ⟨.ret a, s', by simp [walk, hx, hb], hr⟩
      | next =>
        have hI' : I l s' := hr
        obtain ⟨w, hw, hl⟩ := (hrest l s' hI').load
        obtain ⟨e, t, ht, hq⟩ := ih w hI' hl (by simpa using hfuel)
        refine ⟨e, t, ?_, hq⟩
        rw [hnxt x l rfl]
        simpa [walk, hx, hb, hw] using ht

/-- The rule of the cached-next loop. `I l s` is the invariant with `l` still to visit. -/
theorem foreach_rule {I : List ρ → σ → Prop} {Q : Exit ρ α → σ → Prop}
    (hrest : ∀ l s, I l s → Rest next head l s)
    (hstep : ∀ x l s, I (x :: l) s → ∃ f s', body x s = some (f, s') ∧ Round I Q x l s' f)
    (hdone : ∀ s, I [] s → Q .fell s)
    {l : List ρ} {s : σ} {fuel : Nat} (hI : I l s)
    (hstart : next s head = some (some (firstOr head l))) (hfuel : l.length < fuel) :
    ∃ e s', foreach next head body fuel s = some (e, s') ∧ Q e s' := by
  obtain ⟨w, hw, hl⟩ := (hrest l s hI).load
  obtain ⟨e, t, ht, hq⟩ := walk_rule hrest hstep hdone w hI hl hfuel
  refine ⟨e, t, ?_, hq⟩
  simpa [foreach, hstart, hw] using ht

end Pointer
