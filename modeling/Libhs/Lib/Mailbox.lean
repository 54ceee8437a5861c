import Mathlib.Tactic.Common

/-!
# A mailbox with a flag

One party posts items and raises a flag. Another one takes all that wait, consumes
them one by one, and puts back what is left when it gives up. The flag tells an
observer that there is something to do: items, or an error that was stored for the
consumer.

* Nothing is lost, doubled or reordered: `Conserved` is kept by every operation.
* The flag covers the items (`Covers`), as long as it is lowered only when nothing
  waits.
* The flag covers the error (`Tells`), as long as it is lowered only when there is
  none, and raised behind a store.
-/

/-- What was posted, and where it is now. `error < 0` is an error for the consumer. -/
structure Mailbox (β : Type) where
  posted : List β
  consumed : List β
  taken : List β
  waiting : List β
  error : Int
  flag : Bool

namespace Mailbox

variable {β : Type}

def empty : Mailbox β := ⟨[], [], [], [], 0, false⟩

/-- The operations. `fail` is `store` with a raised flag, and `putBack` lowers the flag if nothing is
left. -/
inductive Op (β : Type)
  | renew
  | post (b : β)
  | fail (r : Int)
  | store (r : Int)
  | raise
  | lower
  | take
  | consume
  | putBack

def apply (M : Mailbox β) : Op β → Mailbox β
  | .renew => empty
  | .post b => { M with posted := M.posted ++ [b], waiting := M.waiting ++ [b], flag := true }
  | .fail r => { M with error := r, flag := true }
  | .store r => { M with error := r }
  | .raise => { M with flag := true }
  | .lower => { M with flag := false }
  | .take => { M with taken := M.waiting, waiting := [], error := 0 }
  | .consume => { M with consumed := M.consumed ++ M.taken.take 1, taken := M.taken.drop 1 }
  | .putBack => { M with
      taken := []
      waiting := M.taken ++ M.waiting
      flag := M.flag && !(M.taken ++ M.waiting).isEmpty }

/-- The consumer takes only when it holds nothing. -/
def Allows (M : Mailbox β) : Op β → Prop
  | .take => M.taken = []
  | _ => True

/-- An operation, or none. -/
def applyOption (M : Mailbox β) : Option (Op β) → Mailbox β
  | none => M
  | some op => M.apply op

variable {M : Mailbox β} {op : Op β}

/-! ## Nothing is lost -/

/-- The items in the order of their places are the posted ones in their order. -/
def Conserved (M : Mailbox β) : Prop := M.consumed ++ M.taken ++ M.waiting = M.posted

theorem conserved_empty : (empty : Mailbox β).Conserved := rfl

theorem Conserved.apply (h : M.Conserved) (hop : M.Allows op) : (M.apply op).Conserved := by
  unfold Conserved at h ⊢
  cases op with
  | renew => rfl
  | post b =>
    show M.consumed ++ M.taken ++ (M.waiting ++ [b]) = M.posted ++ [b]
    rw [← List.append_assoc, h]
  | fail r => exact h
  | store r => exact h
  | raise => exact h
  | lower => exact h
  | take =>
    have ht : M.taken = [] := hop
    rw [ht, List.append_nil] at h
    show M.consumed ++ M.waiting ++ [] = M.posted
    rw [List.append_nil, h]
  | consume =>
    show M.consumed ++ M.taken.take 1 ++ M.taken.drop 1 ++ M.waiting = M.posted
    rw [List.append_assoc M.consumed, List.take_append_drop, h]
  | putBack =>
    show M.consumed ++ [] ++ (M.taken ++ M.waiting) = M.posted
    rw [List.append_nil, ← List.append_assoc, h]

/-! ## The flag -/

/-- Items that are not consumed keep the flag up. -/
def Covers (M : Mailbox β) : Prop := M.taken ++ M.waiting ≠ [] → M.flag = true

/-- Lowering the flag is safe for the items if there are none. -/
theorem Covers.apply (h : M.Covers) (hop : M.Allows op)
    (hlow : op = .lower → M.taken ++ M.waiting = []) : (M.apply op).Covers := by
  unfold Covers at h ⊢
  cases op with
  | renew => exact fun hne => absurd rfl hne
  | post b => exact fun _ => rfl
  | fail r => exact fun _ => rfl
  | store r => exact h
  | raise => exact fun _ => rfl
  | lower => exact fun hne => absurd (hlow rfl) hne
  | take =>
    have ht : M.taken = [] := hop
    rw [ht] at h
    intro hne
    exact h (by simpa [Mailbox.apply] using hne)
  | consume =>
    intro hne
    refine h fun hnil => hne ?_
    obtain ⟨ht, hw⟩ := List.append_eq_nil_iff.mp hnil
    simp [Mailbox.apply, ht, hw]
  | putBack =>
    intro hne
    have hne : M.taken ++ M.waiting ≠ [] := hne
    simp only [Mailbox.apply, h hne, Bool.true_and, Bool.not_eq_true', List.isEmpty_eq_false_iff]
    exact hne

/-- A stored error keeps the flag up. -/
def Tells (M : Mailbox β) : Prop := M.error < 0 → M.flag = true

/-- Lowering the flag, also by `putBack`, is safe for the error if there is none. -/
theorem Tells.apply (h : M.Tells) (hlow : op = .lower → ¬ M.error < 0)
    (hput : op = .putBack → M.taken ++ M.waiting = [] → ¬ M.error < 0)
    (hstore : ∀ r, op = .store r → ¬ r < 0) : (M.apply op).Tells := by
  unfold Tells at h ⊢
  cases op with
  | renew => exact fun hneg => absurd hneg (Int.lt_irrefl 0)
  | post b => exact fun _ => rfl
  | fail r => exact fun _ => rfl
  | store r => exact fun hneg => absurd hneg (hstore r rfl)
  | raise => exact fun _ => rfl
  | lower => exact fun hneg => absurd hneg (hlow rfl)
  | take => exact fun hneg => absurd hneg (Int.lt_irrefl 0)
  | consume => exact h
  | putBack =>
    intro hneg
    have hneg : M.error < 0 := hneg
    have hne : M.taken ++ M.waiting ≠ [] := fun hnil => hput rfl hnil hneg
    simp only [Mailbox.apply, h hneg, Bool.true_and, Bool.not_eq_true', List.isEmpty_eq_false_iff]
    exact hne

end Mailbox
