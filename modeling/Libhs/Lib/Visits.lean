import Libhs.Lib.Walk

/-!
# The visits of a loop

A loop body that decides by what it saw: `act log n` says what is done to the node `n`
after the visits `log`, and how that round ends. `Traversed act order log f` says that a
loop over `order` made the visits `log`: it did at each node what `act` says, and went
on to the next node until the nodes were used up, or until a round left it.
-/

namespace Pointer

variable {ν δ α σ ρ : Type}

/-- How a loop ends, as the end of its last round. -/
def Exit.flow : Exit ρ α → Flow α
  | .fell => .next
  | .brk _ => .brk
  | .ret a => .ret a

/-- What a loop returns out of the calling function. -/
def Flow.value : Flow α → Option α
  | .ret a => some a
  | _ => none

/-- Visits that did what `act` says, after each of which the loop went on. -/
inductive Went (act : List (ν × δ) → ν → δ × Flow α) : List (ν × δ) → Prop
  | nil : Went act []
  | snoc {log : List (ν × δ)} {n : ν} (h : Went act log) (hnext : (act log n).2 = .next) :
      Went act (log ++ [(n, (act log n).1)])

/-- The visits of a loop over `order`, and the end of its last round. -/
inductive Traversed (act : List (ν × δ) → ν → δ × Flow α) (order : List ν) :
    List (ν × δ) → Flow α → Prop
  | all {log : List (ν × δ)} (h : Went act log) (hall : log.map Prod.fst = order) :
      Traversed act order log .next
  | left {log : List (ν × δ)} {n : ν} {rest : List ν} {f : Flow α} (h : Went act log)
      (hrest : log.map Prod.fst ++ n :: rest = order) (hf : (act log n).2 = f)
      (hleft : f ≠ .next) : Traversed act order (log ++ [(n, (act log n).1)]) f

variable {act : List (ν × δ) → ν → δ × Flow α} {order : List ν} {log : List (ν × δ)} {f : Flow α}

/-- A body that always goes on visits every node, in order. -/
theorem Traversed.all_of_always (h : Traversed act order log f)
    (ha : ∀ log n, (act log n).2 = .next) : log.map Prod.fst = order := by
  cases h with
  | all _ hall => exact hall
  | left _ _ hf hleft => exact absurd (hf.symm.trans (ha _ _)) hleft

/-- A loop body on a state with the visits so far. -/
def visit (act : List (ν × δ) → ν → δ × Flow α) (dispose : δ → ν → σ → Option σ) (n : ν)
    (s : σ × List (ν × δ)) : Option (Flow α × (σ × List (ν × δ))) := do
  let t ← dispose (act s.2 n).1 n s.1
  some ((act s.2 n).2, (t, s.2 ++ [(n, (act s.2 n).1)]))

theorem visit_some {dispose : δ → ν → σ → Option σ} {n : ν} {s t : σ}
    (h : dispose (act log n).1 n s = some t) :
    visit act dispose n (s, log) =
      some ((act log n).2, (t, log ++ [(n, (act log n).1)])) := by
  rw [visit, h]
  rfl

end Pointer
