import Libhs.Darwin.Moves
import Libhs.Lib.Run

/-!
# A call of `hs_monitor_new` on macOS

The call is over when it left its steps. Then it has a monitor, or it failed and left
nothing (`newMonitor_returned`). `Progress` is the invariant in between.
-/

namespace Libhs.Darwin.Monitor
open Pointer Run

variable {u : User} {s s' : State} {R R' : Roster} {a : Action} {c : Nat} {alloc : Bool} {os : NewOs}

/-- A call of `hs_monitor_new` in the state `s₀` has returned. -/
def State.NewReturned (s₀ : State) (os : NewOs) (s : State) : Prop :=
  (s.main = .idle ∧ s.result = 0) ∨
    (s.main = .absent ∧ s.result < 0 ∧ Unwound s₀.world s.world os.allocates)

/-- How far the call is, when `c` monitors had been released before it. -/
def Progress (c : Nat) (alloc : Bool) (s : State) (R : Roster) : Prop :=
  match s.main with
  | .absent => s.result < 0 ∧ R.log.count .released = c + alloc.toNat
  | .idle => s.result = 0
  | .subscribing _ | .populating _ _ | .clearing => alloc = true ∧ R.log.count .released = c
  | _ => False

theorem Progress.returned {s₀ : State} (hs : Stands s R)
    (hp : Progress (s₀.world.log.count .released) os.allocates s R)
    (hout : s.main.starting = false) : s₀.NewReturned os s := by
  unfold Progress at hp
  cases hm : s.main with
  | absent =>
    rw [hm] at hp
    exact Or.inr ⟨hm, hp.1, (hs.absent hm).unwound hp.2⟩
  | idle =>
    rw [hm] at hp
    exact Or.inl ⟨hm, hp⟩
  | subscribing | populating | clearing =>
    rw [hm] at hout
    cases hout
  | receiving | attaching | detaching =>
    rw [hm] at hp
    exact hp.elim

theorem newMonitor_absent (h : Moves u s R (.newMonitor os) s' R') : s.main = .absent := by
  cases h with
  | refused hm | failed hm | started hm => exact hm

theorem reachable_stands (hu : u.limit ≤ uintMod) {services : List Service}
    {actions : List Action} (h : run (step u) (.start services) actions = some s) :
    ∃ R, Stands s R := by
  refine run_rule_always (I := fun s => ∃ R, Stands s R) ?_ ⟨_, stands_start services⟩ h
  rintro s a s' ⟨R, hs⟩ e
  obtain ⟨R', hs', -⟩ := step_moves hu hs e
  exact ⟨R', hs'⟩

/-! ## Failures -/

end Libhs.Darwin.Monitor
