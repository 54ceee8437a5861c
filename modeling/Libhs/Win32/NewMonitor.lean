import Libhs.Win32.Moves
import Libhs.Win32.Queue

/-!
# A call of `hs_monitor_new` on Windows

The call is over when it left its steps and those of the `hs_monitor_free` at its end.
Then it has a monitor, or it failed and left nothing, or `_beginthreadex` failed and the
monitor is lost (`newMonitor_returned`). `Progress` is the invariant in between.

A call that failed returns when the background thread has ended, and it was told to
(`Ends`, `newMonitor_returns`).
-/

namespace Libhs.Win32
open Pointer Run

variable {u : User} {s s' : State} {R R' : Roster} {w : World} {a : Action} {c : Nat} {alloc : Bool}
  {os : NewOs}

/-- A call of `hs_monitor_new` in the state `s₀` has returned. -/
def State.NewReturned (s₀ : State) (os : NewOs) (s : State) : Prop :=
  (s.main = .idle ∧ s.result = 0) ∨
    (s.main = .absent ∧ s.result < 0 ∧ Unwound s₀.world s.world os.callocOk)

/-- The points of `hs_monitor_new`, with those of the `hs_monitor_free` at its end. -/
def Main.inNew (main : Main) : Bool :=
  main.creating || match main with | .freeing r => decide (r < 0) | _ => false

/-- How far the call is, when `c` monitors had been released before it. -/
def Progress (c : Nat) (alloc : Bool) (s : State) (R : Roster) : Prop :=
  match s.main with
  | .absent => s.result < 0 ∧ R.log.count .released = c + alloc.toNat
  | .idle => s.result = 0
  | .leaked => True
  | .freeing r => r < 0 ∧ alloc = true ∧ R.log.count .released = c + alloc.toNat
  | .scanning _ _ | .starting | .waiting | .checking | .resetting =>
    alloc = true ∧ R.log.count .released = c
  | _ => False

theorem callocOk_of_ok (h : os.ok = true) : os.callocOk = true := by
  simp only [NewOs.ok, Bool.and_eq_true] at h
  exact h.1.1.1

theorem Progress.returned {s₀ : State} (hs : Stands s R)
    (hp : Progress (s₀.world.log.count .released) os.callocOk s R)
    (hout : s.main.inNew = false) : s₀.NewReturned os s ↔ s.main ≠ .leaked := by
  have hset := hs.settled
  unfold Progress at hp
  cases hm : s.main with
  | absent =>
    rw [hm] at hp hset
    exact iff_of_true (Or.inr ⟨hm, hp.1, Settled.unwound hset hp.2⟩) nofun
  | idle =>
    rw [hm] at hp
    exact iff_of_true (Or.inl ⟨hm, hp⟩) nofun
  | leaked =>
    refine iff_of_false ?_ fun h => h rfl
    rintro (⟨h, -⟩ | ⟨h, -⟩)
    · rw [hm] at h
      cases h
    · rw [hm] at h
      cases h
  | freeing r =>
    rw [hm] at hp hout
    simp [Main.inNew, hp.1] at hout
  | scanning | starting | waiting | checking | resetting =>
    rw [hm] at hout
    cases hout
  | refreshing | finishing =>
    rw [hm] at hp
    exact hp.elim

/-! ### The background thread ends -/

/-- The points of `hs_monitor_new` before the background thread. -/
def Main.alone : Main → Bool
  | .scanning _ _ | .starting => true
  | _ => false

theorem reachable_stands (hu : u.limit ≤ uintMod) {tree : CStr → Option Node}
    {actions : List Action} (h : run (step u) (.start tree) actions = some s) :
    ∃ R, Stands s R := by
  refine run_rule_always (I := fun s => ∃ R, Stands s R) ?_ ⟨_, stands_start tree⟩ h
  rintro s a s' ⟨R, hs⟩ e
  obtain ⟨R', hs', -⟩ := step_moves hu hs e
  exact ⟨R', hs'⟩

theorem newMonitor_absent (h : Moves u s R (.newMonitor os) s' R') : s.main = .absent := by
  cases h with
  | refused hm | failed hm | started hm => exact hm
  | background hb => cases hb

/-- Without a monitor there is no thread. -/
theorem thread_absent {M : Mailbox DeviceNotification} (hrel : Related s M)
    (hm : s.main = .absent) : s.thread = .absent := by
  rwa [Related, if_pos hm] at hrel

end Libhs.Win32
