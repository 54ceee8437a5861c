import Mathlib.Algebra.Group.Nat.Defs
import Mathlib.Algebra.Group.Int.Defs
import Mathlib.Tactic.Common

/-!
# The millisecond clock of POSIX and `hs_adjust_timeout`

`hs_millis` counts the nanoseconds of a reading in steps of 10 ms, as if a second had
100 milliseconds. `adjust_follows_iff`: for which readings a timeout that is adjusted
by this clock still follows the real one.
-/

namespace Libhs

/-- `hs_adjust_timeout`; `now` is what `hs_millis` returns. -/
def hsAdjustTimeout (now : UInt64) (timeout : Int32) (start : UInt64) : Int32 :=
  if timeout < 0 then -1
  else if now > start + timeout.toInt64.toUInt64 then 0
  else (start + timeout.toInt64.toUInt64 - now).toInt64.toInt32

/-! ## Adjusting a timeout -/

section Adjust

variable {now start : UInt64} {timeout : Int32}

theorem toUInt64_toNat (h : 0 ≤ timeout.toInt) :
    (timeout.toInt64.toUInt64.toNat : Int) = timeout.toInt := by
  have h64 : 0 ≤ timeout.toInt64 := by
    rw [Int64.le_iff_toInt_le, Int32.toInt_toInt64]
    exact h
  rw [Int64.toNat_toUInt64_of_le h64, Int32.toNatClampNeg_toInt64, ← Int32.toNat_toInt]
  exact Int.toNat_of_nonneg h

/-- A small number survives the cast to `int`. -/
theorem toInt32_toInt {x : UInt64} (h : x.toNat < 2 ^ 31) :
    x.toInt64.toInt32.toInt = x.toNat := by
  have h64 : x.toInt64.toInt = x.toNat := by
    show x.toBitVec.toInt = x.toBitVec.toNat
    exact BitVec.toInt_eq_toNat_of_lt (by rw [UInt64.toNat_toBitVec]; omega)
  rw [Int64.toInt_toInt32, h64]
  exact Int.bmod_eq_of_le (by omega) (by omega)

theorem hsAdjustTimeout_neg (h : timeout.toInt < 0) :
    (hsAdjustTimeout now timeout start).toInt = -1 := by
  unfold hsAdjustTimeout
  rw [if_pos (Int32.lt_iff_toInt_lt.mpr h)]
  rfl

/-- What is left of a timeout, with a clock that does not go back. -/
theorem hsAdjustTimeout_spec (h : 0 ≤ timeout.toInt) (hnow : start.toNat ≤ now.toNat)
    (hroom : start.toNat + timeout.toInt < 2 ^ 64) :
    (hsAdjustTimeout now timeout start).toInt =
      max 0 (start.toNat + timeout.toInt - now.toNat) := by
  have hcast := toUInt64_toNat h
  have hbound := timeout.toInt_lt
  have hstop : (start + timeout.toInt64.toUInt64).toNat =
      start.toNat + timeout.toInt64.toUInt64.toNat := by
    rw [UInt64.toNat_add]
    exact Nat.mod_eq_of_lt (by omega)
  unfold hsAdjustTimeout
  rw [if_neg (by rw [Int32.lt_iff_toInt_lt]; exact Int.not_lt.mpr h)]
  split
  · next hover =>
    have hlt : start.toNat + timeout.toInt64.toUInt64.toNat < now.toNat :=
      hstop ▸ UInt64.lt_iff_toNat_lt.mp hover
    show (0 : Int) = _
    omega
  · next hleft =>
    have hle : now.toNat ≤ (start + timeout.toInt64.toUInt64).toNat :=
      Nat.le_of_not_lt fun hlt => hleft (UInt64.lt_iff_toNat_lt.mpr hlt)
    have hsub : (start + timeout.toInt64.toUInt64 - now).toNat =
        start.toNat + timeout.toInt64.toUInt64.toNat - now.toNat := by
      rw [UInt64.toNat_sub_of_le _ _ (UInt64.le_iff_toNat_le.mpr hle), hstop]
    rw [toInt32_toInt (by omega), hsub]
    omega

end Adjust

/-! ## The clock -/

namespace Posix

/-- `struct timespec`, as `clock_gettime` fills it in. -/
structure Timespec where
  tvSec : Nat
  tvNsec : Nat
  nsec_lt : tvNsec < 1000000000

/-- `hs_millis` of `platform_posix.c`. -/
def hsMillis (ts : Timespec) : UInt64 :=
  UInt64.ofNat ts.tvSec * 1000 + UInt64.ofNat ts.tvNsec / 10000000

namespace Timespec

/-- The nanoseconds of a reading. -/
def nanos (t : Timespec) : Nat := t.tvSec * 1000000000 + t.tvNsec

/-- `hs_millis` of the reading does not overflow. -/
def Fits (t : Timespec) : Prop := t.tvSec * 1000 + t.tvNsec / 10000000 < 2 ^ 64

end Timespec

/-- The whole milliseconds between two readings. -/
def elapsed (t₀ t₁ : Timespec) : Int := ((t₁.nanos : Int) - t₀.nanos) / 1000000

/-- What `hs_adjust_timeout` leaves at `t₁` of a timeout that started at `t₀`. -/
def remaining (t₀ t₁ : Timespec) (timeout : Int32) : Int :=
  (hsAdjustTimeout (hsMillis t₁) timeout (hsMillis t₀)).toInt

/-- The timeout follows real time. -/
structure Follows (t₀ t₁ : Timespec) (timeout : Int32) : Prop where
  near : (remaining t₀ t₁ timeout - max 0 (timeout.toInt - elapsed t₀ t₁)).natAbs ≤ 1
  expired : (timeout.toInt + 1) * 1000000 < (t₁.nanos : Int) - t₀.nanos → remaining t₀ t₁ timeout = 0
  falls : ∀ t₂ : Timespec, t₁.nanos ≤ t₂.nanos → t₂.Fits →
    remaining t₀ t₂ timeout ≤ remaining t₀ t₁ timeout

/-- How far apart the nanoseconds of two readings are, in steps of 10 ms. -/
def steps (t₀ t₁ : Timespec) : Int :=
  ((t₁.tvNsec / 10000000 : Nat) : Int) - (t₀.tvNsec / 10000000 : Nat)

/-- How far apart they are in milliseconds. -/
def millis (t₀ t₁ : Timespec) : Int := ((t₁.tvNsec : Int) - t₀.tvNsec) / 1000000

/-- The whole seconds between two readings, in milliseconds. -/
def seconds (t₀ t₁ : Timespec) : Int := ((t₁.tvSec : Int) - t₀.tvSec) * 1000

/-- The steps and the milliseconds are the same number up to 1, or the timeout is over with either
of them; at exactly one millisecond after the timeout one step may be missing. -/
def Unharmed (t₀ t₁ : Timespec) (timeout : Int32) : Prop :=
  (steps t₀ t₁ - millis t₀ t₁).natAbs ≤ 1 ∨
    (timeout.toInt ≤ seconds t₀ t₁ + steps t₀ t₁ ∧
      timeout.toInt ≤ seconds t₀ t₁ + millis t₀ t₁ + 1) ∨
    (timeout.toInt = seconds t₀ t₁ + steps t₀ t₁ + 1 ∧
      (t₁.nanos : Int) - t₀.nanos = (timeout.toInt + 1) * 1000000)

/-! ## Two readings -/

theorem hsMillis_toNat {t : Timespec} (h : t.Fits) :
    (hsMillis t).toNat = t.tvSec * 1000 + t.tvNsec / 10000000 := by
  have hn := t.nsec_lt
  unfold Timespec.Fits at h
  have hsec : (UInt64.ofNat t.tvSec).toNat = t.tvSec :=
    UInt64.toNat_ofNat_of_lt' (by unfold UInt64.size; omega)
  have hnsec : (UInt64.ofNat t.tvNsec).toNat = t.tvNsec :=
    UInt64.toNat_ofNat_of_lt' (by unfold UInt64.size; omega)
  have hk : (1000 : UInt64).toNat = 1000 := rfl
  have hd : (10000000 : UInt64).toNat = 10000000 := rfl
  unfold hsMillis
  rw [UInt64.toNat_add, UInt64.toNat_mul, UInt64.toNat_div, hsec, hnsec, hk, hd]
  omega

/-- An earlier reading has fewer seconds, or as many and fewer steps. -/
theorem earlier_cases {t₀ t₁ : Timespec} (h : t₀.nanos ≤ t₁.nanos) :
    t₀.tvSec < t₁.tvSec ∨
      t₀.tvSec = t₁.tvSec ∧ t₀.tvNsec / 10000000 ≤ t₁.tvNsec / 10000000 := by
  have hn₀ := t₀.nsec_lt
  have hn₁ := t₁.nsec_lt
  unfold Timespec.nanos at h
  rcases Nat.lt_or_ge t₀.tvSec t₁.tvSec with hlt | hge
  · exact Or.inl hlt
  · exact Or.inr ⟨by omega, Nat.div_le_div_right (by omega)⟩

theorem hsMillis_mono {t₀ t₁ : Timespec} (h : t₀.nanos ≤ t₁.nanos) (h₀ : t₀.Fits) (h₁ : t₁.Fits) :
    (hsMillis t₀).toNat ≤ (hsMillis t₁).toNat := by
  have hsteps : t₀.tvNsec / 10000000 < 100 := Nat.div_lt_of_lt_mul t₀.nsec_lt
  rw [hsMillis_toNat h₀, hsMillis_toNat h₁]
  rcases earlier_cases h with hsec | ⟨hsec, hle⟩
  · omega
  · omega

theorem elapsed_eq (t₀ t₁ : Timespec) : elapsed t₀ t₁ = seconds t₀ t₁ + millis t₀ t₁ := by
  unfold elapsed seconds millis Timespec.nanos
  omega

section Readings

variable {t₀ t₁ t₂ : Timespec} {timeout : Int32}

/-- A timeout is adjusted by the seconds and the steps. -/
theorem remaining_eq (h : t₀.nanos ≤ t₁.nanos) (h₀ : t₀.Fits) (h₁ : t₁.Fits)
    (ht : 0 ≤ timeout.toInt) (hroom : (hsMillis t₀).toNat + timeout.toInt < 2 ^ 64) :
    remaining t₀ t₁ timeout = max 0 (timeout.toInt - (seconds t₀ t₁ + steps t₀ t₁)) := by
  unfold remaining
  rw [hsAdjustTimeout_spec ht (hsMillis_mono h h₀ h₁) hroom, hsMillis_toNat h₀, hsMillis_toNat h₁]
  unfold seconds steps
  omega

theorem remaining_falls (h : t₀.nanos ≤ t₁.nanos) (h₀ : t₀.Fits) (h₁ : t₁.Fits)
    (ht : 0 ≤ timeout.toInt) (hroom : (hsMillis t₀).toNat + timeout.toInt < 2 ^ 64)
    (h' : t₁.nanos ≤ t₂.nanos) (h₂ : t₂.Fits) :
    remaining t₀ t₂ timeout ≤ remaining t₀ t₁ timeout := by
  have hmono := hsMillis_mono h' h₁ h₂
  rw [hsMillis_toNat h₁, hsMillis_toNat h₂] at hmono
  rw [remaining_eq h h₀ h₁ ht hroom, remaining_eq (Nat.le_trans h h') h₀ h₂ ht hroom]
  unfold seconds steps
  omega

/-- A timeout follows real time exactly when the nanoseconds do no harm. -/
theorem adjust_follows_iff (h : t₀.nanos ≤ t₁.nanos) (h₀ : t₀.Fits) (h₁ : t₁.Fits)
    (ht : 0 ≤ timeout.toInt) (hroom : (hsMillis t₀).toNat + timeout.toInt < 2 ^ 64) :
    Follows t₀ t₁ timeout ↔ Unharmed t₀ t₁ timeout := by
  have hrem := remaining_eq h h₀ h₁ ht hroom
  have helapsed := elapsed_eq t₀ t₁
  constructor
  · rintro ⟨hnear, hexpired, -⟩
    rw [hrem] at hnear hexpired
    unfold Unharmed
    unfold elapsed at helapsed hnear
    omega
  · intro hun
    refine ⟨?_, fun hlate => ?_, fun t₂ h' h₂ => remaining_falls h h₀ h₁ ht hroom h' h₂⟩
    · rw [hrem]
      unfold Unharmed at hun
      unfold elapsed at helapsed ⊢
      omega
    · rw [hrem]
      unfold Unharmed at hun
      unfold elapsed at helapsed
      omega

end Readings

/-- Two seconds are counted right. -/
theorem adjust_follows_seconds :
    Follows ⟨10, 300000000, by decide⟩ ⟨12, 300000000, by decide⟩ 5000 :=
  (adjust_follows_iff (by decide) (by unfold Timespec.Fits; decide)
    (by unfold Timespec.Fits; decide) (by decide) (by decide)).mpr (Or.inl (by decide))

/-- Half a second is counted as 50 ms, and a timeout of 1 s is left with 950 ms. -/
theorem adjust_lags : ¬ Follows ⟨0, 0, by decide⟩ ⟨0, 500000000, by decide⟩ 1000 :=
  fun h => absurd h.near (by decide)

end Posix
end Libhs
