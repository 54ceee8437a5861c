import Libhs.Lib.Ticks

/-!
# The millisecond clocks of Windows and macOS

Both platforms convert a counter with a product of 64 bits. `millis_track_iff`: two
readings tell the time between them as long as this product does not wrap there.
-/

namespace Libhs
open Ticks

namespace Win32

/-- `GetTickCount64_fallback`, for the counter `now`; a frequency is a positive `LONGLONG`. -/
def getTickCount64Fallback (now freq : UInt64) : UInt64 := now * 1000 / freq

/-- `hs_millis` of `platform_win32.c`; old systems do not have `GetTickCount64`. -/
def hsMillis (getTickCount64 : Option UInt64) (now freq : UInt64) : UInt64 :=
  match getTickCount64 with
  | some ticks => ticks
  | none => getTickCount64Fallback now freq

end Win32

namespace Darwin

/-- `hs_millis` of `platform_darwin.c`, for the timebase `numer`, `denom`. -/
def hsMillis (now : UInt64) (numer denom : UInt32) : UInt64 :=
  now * numer.toUInt64 / denom.toUInt64 / 1000000

end Darwin

theorem getTickCount64Fallback_scaled (now freq : UInt64) :
    (Win32.getTickCount64Fallback now freq).toNat =
      scaled (2 ^ 64) 1000 freq.toNat now.toNat := by
  unfold Win32.getTickCount64Fallback
  rw [UInt64.toNat_div, UInt64.toNat_mul]
  rfl

theorem darwin_hsMillis_scaled (now : UInt64) (numer denom : UInt32) :
    (Darwin.hsMillis now numer denom).toNat =
      scaled (2 ^ 64) numer.toNat (denom.toNat * 1000000) now.toNat := by
  unfold Darwin.hsMillis
  rw [UInt64.toNat_div, UInt64.toNat_div, UInt64.toNat_mul, UInt32.toNat_toUInt64,
    UInt32.toNat_toUInt64, Nat.div_div_eq_div_mul]
  rfl

/-- On both platforms, for any two counters: the readings do not decrease and tell the time up to
a millisecond if and only if the product has wrapped equally often at both. -/
theorem millis_track_iff {a b : UInt64} (hab : a ≤ b) :
    (∀ freq : UInt64, 0 < freq.toNat → freq.toNat < 2 ^ 63 →
      (Tracks 1000 freq.toNat a.toNat b.toNat (Win32.hsMillis none a freq).toNat
          (Win32.hsMillis none b freq).toNat ↔
        a.toNat * 1000 / 2 ^ 64 = b.toNat * 1000 / 2 ^ 64)) ∧
    ∀ numer denom : UInt32, 0 < denom.toNat →
      (Tracks numer.toNat (denom.toNat * 1000000) a.toNat b.toNat
          (Darwin.hsMillis a numer denom).toNat (Darwin.hsMillis b numer denom).toNat ↔
        a.toNat * numer.toNat / 2 ^ 64 = b.toNat * numer.toNat / 2 ^ 64) := by
  have hle := UInt64.le_iff_toNat_le.mp hab
  refine ⟨fun freq hpos hfreq => ?_, fun numer denom hpos => ?_⟩
  · show Tracks _ _ _ _ (Win32.getTickCount64Fallback a freq).toNat
      (Win32.getTickCount64Fallback b freq).toNat ↔ _
    rw [getTickCount64Fallback_scaled, getTickCount64Fallback_scaled]
    exact tracks_iff hpos (by omega) hle
  · have hdenom := denom.toNat_lt
    rw [darwin_hsMillis_scaled, darwin_hsMillis_scaled]
    exact tracks_iff (by omega) (by omega) hle

/-- A counter of 10 MHz, after one and after two seconds. -/
theorem millis_track_seconds :
    Tracks 1000 10000000 10000000 20000000 (Win32.hsMillis none 10000000 10000000).toNat
      (Win32.hsMillis none 20000000 10000000).toNat :=
  ((millis_track_iff (a := 10000000) (b := 20000000) (by decide)).1 10000000 (by decide)
    (by decide)).mpr (div_eq_of_lt (by decide) (by decide))

/-- A counter of 3 GHz goes back after 71 days, and one of 33 MHz with the timebase
1000000000/33333335 after 9 minutes. -/
theorem millis_go_back :
    ¬ Tracks 1000 3000000000 18446744073709551 18446744073709552
        (Win32.hsMillis none 18446744073709551 3000000000).toNat
        (Win32.hsMillis none 18446744073709552 3000000000).toNat ∧
    ¬ Tracks 1000000000 33333335000000 18446744073 18446744074
        (Darwin.hsMillis 18446744073 1000000000 33333335).toNat
        (Darwin.hsMillis 18446744074 1000000000 33333335).toNat :=
  ⟨fun h => absurd h.mono (by decide +kernel), fun h => absurd h.mono (by decide +kernel)⟩

end Libhs
