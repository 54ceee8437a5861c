import Mathlib.Algebra.Group.Nat.Defs
import Mathlib.Algebra.Group.Int.Defs
import Mathlib.Tactic.Common

/-!
# C strings and error codes

The values every part of the library passes around.
-/

namespace Libhs

/-- A NUL-terminated `char` string: its bytes before the terminator. -/
@[ext]
structure CStr where
  bytes : List UInt8
  noNul : (0 : UInt8) ∉ bytes
deriving DecidableEq

/-- The bytes of an ASCII literal. -/
def ascii (s : String) : List UInt8 := s.toList.map fun c => UInt8.ofNat c.toNat

/-- `strcmp(s, literal) == 0`. -/
def CStr.is (s : CStr) (literal : String) : Bool := s.bytes = ascii literal

/-- A string literal. -/
def CStr.lit (s : String) (h : (0 : UInt8) ∉ ascii s := by decide) : CStr := ⟨ascii s, h⟩

def CStr.append (s t : CStr) : CStr := ⟨s.bytes ++ t.bytes, by simp [s.noNul, t.noNul]⟩

/-- `strstr` on the bytes of a string: what is left from the first occurrence of `pat`. -/
def strstr (pat : List UInt8) : List UInt8 → Option (List UInt8)
  | [] => if pat = [] then some [] else none
  | b :: s => if pat.isPrefixOf (b :: s) then some (b :: s) else strstr pat s

/-- `%hhu`. -/
def decimal (n : UInt8) : List UInt8 :=
  if 100 ≤ n then [0x30 + n / 100, 0x30 + n / 10 % 10, 0x30 + n % 10]
  else if 10 ≤ n then [0x30 + n / 10, 0x30 + n % 10]
  else [0x30 + n]

theorem forall_uint8 {p : UInt8 → Prop} (h : ∀ k : Fin 256, p (UInt8.ofNat k.val)) (b : UInt8) :
    p b := by
  have hb := h ⟨b.toNat, b.toNat_lt⟩
  rwa [UInt8.ofNat_toNat] at hb

theorem decimal_noNul : ∀ n : UInt8, (0 : UInt8) ∉ decimal n :=
  forall_uint8 (by decide +kernel)

/-- The string that `build_location_string` makes of the port numbers from the controller down. -/
def locationString (ports : List UInt8) : CStr where
  bytes := ascii "usb" ++ ports.flatMap fun p => 0x2D :: decimal p
  noNul := by
    intro hm
    rcases List.mem_append.mp hm with hm | hm
    · exact absurd hm (by decide)
    · obtain ⟨p, -, hp⟩ := List.mem_flatMap.mp hm
      rcases List.mem_cons.mp hp with hp | hp
      · cases hp
      · exact decimal_noNul p hp

/-- `hs_error_code`. -/
inductive HsErrorCode
  | memory
  | notFound
  | access
  | io
  | system
  | invalid
deriving DecidableEq, Repr

/-- The numeric values of `hs_error_code`. -/
def HsErrorCode.toInt : HsErrorCode → Int
  | .memory => -1
  | .notFound => -2
  | .access => -3
  | .io => -4
  | .system => -5
  | .invalid => -6

/-- `hs_error`: reports `fmt` (or the generic message of the code) to the log handler and returns
the code. Nothing in the library reads the log back, so only the returned value is kept. -/
def hsError (err : HsErrorCode) (_fmt : Option String) : Int := err.toInt

theorem hsError_neg (err : HsErrorCode) (fmt : Option String) : hsError err fmt < 0 := by
  cases err <;> simp [hsError, HsErrorCode.toInt]

/-- `if (!ok) return r;` -/
def orReturn (r : Int) (ok : Bool) : Except Int Unit := if ok then .ok () else .error r

/-- `if (!buf) return r;` -/
def someOrReturn {α : Type} (r : Int) : Option α → Except Int α
  | some buf => .ok buf
  | none => .error r

end Libhs
