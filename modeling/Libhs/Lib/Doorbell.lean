import Mathlib.Tactic.Common

/-!
# A doorbell that counts

One party puts something where another one will collect it, and rings a bell: it
first decides to ring (`post`), and rings later (`ring`). The bell remembers how
often it was rung, up to a limit, and whoever collects the last thing takes one ring
away. So the count should be 1 while something waits, and else 0.

* Whoever waits for a ring is not left waiting: `Heard` is kept by every operation.
* The count is `Exact` as long as the operations are `Tidy`.
* A count that is too high stays too high (`Excess`): there is no repair.
-/

/-- Whether something waits, whether a ring is about to come, and the rings that were not taken
away. -/
structure Doorbell where
  waiting : Bool
  ringing : Bool
  rings : Nat

namespace Doorbell

/-- Nothing waits, and the bell was not rung. -/
def quiet : Doorbell := ⟨false, false, 0⟩

/-- `post` leaves something and may decide to ring, `poke` decides to ring for another reason, and
`collect` takes something away; `left` says that there is more. -/
inductive Op
  | post (rings : Bool)
  | poke
  | ring
  | collect (left : Bool)

def apply (limit : Nat) (b : Doorbell) : Op → Doorbell
  | .post rings => { b with waiting := true, ringing := rings }
  | .poke => { b with ringing := true }
  | .ring => { b with ringing := false, rings := if b.rings < limit then b.rings + 1 else b.rings }
  | .collect left => { b with waiting := left, rings := if left then b.rings else b.rings - 1 }

/-- Decisions come one after the other; the first thing rings; one collects what there is. -/
def Allows (b : Doorbell) : Op → Prop
  | .post rings => b.ringing = false ∧ (b.waiting = false → rings = true)
  | .poke => b.ringing = false
  | .ring => b.ringing = true
  | .collect _ => b.waiting = true

/-- No ring without a new reason, and the last thing is not collected before the ring. -/
def Tidy (b : Doorbell) : Op → Prop
  | .post rings => rings = true → b.waiting = false
  | .poke => False
  | .ring => True
  | .collect left => b.ringing = true → left = true

/-- An operation, or none. -/
def applyOption (limit : Nat) (b : Doorbell) : Option Op → Doorbell
  | none => b
  | some op => b.apply limit op

/-- What waits is rung for, or will be. -/
def Heard (b : Doorbell) : Prop := b.waiting = true → b.ringing = true ∨ 0 < b.rings

/-- There is a ring exactly when something waits. -/
def Exact (b : Doorbell) : Prop := b.rings + b.ringing.toNat = b.waiting.toNat

/-- There are more rings than there should be. -/
def Excess (b : Doorbell) : Prop := b.waiting.toNat < b.rings + b.ringing.toNat

variable {limit : Nat} {b : Doorbell} {op : Op}

theorem heard_quiet : quiet.Heard := nofun

theorem exact_quiet : quiet.Exact := rfl

theorem Heard.apply (h : b.Heard) (hl : 0 < limit) (hop : b.Allows op) :
    (b.apply limit op).Heard := by
  unfold Heard at h ⊢
  cases op with
  | post rings =>
    obtain ⟨hquiet, hfirst⟩ := hop
    intro _
    show rings = true ∨ 0 < b.rings
    cases hw : b.waiting with
    | false => exact Or.inl (hfirst hw)
    | true => exact Or.inr ((h hw).resolve_left (by simp [hquiet]))
  | poke => exact fun _ => Or.inl rfl
  | ring =>
    intro _
    refine Or.inr ?_
    show 0 < if b.rings < limit then b.rings + 1 else b.rings
    split
    · exact Nat.succ_pos _
    · omega
  | collect left =>
    intro hleft
    obtain rfl : left = true := hleft
    exact h hop

theorem Exact.apply (h : b.Exact) (hl : 0 < limit) (hop : b.Allows op) (ht : b.Tidy op) :
    (b.apply limit op).Exact := by
  obtain ⟨waiting, ringing, rings⟩ := b
  unfold Exact at h ⊢
  cases op with
  | post fires =>
    obtain ⟨rfl, hfirst⟩ := hop
    cases waiting with
    | false =>
      obtain rfl := hfirst rfl
      exact congrArg (· + 1) h
    | true =>
      obtain rfl : fires = false := Bool.eq_false_iff.mpr fun hf => Bool.noConfusion (ht hf)
      exact h
  | poke => exact ht.elim
  | ring =>
    obtain rfl : ringing = true := hop
    have hle := Bool.toNat_le waiting
    have h : rings + 1 = waiting.toNat := h
    have hlt : rings < limit := by omega
    show (if rings < limit then rings + 1 else rings) + 0 = waiting.toNat
    rw [if_pos hlt, h]
  | collect left =>
    obtain rfl : waiting = true := hop
    cases left with
    | true => exact h
    | false =>
      obtain rfl : ringing = false := Bool.eq_false_iff.mpr fun hr => Bool.noConfusion (ht hr)
      have h : rings + 0 = 1 := h
      show rings - 1 + 0 = 0
      omega

/-! ## A count that is too high -/

theorem Excess.apply (h : b.Excess) (hl : 1 < limit) (hop : b.Allows op) :
    (b.apply limit op).Excess := by
  obtain ⟨waiting, ringing, rings⟩ := b
  unfold Excess at h ⊢
  cases op with
  | post fires =>
    obtain ⟨rfl, hfirst⟩ := hop
    have h : waiting.toNat < rings + 0 := h
    show 1 < rings + fires.toNat
    cases waiting with
    | false =>
      obtain rfl := hfirst rfl
      have h : 0 < rings + 0 := h
      show 1 < rings + 1
      omega
    | true =>
      have h : 1 < rings + 0 := h
      omega
  | poke =>
    have h : waiting.toNat < rings + ringing.toNat := h
    have hle := Bool.toNat_le ringing
    show waiting.toNat < rings + 1
    omega
  | ring =>
    obtain rfl : ringing = true := hop
    have h : waiting.toNat < rings + 1 := h
    have hle := Bool.toNat_le waiting
    show waiting.toNat < (if rings < limit then rings + 1 else rings) + 0
    split <;> omega
  | collect left =>
    obtain rfl : waiting = true := hop
    cases left with
    | true => exact h
    | false =>
      have h : 1 < rings + ringing.toNat := h
      have hle := Bool.toNat_le ringing
      show 0 < rings - 1 + ringing.toNat
      omega

/-- An operation that is not tidy makes the count too high. -/
theorem Exact.apply_excess (h : b.Exact) (hop : b.Allows op) (ht : ¬ b.Tidy op) :
    (b.apply limit op).Excess := by
  obtain ⟨waiting, ringing, rings⟩ := b
  unfold Exact at h
  unfold Excess
  cases op with
  | post fires =>
    obtain ⟨rfl, -⟩ := hop
    obtain ⟨rfl, hw⟩ := Classical.not_imp.mp ht
    obtain rfl : waiting = true := Bool.not_eq_false _ ▸ hw
    have h : rings + 0 = 1 := h
    show 1 < rings + 1
    omega
  | poke =>
    obtain rfl : ringing = false := hop
    have h : rings + 0 = waiting.toNat := h
    show waiting.toNat < rings + 1
    omega
  | ring => exact absurd trivial ht
  | collect left =>
    obtain rfl : waiting = true := hop
    obtain ⟨rfl, hl⟩ := Classical.not_imp.mp ht
    obtain rfl : left = false := Bool.eq_false_iff.mpr hl
    show 0 < rings - 1 + 1
    omega

end Doorbell
