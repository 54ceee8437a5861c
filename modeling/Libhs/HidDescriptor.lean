import Libhs.Basic

/-!
# `hid_linux.c`: the report descriptor scan

`parse_descriptor` walks over the items of a HID report descriptor and keeps what
the handle needs: whether a Report ID item occurs, and the usage page and usage
found outside of every collection. The descriptor is the list of its
`report->size` bytes, and reading past them fails.
-/

namespace Libhs

/-- The fields of the handle that `parse_descriptor` fills in. -/
structure HidInfo where
  numberedReports : Bool
  usagePage : UInt16
  usage : UInt16
deriving DecidableEq, Repr

/-- A handle fresh from `calloc`. -/
def HidInfo.zero : HidInfo := ⟨false, 0, 0⟩

/-- The bytes of a short item as a little endian number; `none` on a read past the descriptor. -/
def itemData (report : List UInt8) (i size : Nat) : Option UInt32 :=
  match size with
  | 1 => do
    let a ← report[i + 1]?
    some a.toUInt32
  | 2 => do
    let b ← report[i + 2]?
    let a ← report[i + 1]?
    some (b.toUInt32 <<< 8 ||| a.toUInt32)
  | 4 => do
    let d ← report[i + 4]?
    let c ← report[i + 3]?
    let b ← report[i + 2]?
    let a ← report[i + 1]?
    some (d.toUInt32 <<< 24 ||| c.toUInt32 <<< 16 ||| b.toUInt32 <<< 8 ||| a.toUInt32)
  | _ => some 0

/-- The loop of `parse_descriptor`: `size` is the size left by the previous item. -/
def parseDescriptorLoop (report : List UInt8) :
    Nat → Nat → Nat → UInt32 → HidInfo → Option HidInfo
  | 0, _, _, _, _ => none
  | fuel + 1, i, size, collectionDepth, h =>
    if i < report.length then do
      let prefixByte ← report[i]?
      if prefixByte = 0xFE then
        -- a long item; one cut right behind its prefix keeps the old `size`
        if i + 1 < report.length then do
          let len ← report[i + 1]?
          let size := len.toNat + 2
          parseDescriptorLoop report fuel (i + size + 1) size collectionDepth h
        else
          parseDescriptorLoop report fuel (i + size + 1) size collectionDepth h
      else
        let size := if prefixByte &&& 3 = 3 then 4 else (prefixByte &&& 3).toNat
        let type := prefixByte &&& 0xFC
        if i + size ≥ report.length then some h
        else do
          let data ← itemData report i size
          let next := parseDescriptorLoop report fuel (i + size + 1) size
          if type = 0xA0 then next (collectionDepth + 1) h
          else if type = 0xC0 then next (collectionDepth - 1) h
          else if type = 0x84 then next collectionDepth { h with numberedReports := true }
          else if type = 0x04 then
            next collectionDepth (if collectionDepth = 0 then { h with usagePage := data.toUInt16 } else h)
          else if type = 0x08 then
            next collectionDepth (if collectionDepth = 0 then { h with usage := data.toUInt16 } else h)
          else next collectionDepth h
    else some h

/-- `parse_descriptor`. The cursor advances in every round, so one round per byte is enough. -/
def parseDescriptor (h : HidInfo) (report : List UInt8) : Option HidInfo :=
  parseDescriptorLoop report (report.length + 1) 0 0 0 h

/-! ## Rounds -/

/-- The variables of the loop of `parse_descriptor`. -/
structure ScanState where
  i : Nat
  size : Nat
  depth : UInt32
  handle : HidInfo

/-- After a round the loop goes on, or the function has returned. -/
inductive ScanRound
  | next (s : ScanState)
  | returned (h : HidInfo)

/-- What the last `switch` of the loop body does to the nesting depth and to the handle. -/
def scanType (type : UInt8) (data : UInt32) (depth : UInt32) (h : HidInfo) : UInt32 × HidInfo :=
  if type = 0xA0 then (depth + 1, h)
  else if type = 0xC0 then (depth - 1, h)
  else if type = 0x84 then (depth, { h with numberedReports := true })
  else if type = 0x04 then (depth, if depth = 0 then { h with usagePage := data.toUInt16 } else h)
  else if type = 0x08 then (depth, if depth = 0 then { h with usage := data.toUInt16 } else h)
  else (depth, h)

theorem apply_scanType {α : Type} (f : UInt32 × HidInfo → α) (type : UInt8) (data depth : UInt32)
    (h : HidInfo) : f (scanType type data depth h) =
      if type = 0xA0 then f (depth + 1, h)
      else if type = 0xC0 then f (depth - 1, h)
      else if type = 0x84 then f (depth, { h with numberedReports := true })
      else if type = 0x04 then
        f (depth, if depth = 0 then { h with usagePage := data.toUInt16 } else h)
      else if type = 0x08 then f (depth, if depth = 0 then { h with usage := data.toUInt16 } else h)
      else f (depth, h) := by
  unfold scanType
  rw [apply_ite f, apply_ite f, apply_ite f, apply_ite f, apply_ite f]

/-- One round of the loop; `none` on a read past the descriptor. -/
def scanRound (report : List UInt8) (s : ScanState) : Option ScanRound :=
  if s.i < report.length then do
    let prefixByte ← report[s.i]?
    if prefixByte = 0xFE then
      if s.i + 1 < report.length then do
        let len ← report[s.i + 1]?
        let size := len.toNat + 2
        some (.next { s with i := s.i + size + 1, size := size })
      else some (.next { s with i := s.i + s.size + 1 })
    else
      let size := if prefixByte &&& 3 = 3 then 4 else (prefixByte &&& 3).toNat
      if s.i + size ≥ report.length then some (.returned s.handle)
      else do
        let data ← itemData report s.i size
        let (depth, h) := scanType (prefixByte &&& 0xFC) data s.depth s.handle
        some (.next ⟨s.i + size + 1, size, depth, h⟩)
  else some (.returned s.handle)

/-- The loop, round by round. -/
theorem parseDescriptorLoop_succ (report : List UInt8) (fuel : Nat) (s : ScanState) :
    parseDescriptorLoop report (fuel + 1) s.i s.size s.depth s.handle =
      (scanRound report s).bind fun
        | .next s => parseDescriptorLoop report fuel s.i s.size s.depth s.handle
        | .returned h => some h := by
  conv_lhs => unfold parseDescriptorLoop
  unfold scanRound
  by_cases hi : s.i < report.length
  · rw [if_pos hi, if_pos hi]
    cases hb : report[s.i]? with
    | none => rfl
    | some b =>
      show ite _ _ _ = Option.bind (ite _ _ _) _
      by_cases hlong : b = 0xFE
      · rw [if_pos hlong, if_pos hlong]
        by_cases hlast : s.i + 1 < report.length
        · rw [if_pos hlast, if_pos hlast]
          cases report[s.i + 1]? with
          | none => rfl
          | some len => rfl
        · rw [if_neg hlast, if_neg hlast]
          rfl
      · rw [if_neg hlong, if_neg hlong]
        generalize (if b &&& 3 = 3 then 4 else (b &&& 3).toNat) = size
        show ite _ _ _ = Option.bind (ite _ _ _) _
        by_cases hcut : s.i + size ≥ report.length
        · rw [if_pos hcut, if_pos hcut]
          rfl
        · rw [if_neg hcut, if_neg hcut]
          cases hdata : itemData report s.i size with
          | none => rfl
          | some data =>
            -- the loop goes on behind each case of the `switch`
            exact (apply_scanType (fun p => parseDescriptorLoop report fuel (s.i + size + 1) size p.1
              p.2) _ data s.depth s.handle).symm
  · rw [if_neg hi, if_neg hi]
    rfl

theorem itemData_some {report : List UInt8} {i size : Nat} (hs : i + size < report.length) :
    ∃ data, itemData report i size = some data := by
  have hget : ∀ j, j ≤ size → report[i + j]? = some report[i + j]! := by
    intro j hj
    have hlt : i + j < report.length := by omega
    simp [hlt]
  unfold itemData
  split
  · exact ⟨_, by rw [hget 1 (by omega)]; rfl⟩
  · exact ⟨_, by rw [hget 2 (by omega), hget 1 (by omega)]; rfl⟩
  · exact ⟨_, by rw [hget 4 (by omega), hget 3 (by omega), hget 2 (by omega),
      hget 1 (by omega)]; rfl⟩
  · exact ⟨0, rfl⟩

/-- A round stays inside of the descriptor. If the loop goes on, the cursor has moved behind what
the round took, which is at most a long item. -/
theorem scanRound_some (report : List UInt8) (s : ScanState) :
    ∃ r, scanRound report s = some r ∧ ∀ s', r = .next s' →
      s.i < report.length ∧ s'.i = s.i + s'.size + 1 ∧ (s'.size ≤ 257 ∨ s'.size = s.size) := by
  unfold scanRound
  split
  · next hi =>
    rw [List.getElem?_eq_getElem hi]
    simp only [Option.bind_eq_bind, Option.bind_some]
    split
    · split
      · next hlen =>
        rw [List.getElem?_eq_getElem hlen, Option.bind_some]
        refine ⟨_, rfl, fun s' h => ?_⟩
        cases h
        have hlt := report[s.i + 1].toNat_lt
        exact ⟨hi, rfl, Or.inl (by dsimp only; omega)⟩
      · -- the prefix of a long item is the last byte: `size` is that of the item before
        refine ⟨_, rfl, fun s' h => ?_⟩
        cases h
        exact ⟨hi, rfl, Or.inr rfl⟩
    · generalize hsize : (if report[s.i] &&& 3 = 3 then 4 else (report[s.i] &&& 3).toNat) = size
      split
      · exact ⟨_, rfl, nofun⟩
      · next hcut =>
        obtain ⟨data, hd⟩ := itemData_some (Nat.lt_of_not_le hcut)
        rw [hd, Option.bind_some]
        refine ⟨_, rfl, fun s' h => ?_⟩
        cases h
        have hlt := (report[s.i] &&& 3).toNat_lt
        refine ⟨hi, rfl, Or.inl ?_⟩
        rw [← hsize]
        dsimp only
        split <;> omega
  · exact ⟨_, rfl, nofun⟩

/-- The loop ends, as the cursor gets closer to the end in every round. -/
theorem parseDescriptorLoop_some {report : List UInt8} {fuel : Nat} {s : ScanState}
    (hpos : 0 < fuel) (hf : report.length < s.i + fuel) :
    ∃ h', parseDescriptorLoop report fuel s.i s.size s.depth s.handle = some h' := by
  induction fuel generalizing s with
  | zero => exact absurd hpos (Nat.lt_irrefl 0)
  | succ fuel ih =>
    obtain ⟨r, hr, hnext⟩ := scanRound_some report s
    rw [parseDescriptorLoop_succ, hr, Option.bind_some]
    cases r with
    | next s' =>
      obtain ⟨hi, hi', -⟩ := hnext s' rfl
      exact ih (by omega) (by omega)
    | returned h => exact ⟨h, rfl⟩

theorem parseDescriptor_some (h : HidInfo) (report : List UInt8) :
    ∃ h', parseDescriptor h report = some h' :=
  parseDescriptorLoop_some (s := ⟨0, 0, 0, h⟩) (Nat.succ_pos _) (by dsimp only; omega)

/-! ## Safety -/

/-- The states that the loop goes through. -/
inductive Scanned (report : List UInt8) (h : HidInfo) : ScanState → Prop
  | start : Scanned report h ⟨0, 0, 0, h⟩
  | round {s s'} : Scanned report h s → scanRound report s = some (.next s') → Scanned report h s'

theorem scanned_size {report : List UInt8} {h : HidInfo} {s : ScanState}
    (hs : Scanned report h s) : s.size ≤ 257 := by
  induction hs with
  | start => exact Nat.zero_le _
  | @round s s' _ hround ih =>
    obtain ⟨r, hr, hnext⟩ := scanRound_some report s
    obtain rfl := Option.some.inj (hr.symm.trans hround)
    obtain ⟨-, -, hsize | hsize⟩ := hnext s' rfl
    · exact hsize
    · exact hsize ▸ ih

/-- Whatever the bytes: the scan ends, and no round reads past them. The cursor moves in every
round, and never so far that it wraps. -/
theorem scan_safe {report : List UInt8} (hlen : report.length ≤ 4096) (h : HidInfo) :
    (∃ h', parseDescriptor h report = some h') ∧
    ∀ s, Scanned report h s → ∃ r, scanRound report s = some r ∧
      ∀ s', r = .next s' → s.i < s'.i ∧ s'.i < 2 ^ 32 := by
  refine ⟨parseDescriptor_some h report, fun s hs => ?_⟩
  obtain ⟨r, hr, hnext⟩ := scanRound_some report s
  refine ⟨r, hr, fun s' he => ?_⟩
  subst he
  have hsize := scanned_size (hs.round hr)
  obtain ⟨hi, hi', -⟩ := hnext s' rfl
  omega

/-- The prefix of a long item is the last byte. -/
theorem scan_safe_cut :
    (∃ h', parseDescriptor .zero [0x05, 0x01, 0xFE] = some h') ∧
    ∀ s, Scanned [0x05, 0x01, 0xFE] .zero s → ∃ r, scanRound [0x05, 0x01, 0xFE] s = some r ∧
      ∀ s', r = .next s' → s.i < s'.i ∧ s'.i < 2 ^ 32 :=
  scan_safe (by decide) .zero

end Libhs
