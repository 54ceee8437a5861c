import Libhs.Location
import Libhs.MonitorSpec
import Libhs.Darwin.Enumerate
import Libhs.Win32.Monitor

/-!
# Interface names and device ids

`build_device_path` makes the name of an interface of a device from its id, and `extract_device_id`
takes the id out of such a name. `extractDeviceId_interfaceName`: for upper-case ids without `#` the
second undoes the first, under any of the four prefixes and whatever the case of the letters.
-/

namespace Libhs.Win32
open Darwin (hexDigit hexadecimal)

/-! ## Definitions -/

/-- `GUID`. -/
structure Guid where
  data1 : UInt32
  data2 : UInt16
  data3 : UInt16
  data4 : Vector UInt8 8

/-- `%0<width>x`. -/
def hexPadded (width n : Nat) : List UInt8 := List.leftpad width 0x30 (hexadecimal n)

/-- What `sprintf` formats behind the `#`. -/
def guidText (guid : Guid) : List UInt8 :=
  [0x7B] ++ hexPadded 8 guid.data1.toNat ++ [0x2D] ++ hexPadded 4 guid.data2.toNat ++ [0x2D] ++
    hexPadded 4 guid.data3.toNat ++ [0x2D] ++
    (guid.data4.toList.take 2).flatMap (fun b => hexPadded 2 b.toNat) ++ [0x2D] ++
    (guid.data4.toList.drop 2).flatMap (fun b => hexPadded 2 b.toNat) ++ [0x7D]

/-- The loop of `build_device_path`: the buffer and `ptr` behind the id. -/
def copyId {n : Nat} : List UInt8 → CharBuf n → Nat → Option (CharBuf n × Nat)
  | [], buf, ptr => some (buf, ptr)
  | b :: id, buf, ptr => do
    let buf ← buf.store ptr [if b = 0x5C then 0x23 else b]
    copyId id buf (ptr + 1)

/-- `build_device_path`; `buf` is the memory that `malloc` gives, if it does. There is no value if
something is written behind it. -/
def buildDevicePath (id : CStr) (guid : Guid)
    (buf : Option (CharBuf (4 + id.bytes.length + 41))) : Option (Except Int CStr) :=
  match buf with
  | none => some (.error (hsError .memory none))
  | some path => do
    let path ← path.store 0 (ascii "\\\\.\\" ++ [0])
    let (path, ptr) ← copyId id.bytes path 4
    let path ← path.store ptr ([0x23] ++ guidText guid ++ [0])
    let path ← path.str
    return .ok path

/-- `while (--s >= start)`: the last byte before `k` that is accepted. -/
def strrpbrkLoop (s accept : List UInt8) : Nat → Option Nat
  | 0 => none
  | k + 1 => if (s[k]?).any accept.contains then some k else strrpbrkLoop s accept k

/-- `strrpbrk`: the position that it finds. -/
def strrpbrk (s accept : List UInt8) : Option Nat := strrpbrkLoop s accept s.length

/-- The prefixes that `extract_device_id` skips. -/
def namespaces : List (List UInt8) :=
  [ascii "\\\\?\\", ascii "\\\\.\\", ascii "##.#", ascii "##?#"]

/-- `toupper` in the C locale. -/
def toupper (b : UInt8) : UInt8 := if 0x61 ≤ b ∧ b ≤ 0x7A then b - 0x20 else b

/-- The texts differ in the case of letters only. -/
def SameLetters (s t : List UInt8) : Prop := s.map toupper = t.map toupper

/-- The id has upper-case letters only, and no `#`. -/
def Canonical (id : CStr) : Prop := ∀ b ∈ id.bytes, b ≠ 0x23 ∧ ¬ (0x61 ≤ b ∧ b ≤ 0x7A)

/-! ## The last separator -/

theorem contains_separators : ∀ b : UInt8, (ascii "\\#").contains b = isSeparator b :=
  forall_uint8 (by decide +kernel)

theorem cutGuid_append {s rest : List UInt8} {b : UInt8} (hb : isSeparator b = true)
    (hr : ∀ x ∈ rest, isSeparator x = false) :
    cutGuid (s ++ b :: rest) = if rest.head? = some 0x7B then s else s ++ b :: rest := by
  have hlast : ((s ++ b :: rest).reverse.takeWhile fun b => !isSeparator b).reverse = rest := by
    rw [List.reverse_append, List.reverse_cons, List.append_assoc,
      List.takeWhile_append_of_pos fun x hx => by rw [hr x (List.mem_reverse.mp hx)]; rfl]
    simp [hb]
  have hlt : rest.length < (s ++ b :: rest).length := by
    rw [List.length_append, List.length_cons]
    omega
  have htake : (s ++ b :: rest).take ((s ++ b :: rest).length - rest.length - 1) = s := by
    have hk : (s ++ b :: rest).length - rest.length - 1 = s.length := by
      rw [List.length_append, List.length_cons]
      omega
    rw [hk, List.take_left]
  unfold cutGuid
  dsimp only
  rw [hlast, htake]
  by_cases hh : rest.head? = some 0x7B
  · exact (if_pos ⟨hlt, hh⟩).trans (if_pos hh).symm
  · exact (if_neg fun h => hh h.2).trans (if_neg hh).symm

theorem cutGuid_none {s : List UInt8} (hs : ∀ x ∈ s, isSeparator x = false) : cutGuid s = s := by
  have hlast : (s.reverse.takeWhile fun b => !isSeparator b).reverse = s := by
    rw [List.takeWhile_eq_self_iff.mpr fun x hx => by rw [hs x (List.mem_reverse.mp hx)]; rfl,
      List.reverse_reverse]
  unfold cutGuid
  rw [hlast]
  exact if_neg fun h => Nat.lt_irrefl _ h.1

theorem last_separator (s : List UInt8) :
    (∀ x ∈ s, isSeparator x = false) ∨
      ∃ t b rest, s = t ++ b :: rest ∧ isSeparator b = true ∧
        ∀ x ∈ rest, isSeparator x = false := by
  induction s with
  | nil => exact .inl nofun
  | cons a s ih =>
    rcases ih with hno | ⟨t, b, rest, rfl, hb, hr⟩
    · cases ha : isSeparator a with
      | true => exact .inr ⟨[], a, s, rfl, ha, hno⟩
      | false =>
        refine .inl fun x hx => ?_
        rcases List.mem_cons.mp hx with rfl | hx
        · exact ha
        · exact hno x hx
    · exact .inr ⟨a :: t, b, rest, rfl, hb, hr⟩

theorem strrpbrkLoop_append {t rest : List UInt8} (hr : ∀ x ∈ rest, isSeparator x = false) {n : Nat}
    (hn : n ≤ rest.length) :
    strrpbrkLoop (t ++ rest) (ascii "\\#") (t.length + n) =
      strrpbrkLoop (t ++ rest) (ascii "\\#") t.length := by
  induction n with
  | zero => rfl
  | succ n ih =>
    have hx : (t ++ rest)[t.length + n]? = some rest[n] := by
      rw [List.getElem?_append_right (Nat.le_add_right _ _), Nat.add_sub_cancel_left,
        List.getElem?_eq_getElem]
    rw [← Nat.add_assoc, strrpbrkLoop, hx, Option.any_some, contains_separators,
      hr _ (List.getElem_mem _), if_neg Bool.false_ne_true]
    exact ih (Nat.le_of_succ_le hn)

/-- `extract_device_id` cuts the id at what `strrpbrk` finds. -/
theorem cutGuid_eq_strrpbrk (id : List UInt8) :
    cutGuid id = match strrpbrk id (ascii "\\#") with
      | some k => if id[k + 1]? = some 0x7B then id.take k else id
      | none => id := by
  rcases last_separator id with hno | ⟨t, b, rest, rfl, hb, hr⟩
  · have hs := strrpbrkLoop_append (t := []) hno (Nat.le_refl _)
    rw [List.nil_append, List.length_nil, Nat.zero_add] at hs
    rw [cutGuid_none hno, strrpbrk, hs]
    rfl
  · have hs := strrpbrkLoop_append (t := t ++ [b]) hr (Nat.le_refl _)
    rw [List.append_assoc, List.singleton_append, List.length_append, List.length_singleton] at hs
    have hlen : t.length + 1 + rest.length = (t ++ b :: rest).length := by
      rw [List.length_append, List.length_cons]
      omega
    have hx : (t ++ b :: rest)[t.length]? = some b := by
      rw [List.getElem?_append_right (Nat.le_refl _), Nat.sub_self, List.getElem?_cons_zero]
    rw [cutGuid_append hb hr, strrpbrk, ← hlen, hs, strrpbrkLoop, hx, Option.any_some,
      contains_separators, hb, if_pos rfl]
    have hhead : (t ++ b :: rest)[t.length + 1]? = rest.head? := by
      rw [List.getElem?_append_right (Nat.le_add_right _ 1), Nat.add_sub_cancel_left,
        List.getElem?_cons_succ, List.head?_eq_getElem?]
    dsimp only
    rw [hhead, List.take_left]

/-! ## The case of letters -/

/-- What `extract_device_id` does to a byte behind `toupper`. -/
def hashToBackslash (b : UInt8) : UInt8 := if b = 0x23 then 0x5C else b

/-- What `build_device_path` does to a byte of the id. -/
def backslashToHash (b : UInt8) : UInt8 := if b = 0x5C then 0x23 else b

theorem upcase_eq : ∀ b, upcase b = hashToBackslash (toupper b) :=
  forall_uint8 (by decide +kernel)

theorem isSeparator_toupper : ∀ b, isSeparator (toupper b) = isSeparator b :=
  forall_uint8 (by decide +kernel)

theorem toupper_brace_iff : ∀ b, toupper b = 0x7B ↔ b = 0x7B :=
  forall_uint8 (by decide +kernel)

theorem toupper_cases : ∀ b, toupper b = b ∨ (0x41 ≤ toupper b ∧ toupper b ≤ 0x5A) :=
  forall_uint8 (by decide +kernel)

/-- The trip of a byte of a canonical id. -/
theorem upcase_backslashToHash : ∀ b, b ≠ 0x23 ∧ ¬ (0x61 ≤ b ∧ b ≤ 0x7A) →
    hashToBackslash (toupper (backslashToHash b)) = b :=
  forall_uint8 (by decide +kernel)

theorem SameLetters.nonletters {s t : List UInt8} (h : SameLetters s t)
    (ht : ∀ b ∈ t, toupper b = b ∧ ¬ (0x41 ≤ b ∧ b ≤ 0x5A)) : s = t := by
  have hid : t.map toupper = t :=
    (List.map_congr_left fun b hb => (ht b hb).1).trans (List.map_id t)
  have hst : s.map toupper = t := h.trans hid
  have hs : s.map toupper = s := by
    refine (List.map_congr_left fun b hb => ?_).trans (List.map_id s)
    have hm : toupper b ∈ t := hst ▸ List.mem_map_of_mem hb
    exact (toupper_cases b).resolve_right (ht _ hm).2
  exact hs.symm.trans hst

theorem SameLetters.separators {s t : List UInt8} (h : SameLetters s t)
    (ht : ∀ b ∈ t, isSeparator b = false) : ∀ b ∈ s, isSeparator b = false := by
  intro b hb
  have hm : toupper b ∈ t.map toupper := h ▸ List.mem_map_of_mem hb
  obtain ⟨c, hc, he⟩ := List.mem_map.mp hm
  rw [← isSeparator_toupper, ← he, isSeparator_toupper, ht c hc]

theorem namespaces_spec {pre : List UInt8} (h : pre ∈ namespaces) :
    pre.length = 4 ∧ ∀ b ∈ pre, toupper b = b ∧ ¬ (0x41 ≤ b ∧ b ≤ 0x5A) := by
  revert pre
  decide +kernel

theorem skipNamespace_append {pre : List UInt8} (h : pre ∈ namespaces) (rest : List UInt8) :
    skipNamespace (pre ++ rest) = rest := by
  have hany : namespaces.any (·.isPrefixOf (pre ++ rest)) = true :=
    List.any_eq_true.mpr ⟨pre, h, List.isPrefixOf_iff_prefix.mpr (List.prefix_append pre rest)⟩
  exact (if_pos hany).trans (by rw [← (namespaces_spec h).1, List.drop_left])

/-! ## The text of a GUID -/

theorem hexDigit_spec : ∀ d < 16, isSeparator (hexDigit d) = false ∧ hexDigit d ≠ 0 := by
  decide

theorem hexPadded_spec {width n : Nat} {b : UInt8} (h : b ∈ hexPadded width n) :
    isSeparator b = false ∧ b ≠ 0 := by
  unfold hexPadded List.leftpad hexadecimal at h
  rcases List.mem_append.mp h with hz | hx
  · rw [List.eq_of_mem_replicate hz]
    decide
  · split at hx
    · rw [List.mem_singleton.mp hx]
      decide
    · obtain ⟨d, hd, rfl⟩ := List.mem_map.mp (List.mem_reverse.mp hx)
      exact hexDigit_spec d (Nat.digits_lt_base (by decide) hd)

theorem hexPadded_length (width : Nat) {n : Nat} (hw : 0 < width) (hn : n < 16 ^ width) :
    (hexPadded width n).length = width := by
  have hle : (hexadecimal n).length ≤ width := by
    unfold hexadecimal
    split
    · exact hw
    · rw [List.length_reverse, List.length_map]
      exact (Nat.digits_length_le_iff (by decide) _).mpr hn
  rw [hexPadded, List.length_leftpad, Nat.max_eq_left hle]

theorem hexBytes_length (l : List UInt8) :
    (l.flatMap fun b => hexPadded 2 b.toNat).length = 2 * l.length := by
  induction l with
  | nil => rfl
  | cons b l ih =>
    rw [List.flatMap_cons, List.length_append, ih, hexPadded_length 2 (by decide) b.toNat_lt,
      List.length_cons]
    omega

theorem guidText_length (guid : Guid) : (guidText guid).length = 38 := by
  have h1 := hexPadded_length 8 (by decide) guid.data1.toNat_lt
  have h2 := hexPadded_length 4 (by decide) guid.data2.toNat_lt
  have h3 := hexPadded_length 4 (by decide) guid.data3.toNat_lt
  simp only [guidText, List.length_append, List.length_singleton, h1, h2, h3, hexBytes_length,
    List.length_take, List.length_drop, Vector.length_toList]
  rfl

theorem guidText_bytes {guid : Guid} {b : UInt8} (h : b ∈ guidText guid) :
    isSeparator b = false ∧ b ≠ 0 := by
  have hpunct : ∀ c : UInt8, c = 0x7B ∨ c = 0x2D ∨ c = 0x7D → isSeparator c = false ∧ c ≠ 0 := by
    rintro c (rfl | rfl | rfl)
    · decide
    · decide
    · decide
  have hbytes : ∀ l : List UInt8, b ∈ l.flatMap (fun b => hexPadded 2 b.toNat) →
      isSeparator b = false ∧ b ≠ 0 := by
    intro l hm
    obtain ⟨c, _, hc⟩ := List.mem_flatMap.mp hm
    exact hexPadded_spec hc
  simp only [guidText, List.mem_append, List.mem_singleton] at h
  rcases h with (((((((((h | h) | h) | h) | h) | h) | h) | h) | h) | h) | h
  · exact hpunct b (.inl h)
  · exact hexPadded_spec h
  · exact hpunct b (.inr (.inl h))
  · exact hexPadded_spec h
  · exact hpunct b (.inr (.inl h))
  · exact hexPadded_spec h
  · exact hpunct b (.inr (.inl h))
  · exact hbytes _ h
  · exact hpunct b (.inr (.inl h))
  · exact hbytes _ h
  · exact hpunct b (.inr (.inr h))

/-! ## The buffer -/

theorem CharBuf.store_behind {n : Nat} {buf : CharBuf n} {s : List UInt8} (h : s <+: buf.mem)
    {t : List UInt8} (hroom : s.length + t.length ≤ n) :
    ∃ buf', buf.store s.length t = some buf' ∧ s ++ t <+: buf'.mem := by
  have hs : buf.mem.take s.length = s := (List.prefix_iff_eq_take.mp h).symm
  unfold CharBuf.store
  rw [dif_pos hroom]
  exact ⟨_, rfl, buf.mem.drop (s.length + t.length), by simp only [hs]⟩

theorem copyId_spec {n : Nat} {buf : CharBuf n} {s : List UInt8} (h : s <+: buf.mem)
    (id : List UInt8) (hroom : s.length + id.length ≤ n) :
    ∃ buf', copyId id buf s.length = some (buf', s.length + id.length) ∧
      s ++ id.map backslashToHash <+: buf'.mem := by
  induction id generalizing buf s with
  | nil => exact ⟨buf, rfl, by simpa using h⟩
  | cons b id ih =>
    rw [List.length_cons] at hroom
    obtain ⟨buf₁, e₁, h₁⟩ := CharBuf.store_behind h (t := [backslashToHash b])
      (by rw [List.length_singleton]; omega)
    obtain ⟨buf₂, e₂, h₂⟩ := ih h₁ (by rw [List.length_append, List.length_singleton]; omega)
    rw [List.length_append, List.length_singleton] at e₂
    refine ⟨buf₂, ?_, by simpa using h₂⟩
    rw [copyId, show (if b = 0x5C then 0x23 else b) = backslashToHash b from rfl, e₁,
      Option.bind_eq_bind, Option.bind_some, e₂, List.length_cons, Nat.add_assoc,
      Nat.add_comm 1]

/-- The interface name that `build_device_path` makes. -/
def interfaceName (id : CStr) (guid : Guid) : List UInt8 :=
  ascii "\\\\.\\" ++ id.bytes.map backslashToHash ++ ([0x23] ++ guidText guid)

theorem interfaceName_length (id : CStr) (guid : Guid) :
    (interfaceName id guid).length = 4 + id.bytes.length + 39 := by
  have hp : (ascii "\\\\.\\").length = 4 := rfl
  rw [interfaceName, List.length_append, List.length_append, List.length_append, List.length_map,
    hp, guidText_length, List.length_singleton]

theorem interfaceName_noNul (id : CStr) (guid : Guid) : (0 : UInt8) ∉ interfaceName id guid := by
  have hb : ∀ b, backslashToHash b = 0 → b = 0 := forall_uint8 (by decide +kernel)
  intro hm
  simp only [interfaceName, List.mem_append, List.mem_singleton] at hm
  rcases hm with (hm | hm) | hm | hm
  · exact absurd hm (by decide)
  · obtain ⟨b, hmem, h0⟩ := List.mem_map.mp hm
    exact id.noNul (hb b h0 ▸ hmem)
  · cases hm
  · exact (guidText_bytes hm).2 rfl

/-- The name fits the memory, with its terminator and a byte to spare. -/
theorem buildDevicePath_spec (id : CStr) (guid : Guid) (buf : CharBuf (4 + id.bytes.length + 41)) :
    buildDevicePath id guid (some buf) =
      some (.ok ⟨interfaceName id guid, interfaceName_noNul id guid⟩) := by
  have hp : (ascii "\\\\.\\").length = 4 := rfl
  have h₀ : [] <+: buf.mem := List.nil_prefix
  obtain ⟨buf₁, e₁, h₁⟩ := CharBuf.store_behind h₀
    (t := ascii "\\\\.\\" ++ [0]) (by
      rw [List.length_append, hp, List.length_singleton, List.length_nil]
      omega)
  rw [List.nil_append] at h₁
  have h₁' := (List.prefix_append (ascii "\\\\.\\") [0]).trans h₁
  obtain ⟨buf₂, e₂, h₂⟩ := copyId_spec h₁' id.bytes (by rw [hp]; omega)
  rw [hp] at e₂
  have hlen : (ascii "\\\\.\\" ++ id.bytes.map backslashToHash).length = 4 + id.bytes.length := by
    rw [List.length_append, List.length_map, hp]
  obtain ⟨buf₃, e₃, h₃⟩ := CharBuf.store_behind h₂ (t := [0x23] ++ guidText guid ++ [0]) (by
    rw [hlen, List.length_append, List.length_append, guidText_length, List.length_singleton]
    exact Nat.add_le_add_left (by decide) _)
  rw [hlen] at e₃
  have hs : buf₃.Starts (interfaceName id guid) := by
    rw [CharBuf.Starts, interfaceName]
    simpa only [List.append_assoc] using h₃
  have hstr := CharBuf.Starts.str (s := ⟨interfaceName id guid, interfaceName_noNul id guid⟩) hs
  have e₁' : buf.store 0 (ascii "\\\\.\\" ++ [0]) = some buf₁ := e₁
  simp only [buildDevicePath, e₁', e₂, e₃, hstr, Option.bind_eq_bind, Option.bind_some]
  rfl

/-! ## The trip -/

theorem drop_interfaceName (id : CStr) (guid : Guid) :
    (interfaceName id guid).drop 4 = id.bytes.map backslashToHash ++ 0x23 :: guidText guid := by
  have hp : (ascii "\\\\.\\").length = 4 := rfl
  rw [interfaceName, List.append_assoc, ← hp, List.drop_left]
  rfl

/-- The parts of a name, whatever the case of its letters. -/
theorem sameLetters_parts {pre name : List UInt8} {id : CStr} {guid : Guid}
    (hpre : pre ∈ namespaces) (h : SameLetters name (pre ++ (interfaceName id guid).drop 4)) :
    ∃ s b rest, name = pre ++ (s ++ b :: rest) ∧
      SameLetters s (id.bytes.map backslashToHash) ∧ isSeparator b = true ∧
      (∀ x ∈ rest, isSeparator x = false) ∧ rest.head? = some 0x7B := by
  rw [drop_interfaceName, SameLetters, List.map_append, List.map_append, List.map_cons] at h
  obtain ⟨p, t, rfl, hp, ht⟩ := List.map_eq_append_iff.mp h
  obtain ⟨s, t, rfl, hs, ht⟩ := List.map_eq_append_iff.mp ht
  obtain ⟨b, rest, rfl, hb, hr⟩ := List.map_eq_cons_iff.mp ht
  have hp' : p = pre := SameLetters.nonletters hp (namespaces_spec hpre).2
  refine ⟨s, b, rest, by rw [hp'], hs, ?_, ?_, ?_⟩
  · rw [← isSeparator_toupper, hb]
    rfl
  · exact SameLetters.separators hr fun x hx => (guidText_bytes hx).1
  · have hh := congrArg List.head? hr
    rw [List.head?_map, List.head?_map] at hh
    obtain ⟨x, hx, he⟩ := Option.map_eq_some_iff.mp
      (hh.trans (show (guidText guid).head?.map toupper = some 0x7B from rfl))
    rw [hx, (toupper_brace_iff x).mp he]

/-- `extract_device_id` undoes `build_device_path`. -/
theorem extractDeviceId_eq {pre : List UInt8} {name id : CStr} {guid : Guid} (hid : Canonical id)
    (hpre : pre ∈ namespaces)
    (h : SameLetters name.bytes (pre ++ (interfaceName id guid).drop 4)) :
    extractDeviceId name = id := by
  obtain ⟨s, b, rest, hname, hs, hb, hr, hhead⟩ := sameLetters_parts hpre h
  have hbytes : (extractDeviceId name).bytes = s.map upcase := by
    show (cutGuid (skipNamespace name.bytes)).map upcase = _
    rw [hname, skipNamespace_append hpre, cutGuid_append hb hr, if_pos hhead]
  refine CStr.ext ?_
  calc (extractDeviceId name).bytes = (s.map toupper).map hashToBackslash := by
        rw [hbytes, List.map_map]
        exact List.map_congr_left fun b _ => upcase_eq b
    _ = ((id.bytes.map backslashToHash).map toupper).map hashToBackslash := by rw [hs]
    _ = id.bytes.map fun b => hashToBackslash (toupper (backslashToHash b)) := by
        rw [List.map_map, List.map_map]
        rfl
    _ = id.bytes := (List.map_congr_left fun b hb => upcase_backslashToHash b (hid b hb)).trans
        (List.map_id _)

/-- The name of an interface, under any prefix and with its letters in any case, leads back to the
id of its device, so the notification for it removes the devices with that id; `build_device_path`
stays within its allocation. -/
theorem extractDeviceId_interfaceName (id : CStr) (guid : Guid)
    (buf : CharBuf (4 + id.bytes.length + 41)) (hid : Canonical id) (u : User)
    (hu : u.limit ≤ uintMod) :
    ∃ path, buildDevicePath id guid (some buf) = some (.ok path) ∧
      ∀ pre ∈ namespaces, ∀ name : CStr, SameLetters name.bytes (pre ++ path.bytes.drop 4) →
        extractDeviceId name = id ∧
        ∀ w m R, Rep w m R → ∃ w' R', hsMonitorRemove u w (extractDeviceId name) = some w' ∧
          Rep w' m R' ∧ R'.entries = R.entries.filter fun e => e.key ≠ id := by
  refine ⟨_, buildDevicePath_spec id guid buf, fun pre hpre name hname => ?_⟩
  have he := extractDeviceId_eq hid hpre hname
  refine ⟨he, fun w m R hr => ?_⟩
  obtain ⟨w', hw, hr', _⟩ := monitorRemove_spec hu hr id
  rw [he]
  exact ⟨w', _, hw, hr', remove_entries hr.distinct⟩

/-- An id that looks like a prefix and a GUID. -/
theorem extractDeviceId_interfaceName_odd :
    ∃ path, buildDevicePath (.lit "\\\\?\\USB\\\x7b1-A") ⟨1, 2, 3, Vector.replicate 8 4⟩
        (some ⟨List.replicate _ 0, List.length_replicate⟩) = some (.ok path) ∧
      ∀ pre ∈ namespaces, ∀ name : CStr, SameLetters name.bytes (pre ++ path.bytes.drop 4) →
        extractDeviceId name = .lit "\\\\?\\USB\\\x7b1-A" := by
  obtain ⟨path, hp, h⟩ := extractDeviceId_interfaceName (.lit "\\\\?\\USB\\\x7b1-A")
    ⟨1, 2, 3, Vector.replicate 8 4⟩ ⟨List.replicate _ 0, List.length_replicate⟩
    (by
      unfold Canonical
      decide +kernel)
    (.careful fun _ _ _ => ⟨[], 0⟩) (Nat.le_refl _)
  exact ⟨path, hp, fun pre hpre name hname => (h pre hpre name hname).1⟩

end Libhs.Win32
