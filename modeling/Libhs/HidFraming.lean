import Libhs.Lib.Run
import Libhs.Waiting

/-!
# The framings of Linux HID reads

`hs_hid_read` of `hid_linux.c` on real memory: the user's buffer, and the buffer of the
handle that works around the byte bug of old kernels. hidraw hands out a report in
three shapes, and `hs_hid_read` is to turn each into the report id and the data.

`readReport_refines` connects this model to the one of `Libhs.Waiting`, which has
no memory.
-/

namespace Libhs.Hidraw
open Posix

/-! ## The kernel -/

/-- The numbers `hs_linux_version` reads from `uname`, with as many digits as its result has room
for: `MMmmrrppp`, and `MMmm00ppp` from Linux 3 on. -/
structure KernelRelease where
  major : UInt32
  minor : UInt32
  release : UInt32
  patch : UInt32
  major_lt : major < 100
  minor_lt : minor < 100
  release_lt : release < if 3 ≤ major then 1000 else 100
  patch_lt : patch < 1000

/-- `hs_linux_version`. -/
def hsLinuxVersion (k : KernelRelease) : UInt32 :=
  let patch := if 3 ≤ k.major then k.release else k.patch
  let release := if 3 ≤ k.major then 0 else k.release
  k.major * 10000000 + k.minor * 100000 + release * 1000 + patch

/-- `detect_kernel26_byte_bug`. -/
def detectKernel26ByteBug (k : KernelRelease) : Bool :=
  hsLinuxVersion k ≥ 20628000 ∧ hsLinuxVersion k < 20634000

/-- The kernels that have the bug: it came with 2.6.28 and was fixed in 2.6.34. -/
def KernelRelease.HasByteBug (k : KernelRelease) : Prop :=
  k.major = 2 ∧ k.minor = 6 ∧ 28 ≤ k.release ∧ k.release < 34

instance (k : KernelRelease) : Decidable k.HasByteBug :=
  inferInstanceAs (Decidable (k.major = 2 ∧ k.minor = 6 ∧ 28 ≤ k.release ∧ k.release < 34))

/-- The digits of a version do not overlap, and the number does not overflow. -/
theorem hsLinuxVersion_toNat (k : KernelRelease) :
    (hsLinuxVersion k).toNat = k.major.toNat * 10000000 + k.minor.toNat * 100000 +
      if 3 ≤ k.major then k.release.toNat else k.release.toNat * 1000 + k.patch.toNat := by
  have hmajor : k.major.toNat < 100 := UInt32.lt_iff_toNat_lt.mp k.major_lt
  have hminor : k.minor.toNat < 100 := UInt32.lt_iff_toNat_lt.mp k.minor_lt
  have hpatch : k.patch.toNat < 1000 := UInt32.lt_iff_toNat_lt.mp k.patch_lt
  have hrelease := UInt32.lt_iff_toNat_lt.mp k.release_lt
  unfold hsLinuxVersion
  split at hrelease
  · next h3 =>
    have hr : k.release.toNat < 1000 := hrelease
    simp only [if_pos h3, UInt32.toNat_add, UInt32.toNat_mul, UInt32.reduceToNat, Nat.reducePow]
    omega
  · next h3 =>
    have hr : k.release.toNat < 100 := hrelease
    simp only [if_neg h3, UInt32.toNat_add, UInt32.toNat_mul, UInt32.reduceToNat, Nat.reducePow]
    omega

theorem detectKernel26ByteBug_iff (k : KernelRelease) :
    detectKernel26ByteBug k = true ↔ k.HasByteBug := by
  have hminor : k.minor.toNat < 100 := UInt32.lt_iff_toNat_lt.mp k.minor_lt
  have hpatch : k.patch.toNat < 1000 := UInt32.lt_iff_toNat_lt.mp k.patch_lt
  have hrelease := UInt32.lt_iff_toNat_lt.mp k.release_lt
  have hversion := hsLinuxVersion_toNat k
  simp only [detectKernel26ByteBug, KernelRelease.HasByteBug, decide_eq_true_eq, ge_iff_le,
    UInt32.le_iff_toNat_le, UInt32.lt_iff_toNat_lt, ← UInt32.toNat_inj, hversion,
    UInt32.reduceToNat] at hrelease ⊢
  split at hrelease
  · next h3 =>
    simp only [if_pos h3]
    omega
  · next h3 =>
    have hr : k.release.toNat < 100 := hrelease
    simp only [if_neg h3]
    omega

/-! ## Memory -/

/-- A store of `bytes` from index `i` of a block on; none is a store past its end. -/
def store (mem : List UInt8) (i : Nat) (bytes : List UInt8) : Option (List UInt8) :=
  if i + bytes.length ≤ mem.length then some (overwrite mem i bytes) else none

/-- A load of `n` bytes; none is a load past the end. -/
def load (mem : List UInt8) (i n : Nat) : Option (List UInt8) :=
  if i + n ≤ mem.length then some ((mem.drop i).take n) else none

/-- What the system answers to one call: `malloc` gives a block of the size it is asked for, and
`read` no more bytes than it is asked for. -/
structure HidrawOs where
  malloc : (n : Nat) → Option (Vector UInt8 n)
  read : Nat → ReadReturn
  read_le : ∀ n bytes, read n = .data bytes → bytes.length ≤ n

/-- `read(h->fd, mem + i, n)`; none is a count that goes past the end of the block. -/
def HidrawOs.readInto (os : HidrawOs) (mem : List UInt8) (i n : Nat) :
    Option (ReadReturn × List UInt8) :=
  if i + n ≤ mem.length then
    match os.read n with
    | .data bytes => some (.data bytes, overwrite mem i bytes)
    | ret => some (ret, mem)
  else none

/-! ## `hs_hid_read` -/

/-- The fields of `struct hs_handle` that reading uses. -/
structure HidrawHandle where
  numberedReports : Bool
  buf : Option (List UInt8)
  bufSize : Nat

/-- The handle after `open_hidraw_device`: `calloc`, and what `parse_descriptor` found. -/
def HidrawHandle.opened (numberedReports : Bool) : HidrawHandle := ⟨numberedReports, none, 0⟩

/-- `if (size + 1 > h->buf_size) { ... }` for the count `n = size + 1`, and whether the function
goes on. -/
def HidrawHandle.reserve (h : HidrawHandle) (os : HidrawOs) (n : Nat) : Bool × HidrawHandle :=
  if n > h.bufSize then
    match os.malloc n with
    | none => (false, { h with buf := none, bufSize := 0 })
    | some block => (true, { h with buf := some block.toList, bufSize := n })
  else (true, h)

/-- The value of `hs_hid_read` for what `read` returned. -/
def readValue : ReadReturn → Int :=
  readError "I/O error while reading from '%s'" "read('%s') failed: %s"

/-- The workaround behind its `malloc`: `read` into the handle's buffer, and `memcpy` from its
second byte on. -/
def readThroughBuf (h : HidrawHandle) (buf : List UInt8) (os : HidrawOs) :
    Option (Int × HidrawHandle × List UInt8) := do
  let mem ← h.buf
  let (r, mem) ← os.readInto mem 0 (buf.length + 1)
  let h := { h with buf := some mem }
  match r with
  | .data (_ :: bytes) =>
    let src ← load mem 1 bytes.length
    let buf ← store buf 0 src
    some (bytes.length, h, buf)
  | r => some (readValue r, h, buf)

/-- `hs_hid_read` into the buffer `buf` when a report can be read: its result, the handle and the
buffer. -/
def readReport (k : KernelRelease) (h : HidrawHandle) (buf : List UInt8) (os : HidrawOs) :
    Option (Int × HidrawHandle × List UInt8) :=
  if h.numberedReports then
    if detectKernel26ByteBug k then
      let (ok, h) := h.reserve os (buf.length + 1)
      if ok then readThroughBuf h buf os else some (hsError .memory none, h, buf)
    else do
      let (r, buf) ← os.readInto buf 0 buf.length
      some (readValue r, h, buf)
  else do
    let (r, buf) ← os.readInto buf 1 (buf.length - 1)
    match r with
    | .data (b :: bytes) =>
      let buf ← store buf 0 [0]
      some ((b :: bytes).length + 1, h, buf)
    | r => some (readValue r, h, buf)

/-- A call of `hs_hid_read`: the user's buffer, and what the system answers. -/
structure Call where
  buf : List UInt8
  timeout : Int32
  start : UInt64
  rounds : List Round
  os : HidrawOs

/-- `hs_hid_read`; the result is none after a failed assertion or a memory error. -/
def hsHidRead (k : KernelRelease) (h : HidrawHandle) (c : Call) :
    Waited (Option (Int × HidrawHandle × List UInt8)) :=
  if c.buf = [] then ⟨[], some none⟩
  else waitThen c.timeout c.start c.rounds (fun r => some (r, h, c.buf)) (readReport k h c.buf c.os)

/-! ## Memory safety, and the model without memory -/

/-- The handle's buffer is as large as the handle says. -/
def HidrawHandle.Sound (h : HidrawHandle) : Prop :=
  match h.buf with
  | none => h.bufSize = 0
  | some mem => mem.length = h.bufSize

/-- The handle without its memory. -/
def HidrawHandle.view (h : HidrawHandle) : HidHandle := ⟨h.numberedReports, h.bufSize⟩

/-- What the system answers, without memory, to a buffer of `size` bytes. -/
def HidrawOs.view (os : HidrawOs) (k : KernelRelease) (size : Nat) : HidReadOs where
  byteBug := detectKernel26ByteBug k
  mallocOk := (os.malloc (size + 1)).isSome
  read := os.read

variable {k : KernelRelease} {h h' : HidrawHandle} {buf mem bytes : List UInt8} {os : HidrawOs}
  {c : Call} {n i : Nat}

theorem sound_opened (numberedReports : Bool) : (HidrawHandle.opened numberedReports).Sound := rfl

theorem overwrite_length (hi : i + bytes.length ≤ mem.length) :
    (overwrite mem i bytes).length = mem.length := by
  simp [overwrite]
  omega

theorem store_of_le (hi : i + bytes.length ≤ mem.length) :
    store mem i bytes = some (overwrite mem i bytes) := if_pos hi

/-- What was stored can be loaded. -/
theorem load_overwrite {b : UInt8} (hi : bytes.length + 1 ≤ mem.length) :
    load (overwrite mem 0 (b :: bytes)) 1 bytes.length = some bytes := by
  have hlen : 1 + bytes.length ≤ (overwrite mem 0 (b :: bytes)).length := by
    rw [overwrite_length (by simpa using hi)]
    omega
  rw [load, if_pos hlen]
  simp [overwrite]

theorem overwrite_twice (hne : buf ≠ []) :
    overwrite (overwrite buf 1 bytes) 0 [0] = overwrite buf 0 (0 :: bytes) := by
  cases buf with
  | nil => exact absurd rfl hne
  | cons a buf => simp [overwrite, Nat.add_comm 1]

theorem readInto_data (hi : i + n ≤ mem.length) (hr : os.read n = .data bytes) :
    os.readInto mem i n = some (.data bytes, overwrite mem i bytes) := by
  rw [HidrawOs.readInto, if_pos hi, hr]

theorem readInto_error (os : HidrawOs) (hi : i + n ≤ mem.length)
    (hr : ∀ bytes, os.read n ≠ .data bytes) :
    os.readInto mem i n = some (os.read n, mem) := by
  rw [HidrawOs.readInto, if_pos hi]
  split
  · next h => exact absurd h (hr _)
  · rfl

theorem reserve_fails (hn : n > h.bufSize) (hm : os.malloc n = none) :
    h.reserve os n = (false, ⟨h.numberedReports, none, 0⟩) := by
  rw [HidrawHandle.reserve, if_pos hn, hm]

/-- Otherwise the handle has a block for `n` bytes. -/
theorem reserve_some (hs : h.Sound) (hpos : 0 < n) (hm : n > h.bufSize → os.malloc n ≠ none) :
    ∃ mem, mem.length = max h.bufSize n ∧
      h.reserve os n = (true, ⟨h.numberedReports, some mem, max h.bufSize n⟩) := by
  by_cases hn : n > h.bufSize
  · obtain ⟨block, hblock⟩ := Option.ne_none_iff_exists'.mp (hm hn)
    have hmax : max h.bufSize n = n := Nat.max_eq_right (Nat.le_of_lt hn)
    refine ⟨block.toList, by rw [hmax, Vector.length_toList], ?_⟩
    rw [HidrawHandle.reserve, if_pos hn, hblock, hmax]
  · have hmax : max h.bufSize n = h.bufSize := Nat.max_eq_left (Nat.le_of_not_lt hn)
    unfold HidrawHandle.Sound at hs
    cases hbuf : h.buf with
    | none =>
      simp only [hbuf] at hs
      omega
    | some mem =>
      simp only [hbuf] at hs
      refine ⟨mem, by rw [hmax, hs], ?_⟩
      rw [HidrawHandle.reserve, if_neg hn, hmax, ← hbuf]

/-- What the workaround makes of the answer of `read`, for the user's buffer. -/
def withoutFirst (buf : List UInt8) : ReadReturn → Int × List UInt8
  | .data (_ :: bytes) => (bytes.length, overwrite buf 0 bytes)
  | r => (readValue r, buf)

theorem readThroughBuf_spec (os : HidrawOs) (hmem : h.buf = some mem)
    (hroom : buf.length + 1 ≤ mem.length) :
    ∃ mem', mem'.length = mem.length ∧ readThroughBuf h buf os = some
      ((withoutFirst buf (os.read (buf.length + 1))).1, { h with buf := some mem' },
        (withoutFirst buf (os.read (buf.length + 1))).2) := by
  have hcount : 0 + (buf.length + 1) ≤ mem.length := by rwa [Nat.zero_add]
  cases hr : os.read (buf.length + 1) with
  | data bytes =>
    have hle := os.read_le _ _ hr
    have hread := readInto_data hcount hr
    have hlen : (overwrite mem 0 bytes).length = mem.length := overwrite_length (by omega)
    refine ⟨overwrite mem 0 bytes, hlen, ?_⟩
    cases bytes with
    | nil =>
      simp only [readThroughBuf, hmem, hread, Option.bind_eq_bind, Option.bind_some, withoutFirst]
    | cons b bytes =>
      rw [List.length_cons] at hle
      have hload : load (overwrite mem 0 (b :: bytes)) 1 bytes.length = some bytes :=
        load_overwrite (by omega)
      have hstore : store buf 0 bytes = some (overwrite buf 0 bytes) := store_of_le (by omega)
      simp only [readThroughBuf, hmem, hread, Option.bind_eq_bind, Option.bind_some, hload, hstore,
        withoutFirst]
  | _ =>
    have hread := readInto_error os hcount (by rw [hr]; intro _ h; cases h)
    refine ⟨mem, rfl, ?_⟩
    simp only [readThroughBuf, hmem, hread, hr, Option.bind_eq_bind, Option.bind_some, withoutFirst]

/-- The same in the model without memory. -/
theorem readReport_view_byteBug (hnum : h.numberedReports = true)
    (hbug : detectKernel26ByteBug k = true)
    (hm : buf.length + 1 > h.bufSize → os.malloc (buf.length + 1) ≠ none) :
    Posix.readReport h.view buf (os.view k buf.length) =
      ((withoutFirst buf (os.read (buf.length + 1))).1,
        ⟨h.numberedReports, max h.bufSize (buf.length + 1)⟩,
        (withoutFirst buf (os.read (buf.length + 1))).2) := by
  have hsize : (if buf.length + 1 > h.bufSize then
      (⟨h.numberedReports, buf.length + 1⟩ : HidHandle) else ⟨h.numberedReports, h.bufSize⟩) =
        ⟨h.numberedReports, max h.bufSize (buf.length + 1)⟩ := by
    split
    · next hgrows => rw [Nat.max_eq_right (Nat.le_of_lt hgrows)]
    · next hgrows => rw [Nat.max_eq_left (Nat.le_of_not_lt hgrows)]
  have hgo : ¬(buf.length + 1 > h.bufSize ∧ (!(os.malloc (buf.length + 1)).isSome) = true) := by
    rintro ⟨hgrows, hnone⟩
    exact hm hgrows (by simpa using hnone)
  simp only [Posix.readReport, HidrawHandle.view, HidrawOs.view, hnum, hbug, hgo, ↓reduceIte]
  rw [hnum] at hsize
  rw [hsize]
  cases os.read (buf.length + 1) with
  | data bytes => cases bytes <;> rfl
  | _ => rfl

/-- The call has no memory error, and does what the model without memory says. -/
def Refines (k : KernelRelease) (h : HidrawHandle) (buf : List UInt8) (os : HidrawOs) : Prop :=
  ∃ r h' buf', readReport k h buf os = some (r, h', buf') ∧ h'.Sound ∧
    Posix.readReport h.view buf (os.view k buf.length) = (r, h'.view, buf')

theorem refines_byteBug (hs : h.Sound) (hnum : h.numberedReports = true)
    (hbug : detectKernel26ByteBug k = true) : Refines k h buf os := by
  by_cases hm : buf.length + 1 > h.bufSize ∧ os.malloc (buf.length + 1) = none
  · refine ⟨hsError .memory none, ⟨h.numberedReports, none, 0⟩, buf, ?_, rfl, ?_⟩
    · simp only [readReport, hnum, hbug, reserve_fails hm.1 hm.2, ↓reduceIte, Bool.false_eq_true]
    · simp only [Posix.readReport, HidrawHandle.view, HidrawOs.view, hnum, hbug, hm, ↓reduceIte,
        Option.isSome_none, Bool.not_false, and_self]
  · have hgo : buf.length + 1 > h.bufSize → os.malloc (buf.length + 1) ≠ none :=
      fun hgrows hnone => hm ⟨hgrows, hnone⟩
    obtain ⟨mem, hlen, hres⟩ := reserve_some hs (Nat.succ_pos buf.length) hgo
    have hroom : buf.length + 1 ≤ mem.length := by
      rw [hlen]
      exact Nat.le_max_right ..
    obtain ⟨mem', hlen', hread⟩ := readThroughBuf_spec os
      (h := ⟨h.numberedReports, some mem, max h.bufSize (buf.length + 1)⟩) rfl hroom
    refine ⟨_, ⟨h.numberedReports, some mem', max h.bufSize (buf.length + 1)⟩, _, ?_,
      hlen'.trans hlen, readReport_view_byteBug hnum hbug hgo⟩
    simp only [readReport, hnum, hbug, ↓reduceIte, hres]
    rw [hnum] at hread
    exact hread

theorem refines_plain (hs : h.Sound) (hnum : h.numberedReports = true)
    (hbug : detectKernel26ByteBug k = false) : Refines k h buf os := by
  have hcount : 0 + buf.length ≤ buf.length := Nat.le_of_eq (Nat.zero_add _)
  cases hr : os.read buf.length with
  | data bytes =>
    refine ⟨bytes.length, h, overwrite buf 0 bytes, ?_, hs, ?_⟩
    · simp only [readReport, hnum, hbug, readInto_data hcount hr, ↓reduceIte, Bool.false_eq_true,
        Option.bind_eq_bind, Option.bind_some, readValue, readError]
    · simp only [Posix.readReport, HidrawHandle.view, HidrawOs.view, hnum, hbug, hr, ↓reduceIte,
        Bool.false_eq_true]
  | _ =>
    have hread := readInto_error os hcount (by rw [hr]; intro _ h; cases h)
    refine ⟨readValue (os.read buf.length), h, buf, ?_, hs, ?_⟩
    · simp only [readReport, hnum, hbug, hread, ↓reduceIte, Bool.false_eq_true, Option.bind_eq_bind,
        Option.bind_some]
    · simp only [Posix.readReport, HidrawHandle.view, HidrawOs.view, hnum, hbug, hr, ↓reduceIte,
        Bool.false_eq_true, readValue]

theorem refines_unnumbered (hs : h.Sound) (hnum : h.numberedReports = false) (hne : buf ≠ []) :
    Refines k h buf os := by
  have hpos : 0 < buf.length := List.length_pos_iff.mpr hne
  have hcount : 1 + (buf.length - 1) ≤ buf.length := by omega
  cases hr : os.read (buf.length - 1) with
  | data bytes =>
    have hread := readInto_data hcount hr
    cases bytes with
    | nil =>
      have hsame : overwrite buf 1 [] = buf := by
        simp only [overwrite, List.append_nil, List.length_nil, Nat.add_zero, List.take_append_drop]
      refine ⟨0, h, buf, ?_, hs, ?_⟩
      · simp only [readReport, hnum, hread, ↓reduceIte, Bool.false_eq_true, Option.bind_eq_bind,
          Option.bind_some, hsame]
        rfl
      · simp only [Posix.readReport, HidrawHandle.view, HidrawOs.view, hnum, hr, ↓reduceIte,
          Bool.false_eq_true]
        rfl
    | cons b bytes =>
      have hle := os.read_le _ _ hr
      have hlen : (overwrite buf 1 (b :: bytes)).length = buf.length := overwrite_length (by omega)
      have hstore : store (overwrite buf 1 (b :: bytes)) 0 [0] =
          some (overwrite buf 0 (0 :: b :: bytes)) := by
        rw [← overwrite_twice hne]
        exact store_of_le (by rw [hlen]; exact hpos)
      refine ⟨(b :: bytes).length + 1, h, overwrite buf 0 (0 :: b :: bytes), ?_, hs, ?_⟩
      · simp only [readReport, hnum, hread, ↓reduceIte, Bool.false_eq_true, Option.bind_eq_bind,
          Option.bind_some, hstore]
      · simp only [Posix.readReport, HidrawHandle.view, HidrawOs.view, hnum, hr, ↓reduceIte,
          Bool.false_eq_true]
  | _ =>
    have hread := readInto_error os hcount (by rw [hr]; intro _ h; cases h)
    refine ⟨readValue (os.read (buf.length - 1)), h, buf, ?_, hs, ?_⟩
    · simp only [readReport, hnum, hread, ↓reduceIte, Bool.false_eq_true, Option.bind_eq_bind,
        Option.bind_some, hr]
    · simp only [Posix.readReport, HidrawHandle.view, HidrawOs.view, hnum, hr, ↓reduceIte,
        Bool.false_eq_true, readValue]

theorem readReport_refines (k : KernelRelease) (os : HidrawOs) (hs : h.Sound) (hne : buf ≠ []) :
    Refines k h buf os := by
  cases hnum : h.numberedReports with
  | true =>
    cases hbug : detectKernel26ByteBug k with
    | true => exact refines_byteBug hs hnum hbug
    | false => exact refines_plain hs hnum hbug
  | false => exact refines_unnumbered hs hnum hne

/-! ## Earlier reads -/

/-- The handle after a call. -/
def nextHandle (k : KernelRelease) (h : HidrawHandle) (c : Call) : Option HidrawHandle := do
  let done ← (hsHidRead k h c).result
  let (_, h, _) ← done
  some h

/-- The buffer has room for a byte, as `hs_hid_read` asserts, and the call does not wait forever. -/
structure Call.Returns (c : Call) : Prop where
  room : c.buf ≠ []
  ended : c.timeout = 0 ∨ (restart c.timeout c.start c.rounds).result ≠ none

theorem readReport_numbered (v : HidHandle) (buf : List UInt8) (o : HidReadOs) :
    (Posix.readReport v buf o).2.1.numberedReports = v.numberedReports := by
  unfold Posix.readReport
  dsimp only
  split
  · split
    · split
      · rfl
      · split <;> split <;> rfl
    · split <;> rfl
  · split <;> rfl

theorem waitThen_ended {α : Type} {timeout : Int32} {start : UInt64} {rounds : List Round}
    {stop : Int → α} {read : α}
    (he : timeout = 0 ∨ (restart timeout start rounds).result ≠ none) :
    (waitThen timeout start rounds stop read).result = some read ∨
      ∃ r, (waitThen timeout start rounds stop read).result = some (stop r) := by
  unfold waitThen
  split
  · next ht =>
    obtain ⟨ret, hret⟩ := Option.ne_none_iff_exists'.mp (he.resolve_left ht)
    simp only [hret, Option.map_some]
    cases ret with
    | ready revents => exact Or.inl rfl
    | timedOut => exact Or.inr ⟨0, rfl⟩
    | interrupted => exact Or.inr ⟨_, rfl⟩
    | failed => exact Or.inr ⟨_, rfl⟩
  · exact Or.inl rfl

/-- Each earlier read leaves a sound handle, of whatever size its buffer is then. -/
theorem nextHandle_some (k : KernelRelease) (hs : h.Sound) (hc : c.Returns) :
    ∃ h', nextHandle k h c = some h' ∧ h'.Sound ∧ h'.numberedReports = h.numberedReports := by
  have hcall : hsHidRead k h c = waitThen c.timeout c.start c.rounds
      (fun r => some (r, h, c.buf)) (readReport k h c.buf c.os) := if_neg hc.room
  rcases waitThen_ended hc.ended with hres | ⟨r, hres⟩
  · rw [← hcall] at hres
    obtain ⟨r, h', buf', e, hs', hview⟩ := readReport_refines k c.os hs hc.room
    rw [e] at hres
    refine ⟨h', ?_, hs', ?_⟩
    · simp only [nextHandle, hres, Option.bind_eq_bind, Option.bind_some]
    · have hnum := readReport_numbered h.view c.buf (c.os.view k c.buf.length)
      rw [hview] at hnum
      exact hnum
  · rw [← hcall] at hres
    refine ⟨h, ?_, hs, rfl⟩
    simp only [nextHandle, hres, Option.bind_eq_bind, Option.bind_some]

theorem run_nextHandle (k : KernelRelease) {calls : List Call} (hs : h.Sound)
    (hcalls : ∀ c ∈ calls, c.Returns) :
    ∃ h', Run.run (nextHandle k) h calls = some h' ∧ h'.Sound ∧
      h'.numberedReports = h.numberedReports := by
  induction calls generalizing h with
  | nil => exact ⟨h, rfl, hs, rfl⟩
  | cons c calls ih =>
    obtain ⟨h₁, e₁, hs₁, hn₁⟩ := nextHandle_some k hs (hcalls c List.mem_cons_self)
    obtain ⟨h', e, hs', hn'⟩ := ih hs₁ fun c hc => hcalls c (List.mem_cons_of_mem _ hc)
    refine ⟨h', ?_, hs', hn'.trans hn₁⟩
    simpa only [Run.run, e₁, Option.bind_eq_bind, Option.bind_some] using e

/-! ## Reports -/

/-- An input report: its id, which is 0 for a device without numbered reports, and its data. -/
structure InputReport (numberedReports : Bool) where
  id : UInt8
  data : List UInt8
  nonempty : data ≠ []
  unnumbered : numberedReports = false → id = 0

variable {numberedReports : Bool}

/-- What the user is to get. -/
def InputReport.message (report : InputReport numberedReports) : List UInt8 :=
  report.id :: report.data

/-- What hidraw delivers. A kernel with the bug puts the byte `extra` in front. -/
def InputReport.frame (report : InputReport numberedReports) (k : KernelRelease) (extra : UInt8) :
    List UInt8 :=
  if numberedReports then if k.HasByteBug then extra :: report.message else report.message
  else report.data

/-- The result of a call, and the buffer after it, are the report cut to the size of the buffer. -/
structure InputReport.Stored (report : InputReport numberedReports) (buf : List UInt8) (r : Int)
    (buf' : List UInt8) : Prop where
  value : r = min buf.length (1 + report.data.length)
  content : buf' = report.message.take buf.length ++ buf.drop (1 + report.data.length)

/-- The report is stored by a copy of what fits. -/
theorem stored_of_take (report : InputReport numberedReports) (buf : List UInt8) :
    report.Stored buf (report.message.take buf.length).length
      (overwrite buf 0 (report.message.take buf.length)) := by
  have hlen : report.message.length = 1 + report.data.length := Nat.add_comm ..
  refine ⟨?_, ?_⟩
  · rw [List.length_take, hlen]
  · rw [overwrite, List.take_zero, List.nil_append, Nat.zero_add, List.length_take, hlen]
    congr 1
    rcases Nat.le_total buf.length (1 + report.data.length) with hle | hle
    · rw [Nat.min_eq_left hle, List.drop_eq_nil_of_le (Nat.le_refl _), List.drop_eq_nil_of_le hle]
    · rw [Nat.min_eq_right hle]

/-- Where the report is to be read, the three framings agree, but for an unnumbered report and a
buffer of one byte. -/
theorem readReport_stored {v : HidHandle} {o : HidReadOs} (report : InputReport numberedReports)
    (extra : UInt8) (hne : buf ≠ []) (hv : v.numberedReports = numberedReports)
    (hbug : o.byteBug = detectKernel26ByteBug k) (hmalloc : o.mallocOk = true)
    (hread : ∀ n, o.read n = .data ((report.frame k extra).take n)) :
    report.Stored buf (Posix.readReport v buf o).1 (Posix.readReport v buf o).2.2 ↔
      numberedReports = true ∨ 2 ≤ buf.length := by
  have hstored := stored_of_take report buf
  cases numberedReports with
  | true =>
    refine iff_of_true ?_ (Or.inl rfl)
    by_cases hb : k.HasByteBug
    · have hdetect := (detectKernel26ByteBug_iff k).mpr hb
      have hframe : report.frame k extra = extra :: report.message := by
        simp only [InputReport.frame, ↓reduceIte, if_pos hb]
      rw [hframe] at hread
      simp only [Posix.readReport, hv, hbug, hdetect, hmalloc, ↓reduceIte, Bool.not_true,
        Bool.false_eq_true, and_false, hread, List.take_succ_cons]
      exact hstored
    · have hdetect : detectKernel26ByteBug k = false := by
        rw [← Bool.not_eq_true, detectKernel26ByteBug_iff]
        exact hb
      have hframe : report.frame k extra = report.message := by
        simp only [InputReport.frame, ↓reduceIte, if_neg hb]
      rw [hframe] at hread
      simp only [Posix.readReport, hv, hbug, hdetect, ↓reduceIte, Bool.false_eq_true, hread]
      exact hstored
  | false =>
    have hframe : report.frame k extra = report.data := rfl
    have hid : report.id = 0 := report.unnumbered rfl
    rw [hframe] at hread
    obtain ⟨d, ds, hdata⟩ := List.exists_cons_of_ne_nil report.nonempty
    rcases Nat.lt_or_ge buf.length 2 with hlt | hge
    · -- there is room for the id only, and nothing is read
      have hone : buf.length = 1 := by
        have := List.length_pos_iff.mpr hne
        omega
      refine iff_of_false ?_ (by simp [hone])
      intro hs
      have hvalue := hs.value
      simp only [Posix.readReport, hv, hread, hone, Bool.false_eq_true, ↓reduceIte, Nat.sub_self,
        List.take_zero, readError, List.length_nil] at hvalue
      omega
    · refine iff_of_true ?_ (Or.inr hge)
      obtain ⟨n, hn⟩ : ∃ n, buf.length = n + 2 := ⟨buf.length - 2, by omega⟩
      have htake : report.message.take buf.length = 0 :: d :: ds.take n := by
        rw [InputReport.message, hid, hdata, hn, List.take_succ_cons, List.take_succ_cons]
      have hcut : o.read (buf.length - 1) = .data (d :: ds.take n) := by
        rw [hread, hdata, hn]
        rfl
      rw [htake] at hstored
      simp only [Posix.readReport, hv, hcut, Bool.false_eq_true, ↓reduceIte]
      exact hstored

/-! ## Reading a report -/

/-- `poll` says that a report can be read, or is not asked. -/
def Call.Ready (c : Call) : Prop :=
  c.timeout = 0 ∨ ∃ revents, (restart c.timeout c.start c.rounds).result = some (.ready revents)

theorem hsHidRead_ready (k : KernelRelease) (h : HidrawHandle) (hne : c.buf ≠ [])
    (hready : c.Ready) : (hsHidRead k h c).result = some (readReport k h c.buf c.os) := by
  rw [hsHidRead, if_neg hne, waitThen]
  split
  · next ht =>
    obtain ⟨revents, hres⟩ := hready.resolve_left ht
    simp only [hres, Option.map_some]
  · rfl

/-- After any earlier reads, a waiting report is stored as it is, cut to the buffer, if and only if
the device has numbered reports or the buffer has room for more than the id. -/
theorem hsHidRead_framing (k : KernelRelease) {calls : List Call} (hcalls : ∀ c ∈ calls, c.Returns)
    (report : InputReport numberedReports) (extra : UInt8) {c : Call} (hne : c.buf ≠ [])
    (hready : c.Ready) (hmalloc : c.os.malloc (c.buf.length + 1) ≠ none)
    (hread : ∀ n, c.os.read n = .data ((report.frame k extra).take n)) :
    ∃ h r h' buf', Run.run (nextHandle k) (.opened numberedReports) calls = some h ∧
      (hsHidRead k h c).result = some (some (r, h', buf')) ∧
      (report.Stored c.buf r buf' ↔ numberedReports = true ∨ 2 ≤ c.buf.length) := by
  obtain ⟨h, hrun, hs, hnum⟩ := run_nextHandle k (sound_opened numberedReports) hcalls
  obtain ⟨r, h', buf', e, -, hview⟩ := readReport_refines k c.os hs hne
  refine ⟨h, r, h', buf', hrun, by rw [hsHidRead_ready k h hne hready, e], ?_⟩
  have hstored := readReport_stored (v := h.view) (o := c.os.view k c.buf.length) (k := k) report
    extra hne hnum rfl (Option.isSome_iff_ne_none.mpr hmalloc) hread
  rw [hview] at hstored
  exact hstored

/-! ## A mouse and a tablet -/

/-- A system on which a report waits. -/
def waitingOs (frame : List UInt8) : HidrawOs where
  malloc n := some (Vector.replicate n 0)
  read n := .data (frame.take n)
  read_le n bytes h := by
    cases h
    exact List.length_take_le n frame

def waitingCall (buf frame : List UInt8) : Call := ⟨buf, 0, 0, [], waitingOs frame⟩

def kernel2630 : KernelRelease :=
  ⟨2, 6, 30, 1, by decide, by decide, by decide, by decide⟩

def tabletReport : InputReport true := ⟨5, [1, 2, 3], by decide, by decide⟩

def mouseReport : InputReport false := ⟨0, [1, 2, 3], by decide, fun _ => rfl⟩

/-- A second read of a tablet, into a larger buffer, on a kernel with the bug. -/
theorem hsHidRead_framing_tablet :
    ∃ h r h' buf', Run.run (nextHandle kernel2630) (.opened true)
        [waitingCall [0] (tabletReport.frame kernel2630 9)] = some h ∧
      (hsHidRead kernel2630 h
        (waitingCall [0, 0, 0, 0, 0, 0] (tabletReport.frame kernel2630 9))).result =
          some (some (r, h', buf')) ∧
      (tabletReport.Stored [0, 0, 0, 0, 0, 0] r buf' ↔ true = true ∨ 2 ≤ 6) :=
  hsHidRead_framing kernel2630
    (by
      intro c hc
      obtain rfl := List.mem_singleton.mp hc
      exact ⟨by decide, Or.inl rfl⟩)
    tabletReport 9 (c := waitingCall [0, 0, 0, 0, 0, 0] (tabletReport.frame kernel2630 9))
    (by decide) (Or.inl rfl) (by simp [waitingCall, waitingOs]) fun _ => rfl

/-- A report of a mouse that waits is not seen with a buffer for its id. -/
theorem hsHidRead_framing_mouse :
    mouseReport.frame kernel2630 9 = [1, 2, 3] ∧
    (hsHidRead kernel2630 (.opened false) (waitingCall [7] [1, 2, 3])).result =
      some (some (0, .opened false, [7])) ∧
    ¬mouseReport.Stored [7] 0 [7] :=
  ⟨rfl, rfl, fun h => absurd h.value (by decide)⟩

end Libhs.Hidraw
