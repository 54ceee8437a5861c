import Libhs.Basic
import Libhs.Clock

/-!
# Waiting on POSIX

`hs_poll`, `hs_serial_read` and, on Linux, `hs_hid_read` wait in `poll()`, and wait
again when a signal interrupts them. The answers of the system are input: a list with
the readings of the clock and the results of `poll()`, one for each round.
-/

namespace Libhs.Posix

/-! ## The restart loop -/

/-- What `poll` returns: -1 with `EINTR` or with another error, 0, or a positive value with the
`revents` of the descriptors. -/
inductive PollReturn
  | interrupted
  | failed
  | timedOut
  | ready (revents : List UInt16)

/-- What happens in a round: `hs_millis`, as `hs_adjust_timeout` reads it, and `poll`. -/
structure Round where
  now : UInt64
  ret : PollReturn

/-- A call of `poll`: the reading of the clock, and the timeout. -/
structure Wait where
  now : UInt64
  timeout : Int32

/-- What a function did: its calls of `poll`, and its result, unless it still waits. -/
structure Waited (α : Type) where
  waits : List Wait
  result : Option α

/-- The loop from `restart` to the first result other than `EINTR`. -/
def restart (timeout : Int32) (start : UInt64) : List Round → Waited PollReturn
  | [] => ⟨[], none⟩
  | round :: rounds =>
    let wait := ⟨round.now, hsAdjustTimeout round.now timeout start⟩
    match round.ret with
    | .interrupted =>
      let rest := restart timeout start rounds
      ⟨wait :: rest.waits, rest.result⟩
    | ret => ⟨[wait], some ret⟩

/-! ## `hs_poll` -/

/-- `hs_descriptor_set`. -/
structure DescriptorSet where
  entries : List (Int32 × Int32)
  room : entries.length ≤ 64

/-- `POLLIN | POLLERR | POLLHUP | POLLNVAL`. -/
def pollMask : UInt16 := 0x01 ||| 0x08 ||| 0x10 ||| 0x20

/-- The id of the first descriptor that is ready. -/
def firstReady : List (Int32 × Int32) → List UInt16 → Option Int32
  | (_, id) :: entries, revents :: rest =>
    if revents &&& pollMask ≠ 0 then some id else firstReady entries rest
  | _, _ => none

/-- `hs_poll` of `platform_posix.c`; the result is none if the last assertion fails. -/
def hsPoll (set : DescriptorSet) (timeout : Int32) (start : UInt64) (rounds : List Round) :
    Waited (Option Int) :=
  let timeout := if timeout < 0 then -1 else timeout
  let polled := restart timeout start rounds
  { waits := polled.waits
    result := polled.result.map fun
      | .timedOut => some 0
      | .ready revents => (firstReady set.entries revents).map Int32.toInt
      | _ => some (hsError .system (some "poll() failed: %s")) }

/-! ## Reading -/

/-- What `read` returns: bytes, or -1 with an `errno`. -/
inductive ReadReturn
  | data (bytes : List UInt8)
  | again
  | io
  | failed

/-- The bytes of `buf` from `at` on are overwritten. -/
def overwrite (buf : List UInt8) (i : Nat) (bytes : List UInt8) : List UInt8 :=
  buf.take i ++ bytes ++ buf.drop (i + bytes.length)

/-- What the reading functions return for an error of `read`. -/
def readError (io failed : String) : ReadReturn → Int
  | .data bytes => bytes.length
  | .again => 0
  | .io => hsError .io (some io)
  | .failed => hsError .system (some failed)

/-- `if (timeout) { ... }`: the reading functions wait, and read when `poll` succeeded. -/
def waitThen {α : Type} (timeout : Int32) (start : UInt64) (rounds : List Round)
    (stop : Int → α) (read : α) : Waited α :=
  if timeout ≠ 0 then
    let polled := restart timeout start rounds
    { waits := polled.waits
      result := polled.result.map fun
        | .timedOut => stop 0
        | .ready _ => read
        | _ => stop (hsError .system (some "poll('%s') failed: %s")) }
  else ⟨[], some read⟩

/-- `hs_serial_read` into the buffer `buf`; `read` answers to the count it is given. -/
def hsSerialRead (buf : List UInt8) (timeout : Int32) (start : UInt64) (rounds : List Round)
    (read : Nat → ReadReturn) : Waited (Int × List UInt8) :=
  waitThen timeout start rounds (fun r => (r, buf)) <|
    let ret := read buf.length
    let r := readError "I/O error while reading from '%s'" "read('%s') failed: %s" ret
    match ret with
    | .data bytes => (r, overwrite buf 0 bytes)
    | _ => (r, buf)

/-- The fields of a hidraw handle that reading uses. -/
structure HidHandle where
  numberedReports : Bool
  bufSize : Nat

/-- What the system answers to `hs_hid_read`: whether the kernel has the bug that
`detect_kernel26_byte_bug` looks for, and whether `malloc` succeeds. -/
structure HidReadOs where
  byteBug : Bool
  mallocOk : Bool
  read : Nat → ReadReturn

/-- What `hs_hid_read` of `hid_linux.c` does when a report can be read: its result, with the handle
and the buffer. -/
def readReport (h : HidHandle) (buf : List UInt8) (os : HidReadOs) :
    Int × HidHandle × List UInt8 :=
  let error := readError "I/O error while reading from '%s'" "read('%s') failed: %s"
  if h.numberedReports then
    if os.byteBug then
      let grows := buf.length + 1 > h.bufSize
      if grows ∧ !os.mallocOk then (hsError .memory none, { h with bufSize := 0 }, buf)
      else
        let h := if grows then { h with bufSize := buf.length + 1 } else h
        match os.read (buf.length + 1) with
        -- the kernel puts one more byte before the report
        | .data (_ :: bytes) => (bytes.length, h, overwrite buf 0 bytes)
        | ret => (error ret, h, buf)
    else
      match os.read buf.length with
      | .data bytes => (bytes.length, h, overwrite buf 0 bytes)
      | ret => (error ret, h, buf)
  else
    match os.read (buf.length - 1) with
    | .data (b :: bytes) => ((b :: bytes).length + 1, h, overwrite buf 0 (0 :: b :: bytes))
    | ret => (error ret, h, buf)

/-- `hs_hid_read` of `hid_linux.c` into the buffer `buf`. -/
def hsHidRead (h : HidHandle) (buf : List UInt8) (timeout : Int32) (start : UInt64)
    (rounds : List Round) (os : HidReadOs) : Waited (Int × HidHandle × List UInt8) :=
  waitThen timeout start rounds (fun r => (r, h, buf)) (readReport h buf os)

/-! ## The deadline -/

/-- What the waits of a function may be: endless if and only if the user wants that; otherwise no
longer than the time that is left, so that none ends after the deadline. -/
structure InTime (timeout : Int32) (start : UInt64) (waits : List Wait) : Prop where
  endless : ∀ w ∈ waits, w.timeout.toInt < 0 ↔ timeout.toInt < 0
  bounds : 0 ≤ timeout.toInt → ∀ w ∈ waits, 0 ≤ w.timeout.toInt ∧ w.timeout.toInt ≤ timeout.toInt
  falling : 0 ≤ timeout.toInt → waits.Pairwise fun w w' => w'.timeout.toInt ≤ w.timeout.toInt
  deadline : 0 ≤ timeout.toInt → ∀ w ∈ waits,
    w.now.toNat + w.timeout.toInt ≤ max (w.now.toNat : Int) (start.toNat + timeout.toInt)

variable {timeout : Int32} {start : UInt64} {rounds : List Round}

/-- Whatever the interruptions, each wait is for what is left at its reading. -/
theorem restart_waits (timeout : Int32) (start : UInt64) (rounds : List Round) :
    (restart timeout start rounds).waits <+:
      rounds.map fun round => ⟨round.now, hsAdjustTimeout round.now timeout start⟩ := by
  induction rounds with
  | nil => exact List.nil_prefix
  | cons round rounds ih =>
    rw [List.map_cons]
    unfold restart
    cases round.ret with
    | interrupted => exact List.prefix_cons_inj _ |>.mpr ih
    | _ => exact ⟨_, rfl⟩

theorem InTime.of_prefix {waits waits' : List Wait} (h : InTime timeout start waits)
    (hp : waits' <+: waits) : InTime timeout start waits' where
  endless w hw := h.endless w (hp.subset hw)
  bounds ht w hw := h.bounds ht w (hp.subset hw)
  falling ht := (h.falling ht).sublist hp.sublist
  deadline ht w hw := h.deadline ht w (hp.subset hw)

/-- The restart loop keeps the deadline, for any number of interruptions. -/
theorem restart_inTime (hclock : (start :: rounds.map Round.now).Pairwise (· ≤ ·))
    (hroom : 0 ≤ timeout.toInt → start.toNat + timeout.toInt < 2 ^ 64) :
    InTime timeout start (restart timeout start rounds).waits := by
  obtain ⟨hstart, hsorted⟩ := List.pairwise_cons.mp hclock
  -- what is left at a reading is the same whatever was interrupted before it
  have hleft : 0 ≤ timeout.toInt →
      ∀ w ∈ rounds.map fun round => Wait.mk round.now (hsAdjustTimeout round.now timeout start),
        start.toNat ≤ w.now.toNat ∧
          w.timeout.toInt = max 0 (start.toNat + timeout.toInt - w.now.toNat) := by
    intro ht w hw
    obtain ⟨round, hr, rfl⟩ := List.mem_map.mp hw
    have hle := UInt64.le_iff_toNat_le.mp (hstart round.now (List.mem_map_of_mem hr))
    exact ⟨hle, hsAdjustTimeout_spec ht hle (hroom ht)⟩
  refine InTime.of_prefix ⟨fun w hw => ?_, fun ht w hw => ?_, fun ht => ?_, fun ht w hw => ?_⟩
    (restart_waits timeout start rounds)
  · by_cases hneg : timeout.toInt < 0
    · obtain ⟨round, -, rfl⟩ := List.mem_map.mp hw
      exact iff_of_true (hsAdjustTimeout_neg hneg ▸ by decide) hneg
    · have hw' := (hleft (Int.not_lt.mp hneg) w hw).2
      omega
  · obtain ⟨hle, hw'⟩ := hleft ht w hw
    omega
  · rw [List.pairwise_map] at hsorted ⊢
    refine hsorted.imp_of_mem fun hr hr' hle => ?_
    have hle := UInt64.le_iff_toNat_le.mp hle
    rw [(hleft ht _ (List.mem_map_of_mem hr)).2, (hleft ht _ (List.mem_map_of_mem hr')).2]
    dsimp only
    omega
  · have hw' := (hleft ht w hw).2
    omega

theorem waitThen_inTime {α : Type} {stop : Int → α} {read : α}
    (h : InTime timeout start (restart timeout start rounds).waits) :
    InTime timeout start (waitThen timeout start rounds stop read).waits := by
  unfold waitThen
  split
  · exact h
  · exact h.of_prefix List.nil_prefix

/-- Whatever signals interrupt them, the functions wait in time. -/
theorem waits_inTime (hclock : (start :: rounds.map Round.now).Pairwise (· ≤ ·))
    (hroom : 0 ≤ timeout.toInt → start.toNat + timeout.toInt < 2 ^ 64) :
    (∀ set, InTime timeout start (hsPoll set timeout start rounds).waits) ∧
    (∀ buf read, InTime timeout start (hsSerialRead buf timeout start rounds read).waits) ∧
    ∀ h buf os, InTime timeout start (hsHidRead h buf timeout start rounds os).waits := by
  have hin := restart_inTime hclock hroom
  refine ⟨fun set => ?_, fun buf read => waitThen_inTime hin, fun h buf os => waitThen_inTime hin⟩
  unfold hsPoll
  split
  · next hneg =>
    -- every negative timeout waits like -1
    have hneg := Int32.lt_iff_toInt_lt.mp hneg
    have hone : InTime (-1) start (restart (-1) start rounds).waits :=
      restart_inTime hclock fun h => absurd h (by decide)
    refine ⟨fun w hw => ?_, fun ht => absurd ht (Int.not_le.mpr hneg),
      fun ht => absurd ht (Int.not_le.mpr hneg), fun ht => absurd ht (Int.not_le.mpr hneg)⟩
    exact (hone.endless w hw).trans (iff_of_true (by decide) hneg)
  · exact hin

/-- Two signals, and the time is over: the waits are for 60, 10 and 0 ms. -/
theorem waits_inTime_twice :
    InTime 100 1000 (hsSerialRead [0] 100 1000
      [⟨1040, .interrupted⟩, ⟨1090, .interrupted⟩, ⟨1101, .timedOut⟩] fun _ => .again).waits ∧
    (hsSerialRead [0] 100 1000
      [⟨1040, .interrupted⟩, ⟨1090, .interrupted⟩, ⟨1101, .timedOut⟩] fun _ => .again).waits.map
        Wait.timeout = [60, 10, 0] :=
  ⟨(waits_inTime (by decide) fun _ => by decide).2.1 _ _, by decide⟩

end Libhs.Posix
