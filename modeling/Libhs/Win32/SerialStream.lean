import Libhs.Win32.AsyncRead

/-!
# Serial reads are a stream

`h->len` stands for four situations: unread bytes, a read in flight, a read that
failed, and a read that brought nothing. `Handle.Sound` says what each of them means
for the buffer and the kernel. It is kept by every call, whatever the system answers,
so the bytes that were handed out, followed by the unread ones, are the chunks that
the kernel delivered (`stream_integrity`).
-/

namespace Libhs.Win32.AsyncRead

/-! ## The situations of a handle -/

/-- What `h->len` says about the buffer and the kernel. -/
structure Handle.Sound (h : Handle) : Prop where
  sized : h.buf.length = readBufferSize
  inFlight : h.request = .pending → h.unconsumed = true
  landed : ∀ bytes, h.request = .complete bytes → h.unconsumed = true →
    bytes.length ≤ readBufferSize ∧ h.buf.take bytes.length = bytes
  quiet : h.len ≠ 0 → h.unconsumed = false
  stalled : h.len = 0 → h.unconsumed = false → h.request = .complete []
  bounds : 0 < h.len → h.ptr + h.len.toNat ≤ readBufferSize

/-- The unread bytes. -/
def Handle.unread (h : Handle) : List UInt8 := (h.buf.drop h.ptr).take h.len.toNat

/-- No read was started over another one or over unread bytes. -/
def Handle.CleanStarts (h : Handle) : Prop := ∀ start ∈ h.starts, start.1 = false ∧ start.2 ≤ 0

variable {h h' : Handle} {thread : Nat} {timeout : Int} {call : Call} {type : HsDeviceType}

theorem unread_nil (hl : h.len ≤ 0) : h.unread = [] := by
  unfold Handle.unread
  rw [Int.toNat_of_nonpos hl, List.take_zero]

theorem Handle.Sound.idle (hh : h.Sound) (hlen : h.len ≠ 0) :
    h.unconsumed = false ∧ h.request ≠ .pending := by
  have hun := hh.quiet hlen
  refine ⟨hun, fun hp => ?_⟩
  rw [hh.inFlight hp] at hun
  cases hun

/-! ## The kernel -/

/-- What finishing a read leaves alone. -/
theorem complete_same (h : Handle) (c : Completion) :
    (h.complete c).len = h.len ∧ (h.complete c).unconsumed = h.unconsumed ∧
      (h.complete c).starts = h.starts ∧ (h.complete c).finalized = h.finalized ∧
      (h.complete c).ptr = h.ptr := by
  unfold Handle.complete
  split
  · cases c <;> exact ⟨rfl, rfl, rfl, rfl, rfl⟩
  · exact ⟨rfl, rfl, rfl, rfl, rfl⟩

theorem complete_sound (hh : h.Sound) (c : Completion) : (h.complete c).Sound := by
  unfold Handle.complete
  split
  next hreq =>
    have hun := hh.inFlight hreq
    have hlen : h.len = 0 := by
      by_contra hne
      rw [hh.quiet hne] at hun
      cases hun
    have hno : ¬ h.unconsumed = false := by simp [hun]
    cases c with
    | chunk bytes fits =>
      refine ⟨?_, nofun, ?_, hh.quiet, fun _ hf => absurd hf hno, hh.bounds⟩
      · show (bytes ++ h.buf.drop bytes.length).length = _
        rw [List.length_append, List.length_drop, hh.sized]
        omega
      · intro bytes' he _
        cases he
        exact ⟨fits, List.take_left⟩
    | error => exact ⟨hh.sized, nofun, nofun, hh.quiet, fun _ hf => absurd hf hno, hh.bounds⟩
  · exact hh

/-- The kernel writes to the buffer only while nothing in it is unread. -/
theorem complete_unread (hh : h.Sound) (c : Completion) : (h.complete c).unread = h.unread := by
  by_cases hpos : 0 < h.len
  · have hreq := (hh.idle (by omega)).2
    unfold Handle.complete
    split
    next hp => exact absurd hp hreq
    · rfl
  · rw [unread_nil (Int.not_lt.mp hpos), unread_nil ((complete_same h c).1 ▸ Int.not_lt.mp hpos)]

/-! ## Starting a read -/

/-- Starting a read when none is in flight: it is in flight, or `h->len` is an error. -/
theorem start_spec (thread : Nat) (hs : h.buf.length = readBufferSize) (hun : h.unconsumed = false)
    (hreq : h.request ≠ .pending) (ok : Bool) :
    Handle.Sound { (startAsyncRead h thread ok).2 with len := (startAsyncRead h thread ok).1 } ∧
      (startAsyncRead h thread ok).1 ≤ 0 ∧
      (startAsyncRead h thread ok).2.finalized = h.finalized ∧
      ((startAsyncRead h thread ok).2.starts = h.starts ∨
        (startAsyncRead h thread ok).2.starts = h.starts ++ [(false, h.len)]) := by
  cases ok with
  | true =>
    refine ⟨⟨hs, fun _ => rfl, nofun, fun hne => absurd rfl hne, nofun, nofun⟩, Int.le_refl 0, rfl,
      Or.inr ?_⟩
    show h.starts ++ [(h.unconsumed, h.len)] = _
    rw [hun]
  | false =>
    have hneg := hsError_neg .io (some "I/O error while reading from '%s'")
    refine ⟨⟨hs, fun hp => absurd hp hreq, fun _ _ hu => ?_, fun _ => hun, fun hz => ?_, fun hp => ?_⟩,
      Int.le_of_lt hneg, rfl, Or.inl rfl⟩
    · have hu : h.unconsumed = true := hu
      rw [hun] at hu
      cases hu
    · exact absurd hz (Int.ne_of_lt hneg)
    · exact absurd hp (Int.not_lt.mpr (Int.le_of_lt hneg))

theorem Handle.CleanStarts.start (hc : h.CleanStarts) (hlen : h.len ≤ 0)
    (hst : h'.starts = h.starts ∨ h'.starts = h.starts ++ [(false, h.len)]) : h'.CleanStarts := by
  intro start hm
  rcases hst with he | he
  · exact hc start (he ▸ hm)
  · rw [he] at hm
    rcases List.mem_append.mp hm with hm | hm
    · exact hc start hm
    · obtain rfl := List.mem_singleton.mp hm
      exact ⟨rfl, hlen⟩

theorem restart_sound (hh : h.Sound) (call : Call) : (restart h call).Sound := by
  unfold restart
  split
  next hneg =>
    obtain ⟨hun, hreq⟩ := hh.idle (Int.ne_of_lt hneg)
    exact (start_spec call.thread hh.sized hun hreq call.restartOk).1
  · exact hh

theorem restart_spec (hh : h.Sound) (hc : h.CleanStarts) (call : Call) :
    (restart h call).CleanStarts ∧ (restart h call).finalized = h.finalized ∧
      (restart h call).unread = h.unread := by
  unfold restart
  split
  next hneg =>
    obtain ⟨hun, hreq⟩ := hh.idle (Int.ne_of_lt hneg)
    obtain ⟨-, hle, hfin, hst⟩ := start_spec call.thread hh.sized hun hreq call.restartOk
    exact ⟨hc.start (Int.le_of_lt hneg) hst, hfin,
      (unread_nil hle).trans (unread_nil (Int.le_of_lt hneg)).symm⟩
  · exact ⟨hc, rfl, rfl⟩

/-! ## Finishing a read -/

theorem arrive_spec (hh : h.Sound) (arrival : Option Completion) :
    (h.arrive arrival).Sound ∧ (h.arrive arrival).len = h.len ∧
      (h.arrive arrival).starts = h.starts ∧ (h.arrive arrival).finalized = h.finalized ∧
      (h.arrive arrival).unconsumed = h.unconsumed := by
  cases arrival with
  | none => exact ⟨hh, rfl, rfl, rfl, rfl⟩
  | some c =>
    obtain ⟨hl, hu, hs, hf, -⟩ := complete_same h c
    exact ⟨complete_sound hh c, hl, hs, hf, hu⟩

/-- `finalizeAsyncRead`, by the state of the read after the wait. -/
theorem finalize_cases {arrival : Option Completion} {r : Int}
    (hf : finalizeAsyncRead h timeout arrival = some (r, h')) :
    ((h.arrive arrival).request = .pending ∧ r = 0 ∧ h' = h.arrive arrival) ∨
    (∃ bytes, (h.arrive arrival).request = .complete bytes ∧ r = bytes.length ∧
      h' = { h.arrive arrival with
        unconsumed := false
        finalized := (h.arrive arrival).finalized ++ [bytes]
        pendingThread := 0 }) ∨
    ((h.arrive arrival).request = .failed ∧ r < 0 ∧
      h' = { h.arrive arrival with unconsumed := false, pendingThread := 0 }) := by
  unfold finalizeAsyncRead at hf
  generalize h.arrive arrival = g at hf ⊢
  obtain ⟨buf, ptr, len, pendingThread, request, unconsumed, starts, finalized⟩ := g
  cases request with
  | pending =>
    by_cases hneg : timeout < 0
    · simp [getOverlappedResult, hneg] at hf
    · simp only [getOverlappedResult, hneg, decide_false, Bool.false_eq_true, ↓reduceIte,
        Option.bind_eq_bind, Option.bind_some] at hf
      cases hf
      exact Or.inl ⟨rfl, rfl, rfl⟩
  | complete bytes =>
    cases hf
    exact Or.inr (Or.inl ⟨bytes, rfl, rfl, rfl⟩)
  | failed =>
    cases hf
    exact Or.inr (Or.inr ⟨rfl, hsError_neg .io _, rfl⟩)

/-- The chunk of a finished read is what is unread then. -/
theorem finalize_spec (hh : h.Sound) (hz : h.len = 0) {arrival : Option Completion} {r : Int}
    (hf : finalizeAsyncRead h timeout arrival = some (r, h')) {p : Nat} (hp : 0 < r → p = 0) :
    Handle.Sound { h' with len := r, ptr := p } ∧ h'.starts = h.starts ∧
      h'.finalized.flatten = h.finalized.flatten ++ Handle.unread { h' with len := r, ptr := p } := by
  obtain ⟨hs, hlen, hst, hfin, hun⟩ := arrive_spec hh arrival
  rcases finalize_cases hf with ⟨hreq, rfl, rfl⟩ | ⟨bytes, hreq, rfl, rfl⟩ | ⟨hreq, hneg, rfl⟩
  · -- still in flight
    refine ⟨⟨hs.sized, hs.inFlight, hs.landed, fun hne => absurd rfl hne, fun _ hf => ?_, nofun⟩,
      hst, ?_⟩
    · have hf : (h.arrive arrival).unconsumed = false := hf
      rw [hs.inFlight hreq] at hf
      cases hf
    · rw [unread_nil (Int.le_refl 0), List.append_nil, hfin]
  · -- the read that was started, or the one that was finished before
    have hbytes : bytes.length ≤ readBufferSize ∧
        (h.arrive arrival).buf.take bytes.length = bytes := by
      cases hu : (h.arrive arrival).unconsumed with
      | true => exact hs.landed bytes hreq hu
      | false =>
        have hnil := hs.stalled (hlen.trans hz) hu
        rw [hreq] at hnil
        obtain rfl := Request.complete.inj hnil
        exact ⟨Nat.zero_le _, rfl⟩
    refine ⟨⟨hs.sized, fun he => ?_, nofun, fun _ => rfl, fun hlz _ => ?_, fun hpos => ?_⟩, hst, ?_⟩
    · have he : (h.arrive arrival).request = .pending := he
      rw [hreq] at he
      cases he
    · have hnil : bytes = [] := List.length_eq_zero_iff.mp (Int.natCast_eq_zero.mp hlz)
      rw [← hnil]
      exact hreq
    · obtain rfl := hp hpos
      show 0 + (bytes.length : Int).toNat ≤ readBufferSize
      rw [Int.toNat_natCast]
      omega
    · show ((h.arrive arrival).finalized ++ [bytes]).flatten = _ ++
        (List.drop p (h.arrive arrival).buf).take (bytes.length : Int).toNat
      rw [List.flatten_append, List.flatten_singleton, hfin, Int.toNat_natCast]
      by_cases hpos : 0 < (bytes.length : Int)
      · obtain rfl := hp hpos
        rw [List.drop_zero, hbytes.2]
      · have hnil : bytes = [] := List.length_eq_zero_iff.mp (by omega)
        subst hnil
        rfl
  · -- the read failed
    refine ⟨⟨hs.sized, fun he => ?_, nofun, fun _ => rfl, fun hlz => absurd hlz (Int.ne_of_lt hneg),
      fun hpos => absurd hpos (Int.not_lt.mpr (Int.le_of_lt hneg))⟩, hst, ?_⟩
    · have he : (h.arrive arrival).request = .pending := he
      rw [hreq] at he
      cases he
    · rw [unread_nil (Int.le_of_lt hneg), List.append_nil]
      exact congrArg List.flatten hfin

/-! ## Handing out -/

/-- What is handed out is the beginning of what is unread. -/
theorem handOut_spec (hh : h.Sound) (hc : h.CleanStarts) (hpos : 0 < h.len) (call : Call) :
    (handOut h call).2.Sound ∧ (handOut h call).2.CleanStarts ∧
      (handOut h call).2.finalized = h.finalized ∧
      (handOut h call).1.buf ++ (handOut h call).2.unread = h.unread := by
  obtain ⟨hun, hreq⟩ := hh.idle (by omega)
  have hbounds := hh.bounds hpos
  have hsize : (if call.size > h.len.toNat then h.len.toNat else call.size) =
      min call.size h.len.toNat := by
    rw [Nat.min_def]
    split_ifs <;> omega
  have hunread : h.unread = (h.buf.drop h.ptr).take (min call.size h.len.toNat) ++
      ((h.buf.drop h.ptr).drop (min call.size h.len.toNat)).take
        (h.len.toNat - min call.size h.len.toNat) := by
    unfold Handle.unread
    rw [← List.take_add]
    congr 1
    omega
  unfold handOut
  rw [hsize]
  generalize hn : min call.size h.len.toNat = n at hunread ⊢
  have hle : n ≤ h.len.toNat := by omega
  simp only
  split
  -- the last unread byte was handed out, and the next read is started into the whole buffer
  next hz =>
    obtain ⟨hsound, hle', hfin, hst⟩ := start_spec (h := { h with ptr := h.ptr + n, len := h.len - n })
      call.thread hh.sized hun hreq call.startOk
    have hc' : Handle.CleanStarts { h with ptr := h.ptr + n, len := h.len - n } := hc
    refine ⟨hsound, hc'.start (Int.le_of_eq hz) hst, hfin, ?_⟩
    show (h.buf.drop h.ptr).take n ++ Handle.unread _ = _
    have hall : h.len.toNat - n = 0 := by omega
    rw [unread_nil hle', hunread, hall, List.take_zero]
  next hz =>
    refine ⟨⟨hh.sized, fun he => absurd he hreq, fun b hb hu => ?_, fun _ => hun,
      fun hz' => absurd hz' hz, fun hp => ?_⟩, hc, rfl, ?_⟩
    · exact hh.landed b hb hu
    · show h.ptr + n + (h.len - n).toNat ≤ readBufferSize
      omega
    · show (h.buf.drop h.ptr).take n ++ (h.buf.drop (h.ptr + n)).take (h.len - n).toNat = _
      have hrest : (h.len - n).toNat = h.len.toNat - n := by omega
      rw [hunread, List.drop_drop, hrest]

/-! ## Calls and runs -/

/-- The bytes that were handed out and the unread ones are the chunks. -/
structure State.Streams (s : State) : Prop where
  sound : s.handle.Sound
  clean : s.handle.CleanStarts
  stream : s.returned ++ s.handle.unread = s.handle.finalized.flatten

variable {s s' : State} {act : Action} {actions : List Action} {startOk : Bool}

theorem serialRead_streams (hs : s.Streams) {result : ReadResult}
    (h : hsSerialRead s.handle call = some (result, h')) :
    State.Streams ⟨h', s.returned ++ result.buf⟩ := by
  have hsound := restart_sound hs.sound call
  obtain ⟨hclean, hfin, hunread⟩ := restart_spec hs.sound hs.clean call
  have hstream : s.returned ++ (restart s.handle call).unread =
      (restart s.handle call).finalized.flatten := by
    rw [hunread, hfin]
    exact hs.stream
  unfold hsSerialRead at h
  generalize restart s.handle call = g at h hsound hclean hstream
  simp only at h
  split_ifs at h with hneg hzero
  · -- the read could not be started again
    cases h
    exact ⟨hsound, hclean, by rw [List.append_nil]; exact hstream⟩
  · obtain ⟨⟨r, h₁⟩, hf, h⟩ := Option.bind_eq_some_iff.mp h
    rw [unread_nil (Int.le_of_eq hzero), List.append_nil] at hstream
    split at h
    next hle =>
      cases h
      obtain ⟨hs₁, hst, hflat⟩ := finalize_spec hsound hzero hf (p := h₁.ptr)
        (fun hpos => absurd hpos (Int.not_lt.mpr hle))
      refine ⟨hs₁, fun st hm => hclean st (hst ▸ hm), ?_⟩
      show (s.returned ++ []) ++ _ = h₁.finalized.flatten
      rw [List.append_nil, hflat, hstream]
    -- the chunk that arrived is handed out at once, from its first byte
    next hle =>
      have hpos : 0 < r := Int.not_le.mp hle
      obtain ⟨hs₁, hst, hflat⟩ := finalize_spec hsound hzero hf (p := 0) (fun _ => rfl)
      have hclean₁ : Handle.CleanStarts { h₁ with len := r, ptr := 0 } :=
        fun st hm => hclean st (hst ▸ hm)
      obtain ⟨hs₂, hclean₂, hfin₂, hout⟩ := handOut_spec hs₁ hclean₁ hpos call
      have he : handOut { h₁ with len := r, ptr := 0 } call = (result, h') := Option.some.inj h
      rw [he] at hs₂ hclean₂ hfin₂ hout
      refine ⟨hs₂, hclean₂, ?_⟩
      rw [List.append_assoc, hout, hfin₂, hstream]
      exact hflat.symm
  · -- unread bytes are left from an earlier call
    have hpos : 0 < g.len := by omega
    obtain ⟨hs₁, hclean₁, hfin₁, hout⟩ := handOut_spec hsound hclean hpos call
    have he : handOut g call = (result, h') := Option.some.inj h
    rw [he] at hs₁ hclean₁ hfin₁ hout
    refine ⟨hs₁, hclean₁, ?_⟩
    rw [List.append_assoc, hout, hfin₁, hstream]

theorem step_streams (hs : s.Streams) (h : step .serial s act = some s') : s'.Streams := by
  cases act with
  | complete c =>
    obtain ⟨-, -, hst, hfin, -⟩ := complete_same s.handle c
    cases h
    refine ⟨complete_sound hs.sound c, fun st hm => hs.clean st (hst ▸ hm), ?_⟩
    show s.returned ++ (s.handle.complete c).unread = (s.handle.complete c).finalized.flatten
    rw [complete_unread hs.sound, hfin]
    exact hs.stream
  | read call =>
    simp only [step] at h
    split at h
    · obtain ⟨⟨result, h'⟩, hread, h⟩ := Option.bind_eq_some_iff.mp h
      cases h
      exact serialRead_streams hs hread
    · cases h

theorem start_streams (thread : Nat) (startOk : Bool) : (State.start thread startOk).Streams := by
  cases startOk with
  | true =>
    refine ⟨⟨List.length_replicate, fun _ => rfl, nofun, fun hne => absurd rfl hne, nofun, nofun⟩,
      ?_, rfl⟩
    intro start hm
    obtain rfl := List.mem_singleton.mp hm
    exact ⟨rfl, Int.le_refl 0⟩
  | false =>
    exact ⟨⟨List.length_replicate, nofun, nofun, fun _ => rfl, fun _ _ => rfl, nofun⟩, nofun, rfl⟩

/-- The kernel delivers a chunk, which is read in two calls; the next read cannot be started at
once. -/
def twoCalls : List Action :=
  [.complete (.chunk [1, 2, 3] (by decide)), .read ⟨2, 0, 1, true, none, true⟩,
    .read ⟨2, -1, 1, true, none, false⟩, .read ⟨8, 5, 1, true, none, true⟩]

example : (Run.run (step .serial) (State.start 1 true) twoCalls).map State.returned =
    some [1, 2, 3] := by decide +kernel

end Libhs.Win32.AsyncRead
