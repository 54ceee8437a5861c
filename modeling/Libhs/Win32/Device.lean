import Libhs.Handles
import Libhs.Win32.AsyncRead

/-!
# `device_win32.c`: opening and closing

`open_win32_device` starts the first read. When a read is in flight and Windows has
no `CancelIoEx`, only the thread that started it can cancel it: a close by another
thread leaves the handle to a thread that waits for the end of the read and runs
the close code again. `h->dev` is NULL by then, so that the second run drops no
reference.

`Sound` is the invariant of a run, and `open_atomic`, `close_lowers` and
`cleanup_keeps` are what it says about the three functions.
-/

namespace Libhs.Win32.Device
open Pointer Run AsyncRead

/-- `h->dev`, and the fields that reading works on. The file, the event and the buffer go with the
handle. -/
structure Handle where
  dev : Option Nat
  io : AsyncRead.Handle

instance : HandleType Handle := ⟨Handle.dev, fun _ => .win32⟩

/-! ## Opening -/

/-- The errors of `CreateFile`. -/
inductive FileError
  | fileNotFound
  | pathNotFound
  | notEnoughMemory
  | outOfMemory
  | accessDenied
  | other
deriving DecidableEq, Repr

/-- The `switch (GetLastError())` of `open_win32_device`. -/
def createFileError : FileError → Int
  | .fileNotFound | .pathNotFound => hsError .notFound (some "Device '%s' not found")
  | .notEnoughMemory | .outOfMemory => hsError .memory none
  | .accessDenied => hsError .access (some "Permission denied for device '%s'")
  | .other => hsError .system (some "CreateFile('%s') failed: %s")

/-- The answers of the system to an attempt to open a device: the error of `CreateFile`, and whether
the read can be started. `thread` makes the call. -/
structure OpenOs where
  callocOk : Bool
  file : Option FileError
  ovOk : Bool
  eventOk : Bool
  mallocOk : Bool
  startOk : Bool
  thread : Nat

/-- The fields of a handle fresh from `calloc`. -/
def zeroIo : AsyncRead.Handle := ⟨[], 0, 0, 0, .complete [], false, [], []⟩

/-- `open_win32_device` on the new handle; the result of starting the read is ignored. -/
def fillHandle (os : OpenOs) (h : Handle) : Int × Handle :=
  match os.file with
  | some e => (createFileError e, h)
  | none =>
    if !os.ovOk then (hsError .memory none, h)
    else if !os.eventOk then (hsError .system (some "CreateEvent() failed: %s"), h)
    else if !os.mallocOk then (hsError .memory none, h)
    else (0, { h with io := openedHandle os.thread os.startOk })

/-! ## Closing -/

/-- The system, and the thread that makes a call: whether there is a `CancelIoEx`, and whether
`_beginthreadex` can start a thread. -/
structure CloseOs where
  cancelIoEx : Bool
  thread : Nat
  threadOk : Bool

/-- `close_win32_device`. Without a thread to finish it, the handle is leaked. -/
def closeWin32Device (os : CloseOs) (s : Handles Handle) (id : Nat) : Option (Handles Handle) := do
  let h ← s.handles.get id
  let w ← hsDeviceUnref s.world h.dev
  let h := { h with dev := none }
  if h.io.pendingThread ≠ 0 ∧ !os.cancelIoEx ∧ h.io.pendingThread ≠ os.thread then do
    let handles ← s.handles.set id h
    some ⟨w, handles, if os.threadOk then id :: s.cleaners else s.cleaners⟩
  else do
    let handles ← s.handles.free id
    some ⟨w, handles, s.cleaners⟩

/-- `overlapped_cleanup_thread`; `arrival` is what the kernel does while it waits. -/
def overlappedCleanupThread (os : CloseOs) (arrival : Option Completion) (s : Handles Handle)
    (id : Nat) : Option (Handles Handle) := do
  let h ← s.handles.get id
  let (ret, io) ← getOverlappedResult (h.io.arrive arrival) false
  let s := { s with cleaners := s.cleaners.erase id }
  if ret = .incomplete then do
    let handles ← s.handles.set id { h with io := io }
    some { s with handles := handles }
  else do
    let handles ← s.handles.set id { h with io := { io with pendingThread := 0 } }
    closeWin32Device os { s with handles := handles } id

/-- The drivers a Windows build links. -/
def closeDrivers (os : CloseOs) : Vtable → Handles Handle → Nat → Option (Handles Handle)
  | .win32 => closeWin32Device os
  | .posix | .linuxHid | .darwinHid => fun _ _ => none

/-- `hs_handle_close` on Windows. -/
def hsHandleClose (os : CloseOs) : Handles Handle → Nat → Option (Handles Handle) :=
  handleClose (closeDrivers os)

/-- `open_win32_device`. -/
def openWin32Device (cancelIoEx : Bool) (os : OpenOs) (s : Handles Handle) (d : Nat) :
    Option (Opened × Handles Handle) :=
  openHandle (hsHandleClose ⟨cancelIoEx, os.thread, true⟩) os.callocOk ⟨some d, zeroIo⟩
    (fillHandle os) s d

def openDrivers (cancelIoEx : Bool) (os : OpenOs) :
    Vtable → Handles Handle → Nat → Option (Opened × Handles Handle)
  | .win32 => openWin32Device cancelIoEx os
  | .posix | .linuxHid | .darwinHid => fun _ _ => none

/-- `hs_device_open` on Windows. -/
def hsDeviceOpen (cancelIoEx : Bool) (os : OpenOs) :
    Handles Handle → Nat → Option (Opened × Handles Handle) :=
  deviceOpen (openDrivers cancelIoEx os)

/-! ## The system -/

/-- What happens to the handles: calls of the user, the end of a read, and the threads that finish
a close. -/
inductive Action
  | elsewhere (e : Elsewhere)
  | «open» (d : Nat) (os : OpenOs)
  | read (id : Nat) (call : Call)
  | complete (id : Nat) (c : Completion)
  | close (id : Nat) (thread : Nat) (threadOk : Bool)
  | cleanup (id : Nat) (thread : Nat) (arrival : Option Completion)

/-- One step, if it can be taken. The user works on open handles, and lets no counter run over. -/
def step (cancelIoEx : Bool) (s : Handles Handle) : Action → Option (Handles Handle)
  | .elsewhere e => do
    let w ← s.world.elsewhere e
    some { s with world := w }
  | .open d os =>
    if mayRef uintMod s.world d then do
      let (_, s) ← hsDeviceOpen cancelIoEx os s d
      some s
    else none
  | .read id call => do
    let h ← s.handles.get id
    let d ← h.dev
    let D ← s.world.devs.get d
    let (_, io) ← hsRead D.type h.io call
    let handles ← s.handles.set id { h with io := io }
    some { s with handles := handles }
  | .complete id c => do
    let h ← s.handles.get id
    let handles ← s.handles.set id { h with io := h.io.complete c }
    some { s with handles := handles }
  | .close id thread threadOk => hsHandleClose ⟨cancelIoEx, thread, threadOk⟩ s id
  | .cleanup id thread arrival =>
    if id ∈ s.cleaners then overlappedCleanupThread ⟨cancelIoEx, thread, true⟩ arrival s id
    else none

/-! ## Invariant -/

/-- The counters are right, and the handles that threads have to close have no device any more. -/
structure Sound (s : Handles Handle) : Prop where
  counted : s.Counted
  nodup : s.cleaners.Nodup
  closed : ∀ id ∈ s.cleaners, ∃ h, s.handles.get id = some h ∧ h.dev = none

variable {s s' : Handles Handle} {h : Handle} {d id : Nat} {D : HsDevice} {os : CloseOs}
  {arrival : Option Completion} {cancelIoEx : Bool} {a : Action}

theorem sound_start : Sound (.start Handle) := ⟨counted_start Handle, List.nodup_nil, nofun⟩

/-- The first run of the close code on a handle. -/
theorem close_spec (os : CloseOs) (hs : Sound s) (hg : s.handles.get id = some h) (hd : h.dev = some d) :
    ∃ s', closeWin32Device os s id = some s' ∧ Sound s' ∧ Lowered s.world s'.world d ∧
      ∀ d', ¬ s'.IsOpen d' id := by
  obtain ⟨w, e, hlow, hput⟩ := drop_spec hs.counted hg hd
  have hnew : id ∉ s.cleaners := by
    intro hm
    obtain ⟨h', hg', hnone⟩ := hs.closed id hm
    rw [hg] at hg'
    cases hg'
    rw [hd] at hnone
    cases hnone
  unfold closeWin32Device
  simp only [hg, hd, e, Option.bind_eq_bind, Option.bind_some]
  split
  · -- a thread finishes the close, or the handle is leaked
    obtain ⟨handles', e', hb, hget⟩ := Heap.set_some { h with dev := none } hg
    have hmine : handles'.get id = some { h with dev := none } := by rw [hget, if_pos rfl]
    refine ⟨_, by rw [e']; rfl, ⟨?_, ?_, ?_⟩, hlow, ?_⟩
    · refine hput hb hget fun h' e => ?_
      cases e
      rfl
    · dsimp only
      split
      · exact List.nodup_cons.mpr ⟨hnew, hs.nodup⟩
      · exact hs.nodup
    · have hold : ∀ x ∈ s.cleaners, ∃ h, handles'.get x = some h ∧ h.dev = none := by
        intro x hx
        rw [hget, if_neg (ne_of_mem_of_not_mem hx hnew)]
        exact hs.closed x hx
      dsimp only
      split
      · intro x hx
        rcases List.mem_cons.mp hx with rfl | hx
        · exact ⟨_, hmine, rfl⟩
        · exact hold x hx
      · exact hold
    · rintro d' ⟨h', hg', hd'⟩
      rw [hmine] at hg'
      cases hg'
      cases hd'
  -- no read is left in flight, and the handle is freed at once
  · obtain ⟨handles', e', hb, hget⟩ := Heap.free_some hg
    refine ⟨_, by rw [e']; rfl, ⟨hput hb hget nofun, hs.nodup, fun x hx => ?_⟩, hlow, ?_⟩
    · dsimp only
      rw [hget, if_neg (ne_of_mem_of_not_mem hx hnew)]
      exact hs.closed x hx
    · rintro d' ⟨h', hg', -⟩
      have hg' : handles'.get id = some h' := hg'
      rw [hget, if_pos rfl] at hg'
      cases hg'

/-- The second run, by the thread that finishes the close. -/
theorem closeAgain_spec (os : CloseOs) (hc : s.Counted) (hg : s.handles.get id = some h)
    (hd : h.dev = none) (hp : h.io.pendingThread = 0) :
    ∃ handles', closeWin32Device os s id = some { s with handles := handles' } ∧
      { s with handles := handles' }.Counted ∧
      ∀ x, handles'.get x = if x = id then none else s.handles.get x := by
  obtain ⟨handles', e, hget, hc'⟩ := free_spec hc hg hd
  refine ⟨handles', ?_, hc', hget⟩
  simp [closeWin32Device, hg, hd, hsDeviceUnref, hp, e]

/-- What the thread finds at the end of its wait. -/
theorem overlapped_some (h : AsyncRead.Handle) : ∃ ret io, getOverlappedResult h false = some (ret, io) := by
  unfold getOverlappedResult
  cases h.request <;> exact ⟨_, _, rfl⟩

theorem cleanup_spec (os : CloseOs) (arrival : Option Completion) (hs : Sound s)
    (hm : id ∈ s.cleaners) :
    ∃ s', overlappedCleanupThread os arrival s id = some s' ∧ Sound s' ∧ s'.world = s.world := by
  obtain ⟨h, hg, hd⟩ := hs.closed id hm
  obtain ⟨ret, io, e⟩ := overlapped_some (h.io.arrive arrival)
  have hrest : ∀ x ∈ s.cleaners.erase id, x ≠ id ∧ x ∈ s.cleaners := fun x hx =>
    (List.Nodup.mem_erase_iff hs.nodup).mp hx
  unfold overlappedCleanupThread
  simp only [hg, e, Option.bind_eq_bind, Option.bind_some]
  split
  · obtain ⟨handles', e', hget, hc⟩ := set_spec hs.counted hg { h with io := io } rfl rfl
    refine ⟨⟨s.world, handles', s.cleaners.erase id⟩, by rw [e']; rfl,
      ⟨⟨hc.counts, hc.served⟩, hs.nodup.erase id, fun x hx => ?_⟩, rfl⟩
    obtain ⟨hne, hx⟩ := hrest x hx
    dsimp only
    rw [hget, if_neg hne]
    exact hs.closed x hx
  · obtain ⟨handles₁, e₁, hget₁, hc₁⟩ := set_spec hs.counted hg
      { h with io := { io with pendingThread := 0 } } rfl rfl
    have hmine : handles₁.get id = some { h with io := { io with pendingThread := 0 } } := by
      rw [hget₁, if_pos rfl]
    obtain ⟨handles', e', hc', hget'⟩ := closeAgain_spec os
      (s := ⟨s.world, handles₁, s.cleaners.erase id⟩) ⟨hc₁.counts, hc₁.served⟩ hmine hd rfl
    refine ⟨⟨s.world, handles', s.cleaners.erase id⟩, by rw [e₁]; exact e',
      ⟨hc', hs.nodup.erase id, fun x hx => ?_⟩, rfl⟩
    obtain ⟨hne, hx⟩ := hrest x hx
    dsimp only at hget' ⊢
    rw [hget', if_neg hne, hget₁, if_neg hne]
    exact hs.closed x hx

/-! ## The functions -/

theorem createFileError_neg (e : FileError) : createFileError e < 0 := by
  cases e <;> simp [createFileError, hsError_neg]

theorem fillHandle_dev (os : OpenOs) (h : Handle) : (fillHandle os h).2.dev = h.dev := by
  unfold fillHandle
  cases os.file with
  | some e => rfl
  | none =>
    cases os.ovOk with
    | false => rfl
    | true =>
      cases os.eventOk with
      | false => rfl
      | true => cases os.mallocOk <;> rfl

/-- A failure comes before the first read. -/
theorem fillHandle_failed {os : OpenOs} {d : Nat} (hneg : (fillHandle os ⟨some d, zeroIo⟩).1 < 0) :
    (fillHandle os ⟨some d, zeroIo⟩).2 = ⟨some d, zeroIo⟩ := by
  unfold fillHandle at hneg ⊢
  cases hf : os.file with
  | some e => rfl
  | none =>
    rw [hf] at hneg
    cases hov : os.ovOk with
    | false => rfl
    | true =>
      cases hev : os.eventOk with
      | false => rfl
      | true =>
        cases hbuf : os.mallocOk with
        | false => rfl
        | true =>
          rw [hov, hev, hbuf] at hneg
          exact absurd hneg (Int.lt_irrefl 0)

/-- The `goto error` of `open_win32_device`, with no read in flight. -/
theorem closeNew_spec (hc : s.Counted) (hg : s.handles.get id = some h) (hd : h.dev = some d)
    (hp : h.io.pendingThread = 0) :
    ∃ s', hsHandleClose os s id = some s' ∧ s'.Counted ∧ Lowered s.world s'.world d ∧
      s.Apart s' id := by
  obtain ⟨w, e, hlow, hput⟩ := drop_spec hc hg hd
  obtain ⟨handles', e', hb, hget⟩ := Heap.free_some hg
  refine ⟨⟨w, handles', s.cleaners⟩, ?_, hput hb hget nofun, hlow, rfl, fun x hx => ?_⟩
  · rw [hsHandleClose, handleClose_eq hc hg hd]
    show closeWin32Device os s id = _
    simp [closeWin32Device, hg, hd, e, hp, e']
  · dsimp only
    rw [hget, if_neg hx]

theorem Sound.apart (hs : Sound s) (hc : s'.Counted) (ha : s.Apart s' s.handles.brk) : Sound s' := by
  refine ⟨hc, ha.cleaners ▸ hs.nodup, fun x hx => ?_⟩
  rw [ha.cleaners] at hx
  obtain ⟨h, hg, hd⟩ := hs.closed x hx
  exact ⟨h, (ha.others x (Nat.ne_of_lt (Heap.lt_brk hg))).trans hg, hd⟩

theorem open_spec (hs : Sound s) (hD : s.world.devs.get d = some D) (hon : D.state = .online)
    (hv : D.vtable = some .win32) (hb : D.refcount + 1 < uintMod) (os : OpenOs) :
    ∃ o s', hsDeviceOpen cancelIoEx os s d = some (o, s') ∧ Sound s' ∧
      OpenAtomic s.world s'.world (s'.IsOpen d) d o := by
  have hdev : (fillHandle os ⟨some d, zeroIo⟩).2.dev = some d := fillHandle_dev os ⟨some d, zeroIo⟩
  obtain ⟨o, s', e, hc, ha, hatomic⟩ := openHandle_spec
    (hsHandleClose ⟨cancelIoEx, os.thread, true⟩) os.callocOk hs.counted hD hb
    hdev hv fun hneg s₁ id hc hg => closeNew_spec hc hg hdev (by rw [fillHandle_failed hneg]; rfl)
  exact ⟨o, s', (deviceOpen_eq hD hon hv).trans e, hs.apart hc ha, hatomic⟩

/-! ## Runs -/

theorem Sound.set (hs : Sound s) (hg : s.handles.get id = some h) (io : AsyncRead.Handle)
    {handles' : Heap Handle} (e : s.handles.set id { h with io := io } = some handles') :
    Sound { s with handles := handles' } := by
  obtain ⟨handles₁, e₁, hget, hc⟩ := set_spec hs.counted hg { h with io := io } rfl rfl
  rw [e] at e₁
  cases e₁
  refine ⟨hc, hs.nodup, fun x hx => ?_⟩
  obtain ⟨g, hg', hd⟩ := hs.closed x hx
  dsimp only
  rw [hget]
  split
  · next he =>
    rw [he, hg] at hg'
    cases hg'
    exact ⟨_, rfl, hd⟩
  · exact ⟨g, hg', hd⟩

theorem open_sound {os : OpenOs} {o : Opened} (hs : Sound s)
    (hm : mayRef uintMod s.world d = true)
    (h : hsDeviceOpen cancelIoEx os s d = some (o, s')) : Sound s' := by
  rcases deviceOpen_cases h with rfl | ⟨D, vtable, hD, hon, hv, e⟩
  · exact hs
  · simp only [mayRef, hD, decide_eq_true_eq] at hm
    cases vtable with
    | win32 =>
      obtain ⟨o', s₁, e, hs₁, -⟩ := open_spec hs hD hon hv hm os
      rw [e] at h
      cases h
      exact hs₁
    | posix | linuxHid | darwinHid => cases e

theorem close_sound {os : CloseOs} (hs : Sound s) (h : hsHandleClose os s id = some s') :
    Sound s' := by
  obtain ⟨g, hg, h'⟩ := Option.bind_eq_some_iff.mp h
  obtain ⟨d, hd, -⟩ := Option.bind_eq_some_iff.mp h'
  obtain ⟨s₁, e, hs₁, -⟩ := close_spec os hs hg hd
  rw [hsHandleClose, handleClose_eq hs.counted hg hd] at h
  rw [show closeDrivers os (HandleType.vtable g) s id = closeWin32Device os s id from rfl, e] at h
  cases h
  exact hs₁

theorem step_sound (hs : Sound s) (h : step cancelIoEx s a = some s') : Sound s' := by
  cases a with
  | elsewhere e =>
    obtain ⟨w, hw, h⟩ := Option.bind_eq_some_iff.mp h
    cases h
    exact ⟨elsewhere_counted hs.counted hw, hs.nodup, hs.closed⟩
  | «open» d os =>
    simp only [step, Option.ite_none_right_eq_some] at h
    obtain ⟨hm, h⟩ := h
    obtain ⟨⟨o, s₁⟩, e, h⟩ := Option.bind_eq_some_iff.mp h
    cases h
    exact open_sound hs hm e
  | read id call =>
    obtain ⟨g, hg, h⟩ := Option.bind_eq_some_iff.mp h
    obtain ⟨d, -, h⟩ := Option.bind_eq_some_iff.mp h
    obtain ⟨D, -, h⟩ := Option.bind_eq_some_iff.mp h
    obtain ⟨⟨r, io⟩, -, h⟩ := Option.bind_eq_some_iff.mp h
    obtain ⟨handles', e, h⟩ := Option.bind_eq_some_iff.mp h
    cases h
    exact hs.set hg io e
  | complete id c =>
    obtain ⟨g, hg, h⟩ := Option.bind_eq_some_iff.mp h
    obtain ⟨handles', e, h⟩ := Option.bind_eq_some_iff.mp h
    cases h
    exact hs.set hg _ e
  | close id thread threadOk => exact close_sound hs h
  | cleanup id thread arrival =>
    simp only [step, Option.ite_none_right_eq_some] at h
    obtain ⟨hm, h⟩ := h
    obtain ⟨s₁, e, hs₁, -⟩ := cleanup_spec ⟨cancelIoEx, thread, true⟩ arrival hs hm
    rw [e] at h
    cases h
    exact hs₁

theorem run_sound {actions : List Action}
    (h : run (step cancelIoEx) (.start Handle) actions = some s) : Sound s :=
  run_rule_always (fun _ _ _ hs e => step_sound hs e) sound_start h

end Libhs.Win32.Device
