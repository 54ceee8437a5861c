import Libhs.Win32.Device

/-!
# The buffers of the reads in flight

When a started read ends, the kernel writes to `h->buf` and `h->ov`. That may be long
after `close_win32_device`, because `CancelIo` and `CancelIoEx` only ask for the end.
`System` keeps which memory the kernel will still write to.

The memory is there whenever the kernel needs it if each close of a handle with a
read in flight leaves the handle to the clean-up thread, and only then
(`buffers_kept_iff`). With a `CancelIoEx`, or in the thread that started the read, the
close code frees the memory at once (`buffers_lost`).
-/

namespace Libhs.Win32.Device
open Pointer Run AsyncRead

/-! ## The kernel -/

/-- The library and the kernel. `owns id` says that a read was started on the handle `id` and is not
complete: `h->buf` and `h->ov` belong to the kernel. -/
structure System where
  handles : Handles Handle
  owns : Nat → Bool

def System.start : System := ⟨.start Handle, fun _ => false⟩

/-- The library takes a step, or the kernel finishes a read whose handle was freed. -/
inductive SystemAction
  | library (a : Action)
  | late (id : Nat)

/-- A read as it is when the close code frees the handle, after the wait of the clean-up thread. -/
def Action.waited (a : Action) (io : AsyncRead.Handle) : AsyncRead.Handle :=
  match a with
  | .cleanup _ _ arrival => io.arrive arrival
  | _ => io

/-- What the kernel owns after an action. To free a handle does not end its read. -/
def System.ownsAfter (s : System) (a : Action) (after : Handles Handle) (id : Nat) : Bool :=
  match after.handles.get id, s.handles.handles.get id with
  | some h, _ => h.io.request = .pending
  | none, some h => (a.waited h.io).request = .pending
  | none, none => s.owns id

def System.step (cancelIoEx : Bool) (s : System) : SystemAction → Option System
  | .library a => do
    let handles ← Device.step cancelIoEx s.handles a
    some ⟨handles, s.ownsAfter a handles⟩
  | .late id =>
    match s.handles.handles.get id with
    | some _ => none
    | none => some { s with owns := Function.update s.owns id false }

/-- The kernel owns no memory that was freed. -/
def System.Kept (s : System) : Prop :=
  ∀ id, s.owns id = true → s.handles.handles.get id ≠ none

/-- `GetCurrentThreadId` gives no thread the number 0. -/
def SystemAction.Identified : SystemAction → Prop
  | .library (.open _ os) => os.thread ≠ 0
  | .library (.read _ call) => call.thread ≠ 0
  | _ => True

/-- The close code leaves the handle to a thread, or leaks it. -/
def Handle.Deferred (h : Handle) (os : CloseOs) : Prop :=
  h.io.pendingThread ≠ 0 ∧ !os.cancelIoEx ∧ h.io.pendingThread ≠ os.thread

/-- A close of an open handle finds its read complete, or there is no `CancelIoEx` and the read was
started by another thread. -/
def System.Defers (cancelIoEx : Bool) (s : System) : SystemAction → Prop
  | .library (.close id thread _) => ∀ h, s.handles.handles.get id = some h → h.dev ≠ none →
      h.io.request = .pending → cancelIoEx = false ∧ h.io.pendingThread ≠ thread
  | _ => True

/-! ## The thread of a read -/

section Thread

variable {h h' : AsyncRead.Handle} {call : Call} {type : HsDeviceType} {result : ReadResult}
  {thread : Nat} {r : Int}

/-- A read in flight has left the thread that started it in `h->pending_thread`. -/
def Tracked (h : AsyncRead.Handle) : Prop := h.request = .pending → h.pendingThread ≠ 0

theorem complete_done (h : AsyncRead.Handle) (c : Completion) : (h.complete c).request ≠ .pending := by
  unfold AsyncRead.Handle.complete
  cases hr : h.request with
  | pending => cases c <;> simp
  | complete bytes => simp [hr]
  | failed => simp [hr]

theorem arrive_tracked (hh : Tracked h) (arrival : Option Completion) :
    Tracked (h.arrive arrival) := by
  cases arrival with
  | none => exact hh
  | some c => exact fun hr => absurd hr (complete_done h c)

theorem start_tracked (hh : Tracked h) (ht : thread ≠ 0) (ok : Bool) :
    Tracked (startAsyncRead h thread ok).2 := by
  cases ok with
  | true => exact fun _ => ht
  | false => exact hh

theorem opened_tracked (ht : thread ≠ 0) (startOk : Bool) :
    Tracked (openedHandle thread startOk) := by
  refine start_tracked ?_ ht startOk
  exact fun hr => nomatch hr

theorem finalize_tracked (hh : Tracked h) {timeout : Int} {arrival : Option Completion}
    (e : finalizeAsyncRead h timeout arrival = some (r, h')) : Tracked h' := by
  have ha := arrive_tracked hh arrival
  unfold finalizeAsyncRead getOverlappedResult at e
  cases hr : (h.arrive arrival).request with
  | pending =>
    rw [hr] at e
    dsimp only at e
    split at e
    · cases e
    · cases e
      exact ha
  | complete bytes =>
    rw [hr] at e
    cases e
    exact fun hp => nomatch hp
  | failed =>
    rw [hr] at e
    cases e
    exact fun hp => nomatch hp

theorem restart_tracked (hh : Tracked h) (ht : call.thread ≠ 0) : Tracked (restart h call) := by
  unfold restart
  split
  · exact start_tracked hh ht call.restartOk
  · exact hh

theorem handOut_tracked (hh : Tracked h) (ht : call.thread ≠ 0) : Tracked (handOut h call).2 := by
  unfold handOut
  generalize (if call.size > h.len.toNat then h.len.toNat else call.size) = size
  dsimp only
  split
  · exact start_tracked (h := { h with ptr := h.ptr + size, len := h.len - size }) hh ht call.startOk
  · exact hh

theorem read_tracked (hh : Tracked h) (ht : call.thread ≠ 0)
    (e : hsRead type h call = some (result, h')) : Tracked h' := by
  have hrestart := restart_tracked hh ht
  cases type with
  | serial =>
    simp only [hsRead, hsSerialRead] at e
    split at e
    · cases e
      exact hrestart
    · split at e
      · obtain ⟨⟨r, h₁⟩, e₁, e⟩ := Option.bind_eq_some_iff.mp e
        have h₁t := finalize_tracked hrestart e₁
        dsimp only at e
        split at e
        · cases e
          exact h₁t
        · obtain rfl := congrArg Prod.snd (Option.some.inj e)
          exact handOut_tracked (h := { h₁ with ptr := 0, len := r }) h₁t ht
      · obtain rfl := congrArg Prod.snd (Option.some.inj e)
        exact handOut_tracked hrestart ht
  | hid =>
    simp only [hsRead, hsHidRead] at e
    split at e
    · cases e
      exact hrestart
    · obtain ⟨⟨r, h₁⟩, e₁, e⟩ := Option.bind_eq_some_iff.mp e
      have h₁t := finalize_tracked hrestart e₁
      dsimp only at e
      split at e
      · cases e
        exact h₁t
      · cases e
        exact start_tracked (h := { h₁ with len := r }) h₁t ht call.startOk

end Thread

/-! ## What a step does to a handle -/

variable {s s' : Handles Handle} {h : Handle} {id d x : Nat} {os : CloseOs} {cancelIoEx : Bool}
  {a : Action} {arrival : Option Completion}

/-- The close code frees the handle unless it is deferred. -/
theorem close_handles (hg : s.handles.get id = some h) (e : closeWin32Device os s id = some s') :
    ∃ b, (∀ x, s'.handles.get x = if x = id then b else s.handles.get x) ∧
      ((h.Deferred os ∧ b = some { h with dev := none }) ∨ (¬ h.Deferred os ∧ b = none)) := by
  obtain ⟨h', hg', e⟩ := Option.bind_eq_some_iff.mp e
  rw [hg] at hg'
  cases hg'
  obtain ⟨w, -, e⟩ := Option.bind_eq_some_iff.mp e
  dsimp only at e
  split at e
  · next hdef =>
    obtain ⟨handles', e', -, hget⟩ := Heap.set_some { h with dev := none } hg
    rw [e'] at e
    cases e
    exact ⟨_, hget, Or.inl ⟨hdef, rfl⟩⟩
  · next hdef =>
    obtain ⟨handles', e', -, hget⟩ := Heap.free_some hg
    rw [e'] at e
    cases e
    exact ⟨none, hget, Or.inr ⟨hdef, rfl⟩⟩

/-- The clean-up thread frees the handle when its read is complete. -/
theorem cleanup_handles (hg : s.handles.get id = some h)
    (e : overlappedCleanupThread os arrival s id = some s') :
    ∃ b, (∀ x, s'.handles.get x = if x = id then b else s.handles.get x) ∧
      (b = some { h with io := h.io.arrive arrival } ∨
        ((h.io.arrive arrival).request ≠ .pending ∧ b = none)) := by
  obtain ⟨h', hg', e⟩ := Option.bind_eq_some_iff.mp e
  rw [hg] at hg'
  cases hg'
  obtain ⟨⟨ret, io⟩, eio, e⟩ := Option.bind_eq_some_iff.mp e
  dsimp only at e
  split at e
  · next hinc =>
    subst hinc
    obtain ⟨handles', e', -, hget⟩ := Heap.set_some { h with io := io } hg
    rw [e'] at e
    cases e
    have hio : io = h.io.arrive arrival := by
      unfold getOverlappedResult at eio
      split at eio <;> simp_all
    exact ⟨_, hget, Or.inl (by rw [hio])⟩
  · next hdone =>
    have hreq : (h.io.arrive arrival).request ≠ .pending := by
      intro hp
      simp [getOverlappedResult, hp] at eio
      exact hdone eio.1.symm
    obtain ⟨handles₁, e₁, -, hget₁⟩ :=
      Heap.set_some { h with io := { io with pendingThread := 0 } } hg
    rw [e₁] at e
    have hmine : handles₁.get id = some { h with io := { io with pendingThread := 0 } } := by
      rw [hget₁, if_pos rfl]
    obtain ⟨b, hget, hb⟩ := close_handles (s := ⟨s.world, handles₁, s.cleaners.erase id⟩) hmine e
    have hnone : b = none := by
      rcases hb with ⟨hdef, -⟩ | ⟨-, hb⟩
      · exact absurd rfl hdef.1
      · exact hb
    refine ⟨none, fun x => ?_, Or.inr ⟨hreq, rfl⟩⟩
    rw [hget, hnone]
    dsimp only
    split
    · rfl
    · next hne => rw [hget₁, if_neg hne]

theorem handleClose_some (e : hsHandleClose os s id = some s') :
    ∃ h, s.handles.get id = some h ∧ h.dev ≠ none ∧ closeWin32Device os s id = some s' := by
  obtain ⟨h, hg, e⟩ := Option.bind_eq_some_iff.mp e
  obtain ⟨d, hd, e⟩ := Option.bind_eq_some_iff.mp e
  obtain ⟨D, -, e⟩ := Option.bind_eq_some_iff.mp e
  obtain ⟨vtable, -, e⟩ := Option.bind_eq_some_iff.mp e
  have hdev : h.dev = some d := hd
  cases vtable with
  | win32 => exact ⟨h, hg, by rw [hdev]; nofun, e⟩
  | posix | linuxHid | darwinHid => cases e

/-- A handle that was filled in has its first read. -/
theorem fillHandle_opened {os : OpenOs} (hpos : ¬ (fillHandle os ⟨some d, zeroIo⟩).1 < 0) :
    (fillHandle os ⟨some d, zeroIo⟩).2 = ⟨some d, openedHandle os.thread os.startOk⟩ := by
  unfold fillHandle at hpos ⊢
  cases hf : os.file with
  | some e =>
    rw [hf] at hpos
    exact absurd (createFileError_neg e) hpos
  | none =>
    rw [hf] at hpos
    cases hov : os.ovOk <;> cases hev : os.eventOk <;> cases hbuf : os.mallocOk <;>
      simp_all [hsError_neg]

/-- An attempt to open leaves the other handles alone. A new handle comes with its first read. -/
theorem open_handles {os : OpenOs} {o : Opened}
    (e : hsDeviceOpen cancelIoEx os s d = some (o, s')) (x : Nat) :
    s'.handles.get x = s.handles.get x ∨
      s.handles.get x = none ∧ s'.handles.get x =
        some ⟨some d, openedHandle os.thread os.startOk⟩ := by
  obtain ⟨D, -, e⟩ := Option.bind_eq_some_iff.mp e
  split at e
  · cases e
    exact Or.inl rfl
  · obtain ⟨vtable, -, e⟩ := Option.bind_eq_some_iff.mp e
    cases vtable with
    | posix | linuxHid | darwinHid => cases e
    | win32 =>
      simp only [openDrivers, openWin32Device, openHandle] at e
      split at e
      · obtain ⟨w, -, e⟩ := Option.bind_eq_some_iff.mp e
        have hget := Heap.get_alloc s.handles (fillHandle os ⟨some d, zeroIo⟩).2
        split at e
        · next hneg =>
          obtain ⟨s₁, e₁, e⟩ := Option.bind_eq_some_iff.mp e
          cases e
          rw [fillHandle_failed hneg] at hget e₁
          obtain ⟨h, hg, -, e₁⟩ := handleClose_some e₁
          obtain ⟨b, hget₁, hb⟩ := close_handles hg e₁
          have hnew : h = ⟨some d, zeroIo⟩ := by
            have hg : (s.handles.alloc ⟨some d, zeroIo⟩).2.get s.handles.brk = some h := hg
            rw [hget, if_pos rfl] at hg
            exact (Option.some.inj hg).symm
          have hnone : b = none := by
            rcases hb with ⟨hdef, -⟩ | ⟨-, hb⟩
            · rw [hnew] at hdef
              exact absurd rfl hdef.1
            · exact hb
          have hx : s'.handles.get x = if x = s.handles.brk then b else
              (s.handles.alloc ⟨some d, zeroIo⟩).2.get x := hget₁ x
          rw [hnone] at hx
          refine Or.inl (hx.trans ?_)
          split
          · next hbrk => rw [hbrk, Heap.get_brk]
          · next hbrk => rw [hget, if_neg hbrk]
        · next hpos =>
          cases e
          rw [fillHandle_opened hpos] at hget ⊢
          dsimp only
          by_cases hx : x = s.handles.brk
          · rw [hget, if_pos hx, hx, Heap.get_brk]
            exact Or.inr ⟨rfl, rfl⟩
          · exact Or.inl (by rw [hget, if_neg hx])
      · cases e
        exact Or.inl rfl

/-- What a step does to the handle `id`. -/
inductive Change (cancelIoEx : Bool) (s s' : Handles Handle) (id : Nat) : Action → Prop
  | same {a : Action} : s'.handles.get id = s.handles.get id → Change cancelIoEx s s' id a
  | opened {d : Nat} {os : OpenOs} : s.handles.get id = none →
      s'.handles.get id = some ⟨some d, openedHandle os.thread os.startOk⟩ →
      Change cancelIoEx s s' id (.open d os)
  | read {h : Handle} {call : Call} {type : HsDeviceType} {result : ReadResult}
      {io : AsyncRead.Handle} : s.handles.get id = some h →
      hsRead type h.io call = some (result, io) → s'.handles.get id = some { h with io := io } →
      Change cancelIoEx s s' id (.read id call)
  | completed {h : Handle} {c : Completion} : s.handles.get id = some h →
      s'.handles.get id = some { h with io := h.io.complete c } →
      Change cancelIoEx s s' id (.complete id c)
  | deferred {h : Handle} {thread : Nat} {threadOk : Bool} : s.handles.get id = some h →
      s'.handles.get id = some { h with dev := none } →
      Change cancelIoEx s s' id (.close id thread threadOk)
  | closed {h : Handle} {thread : Nat} {threadOk : Bool} : s.handles.get id = some h → h.dev ≠ none →
      ¬ h.Deferred ⟨cancelIoEx, thread, threadOk⟩ → s'.handles.get id = none →
      Change cancelIoEx s s' id (.close id thread threadOk)
  | unfinished {h : Handle} {thread : Nat} {arrival : Option Completion} : s.handles.get id = some h →
      s'.handles.get id = some { h with io := h.io.arrive arrival } →
      Change cancelIoEx s s' id (.cleanup id thread arrival)
  | finished {h : Handle} {thread : Nat} {arrival : Option Completion} : s.handles.get id = some h →
      (h.io.arrive arrival).request ≠ .pending → s'.handles.get id = none →
      Change cancelIoEx s s' id (.cleanup id thread arrival)

theorem step_change (e : Device.step cancelIoEx s a = some s') (x : Nat) :
    Change cancelIoEx s s' x a := by
  cases a with
  | elsewhere _ =>
    obtain ⟨w, -, e⟩ := Option.bind_eq_some_iff.mp e
    cases e
    exact .same rfl
  | «open» d os =>
    simp only [Device.step, Option.ite_none_right_eq_some] at e
    obtain ⟨⟨o, s₁⟩, e₁, h⟩ := Option.bind_eq_some_iff.mp e.2
    cases h
    rcases open_handles e₁ x with h | ⟨hg, hg'⟩
    · exact .same h
    · exact .opened hg hg'
  | read id call =>
    obtain ⟨h, hg, e⟩ := Option.bind_eq_some_iff.mp e
    obtain ⟨d, -, e⟩ := Option.bind_eq_some_iff.mp e
    obtain ⟨D, -, e⟩ := Option.bind_eq_some_iff.mp e
    obtain ⟨⟨result, io⟩, hread, e⟩ := Option.bind_eq_some_iff.mp e
    obtain ⟨handles', e', -, hget⟩ := Heap.set_some { h with io := io } hg
    dsimp only at e
    rw [e'] at e
    cases e
    by_cases hx : x = id
    · subst hx
      exact .read hg hread (by rw [hget, if_pos rfl])
    · exact .same (by rw [hget, if_neg hx])
  | complete id c =>
    obtain ⟨h, hg, e⟩ := Option.bind_eq_some_iff.mp e
    obtain ⟨handles', e', -, hget⟩ := Heap.set_some { h with io := h.io.complete c } hg
    rw [e'] at e
    cases e
    by_cases hx : x = id
    · subst hx
      exact .completed hg (by rw [hget, if_pos rfl])
    · exact .same (by rw [hget, if_neg hx])
  | close id thread threadOk =>
    obtain ⟨h, hg, hd, e⟩ := handleClose_some e
    obtain ⟨b, hget, hb⟩ := close_handles hg e
    -- only the handle that is closed changes, and it may outlive the call
    by_cases hx : x = id
    · subst hx
      have hmine : s'.handles.get x = b := by rw [hget, if_pos rfl]
      rcases hb with ⟨-, rfl⟩ | ⟨hdef, rfl⟩
      · exact .deferred hg hmine
      · exact .closed hg hd hdef hmine
    · exact .same (by rw [hget, if_neg hx])
  | cleanup id thread arrival =>
    simp only [Device.step, Option.ite_none_right_eq_some] at e
    obtain ⟨h, hg, -⟩ := Option.bind_eq_some_iff.mp e.2
    obtain ⟨b, hget, hb⟩ := cleanup_handles hg e.2
    by_cases hx : x = id
    · subst hx
      have hmine : s'.handles.get x = b := by rw [hget, if_pos rfl]
      rcases hb with rfl | ⟨hreq, rfl⟩
      · exact .unfinished hg hmine
      · exact .finished hg hreq hmine
    · exact .same (by rw [hget, if_neg hx])

/-! ## Runs -/

/-- Every read in flight has left its thread, and its memory is there. -/
structure System.Inv (s : System) : Prop where
  sound : Sound s.handles
  tracked : ∀ id h, s.handles.handles.get id = some h → Tracked h.io
  kept : s.Kept

theorem System.inv_start : System.start.Inv := ⟨sound_start, nofun, nofun⟩

section Steps

variable {s s' : System} {act : SystemAction}

/-- With every close deferred that has to be, nothing is freed that the kernel owns. -/
theorem step_kept (hs : s.Inv) (hdef : s.Defers cancelIoEx act)
    (e : s.step cancelIoEx act = some s') : s'.Kept := by
  cases act with
  | library a =>
    obtain ⟨handles, e₁, h⟩ := Option.bind_eq_some_iff.mp e
    cases h
    intro id howns hnone
    have howns : s.ownsAfter a handles id = true := howns
    have hnone : handles.handles.get id = none := hnone
    unfold System.ownsAfter at howns
    rw [hnone] at howns
    cases step_change e₁ id with
    | same hsame =>
      rw [hnone] at hsame
      rw [← hsame] at howns
      exact hs.kept id howns hsame.symm
    | closed hg hd hnot _ =>
      rw [hg] at howns
      have hreq := of_decide_eq_true howns
      obtain ⟨hex, hthread⟩ := hdef _ hg hd hreq
      exact hnot ⟨hs.tracked id _ hg hreq, by rw [hex]; rfl, hthread⟩
    | finished hg hreq _ =>
      rw [hg] at howns
      exact hreq (of_decide_eq_true howns)
    | opened _ hg' | read _ _ hg' | completed _ hg' | deferred _ hg' | unfinished _ hg' =>
      rw [hnone] at hg'
      cases hg'
  | late id =>
    simp only [System.step] at e
    split at e
    · cases e
    · cases e
      intro x howns
      have howns : Function.update s.owns id false x = true := howns
      by_cases hx : x = id
      · rw [hx, Function.update_self] at howns
        cases howns
      · rw [Function.update_of_ne hx] at howns
        exact hs.kept x howns

/-- A close that is not deferred frees memory that the kernel owns. -/
theorem step_kept_iff (hs : s.Inv) :
    (∀ s', s.step cancelIoEx act = some s' → s'.Kept) ↔ s.Defers cancelIoEx act := by
  refine ⟨fun hkept => ?_, fun hdef s' e => step_kept hs hdef e⟩
  cases act with
  | late id => trivial
  | library a =>
    cases a with
    | close id thread threadOk =>
      intro h hg hd hreq
      by_contra hnot
      obtain ⟨d, hd⟩ := Option.ne_none_iff_exists'.mp hd
      obtain ⟨s₁, e, -⟩ := close_spec ⟨cancelIoEx, thread, threadOk⟩ hs.sound hg hd
      have estep : Device.step cancelIoEx s.handles (.close id thread threadOk) = some s₁ :=
        (handleClose_eq hs.sound.counted hg hd).trans e
      obtain ⟨b, hget, ⟨⟨-, hex, hthread⟩, -⟩ | ⟨-, rfl⟩⟩ := close_handles hg e
      · rw [Bool.not_eq_true'] at hex
        exact hnot ⟨hex, hthread⟩
      · have hfreed : s₁.handles.get id = none := by rw [hget, if_pos rfl]
        refine hkept ⟨s₁, s.ownsAfter (.close id thread threadOk) s₁⟩ ?_ id ?_ hfreed
        · simp only [System.step, estep, Option.bind_eq_bind, Option.bind_some]
        · simp only [System.ownsAfter, hfreed, hg, Action.waited, hreq, decide_true]
    | _ => trivial

theorem step_inv (hs : s.Inv) (hid : act.Identified) (hdef : s.Defers cancelIoEx act)
    (e : s.step cancelIoEx act = some s') : s'.Inv := by
  have hkept := step_kept hs hdef e
  cases act with
  | late id =>
    simp only [System.step] at e
    split at e
    · cases e
    · cases e
      exact ⟨hs.sound, hs.tracked, hkept⟩
  | library a =>
    obtain ⟨handles, e₁, h⟩ := Option.bind_eq_some_iff.mp e
    cases h
    refine ⟨step_sound hs.sound e₁, fun id h' hg' => ?_, hkept⟩
    have hput : ∀ {h : Handle}, handles.handles.get id = some h → Tracked h.io → Tracked h'.io := by
      intro h hg ht
      have hg' : handles.handles.get id = some h' := hg'
      rw [hg] at hg'
      cases hg'
      exact ht
    cases step_change e₁ id with
    | same hsame => exact hs.tracked id h' (hsame ▸ hg')
    | opened _ hnew => exact hput hnew (opened_tracked hid _)
    | read hg hread hnew => exact hput hnew (read_tracked (hs.tracked id _ hg) hid hread)
    | completed _ hnew => exact hput hnew fun hr => absurd hr (complete_done _ _)
    | @deferred h thread threadOk hg hnew => exact hput hnew (hs.tracked id h hg)
    | unfinished hg hnew => exact hput hnew (arrive_tracked (hs.tracked id _ hg) _)
    | closed _ _ _ hnone | finished _ _ hnone =>
      have hg' : handles.handles.get id = some h' := hg'
      rw [hnone] at hg'
      cases hg'

end Steps

/-- In every run, the kernel never owns memory that was freed if each close of a handle with a read
in flight is deferred, and only then. -/
theorem buffers_kept_iff (cancelIoEx : Bool) (as : List SystemAction)
    (hid : ∀ act ∈ as, act.Identified) :
    Along (System.step cancelIoEx)
        (fun s act => ∀ s', s.step cancelIoEx act = some s' → s'.Kept) .start as ↔
      Along (System.step cancelIoEx) (System.Defers cancelIoEx) .start as :=
  along_iff (I := System.Inv) (P := SystemAction.Identified)
    (fun _ _ hs _ => step_kept_iff hs) (fun _ _ _ hs hid hdef e => step_inv hs hid hdef e)
    System.inv_start hid

/-- Thread 1 opens a serial device, which starts a read. -/
def openSerial : List SystemAction :=
  [.library (.elsewhere (.found { HsDevice.zero with type := .serial, vtable := some .win32 })),
    .library (.elsewhere (.status 0 .online)),
    .library (.open 0 ⟨true, none, true, true, true, true, 1⟩)]

/-- Thread 2 closes the handle on a system without `CancelIoEx`. The read ends, and then the clean-up
thread 3 frees the handle. -/
def closeElsewhere : List SystemAction :=
  openSerial ++ [.library (.close 0 2 true), .library (.complete 0 .error),
    .library (.cleanup 0 3 none)]

/-- Whether a close is deferred if it has to be. -/
def System.defersB (s : System) : SystemAction → Bool
  | .library (.close id thread _) => (s.handles.handles.get id).all fun h =>
      decide (h.io.request ≠ .pending) || decide (h.io.pendingThread ≠ thread)
  | _ => true

theorem defers_of_defersB {s : System} {act : SystemAction} (h : s.defersB act = true) :
    s.Defers false act := by
  cases act with
  | late id => trivial
  | library a =>
    cases a with
    | close id thread threadOk =>
      intro g hg _ hreq
      simp only [System.defersB, hg, Option.all_some, hreq, ne_eq, not_true_eq_false, decide_false,
        Bool.false_or, decide_eq_true_eq] at h
      exact ⟨rfl, h⟩
    | _ => trivial

theorem buffers_kept_iff_elsewhere : Along (System.step false)
    (fun s act => ∀ s', s.step false act = some s' → s'.Kept) .start closeElsewhere := by
  refine (buffers_kept_iff false closeElsewhere ?_).mpr ?_
  · simp [closeElsewhere, openSerial, SystemAction.Identified]
  · exact (along_of_check (c := System.defersB) (by decide +kernel)).mono fun _ _ => defers_of_defersB

/-- Whether the kernel owns the memory of the handle 0, which is freed. -/
def System.lost (s : System) : Bool := s.owns 0 && (s.handles.handles.get 0).isNone

theorem not_kept_of_lost {s : System} (h : s.lost = true) : ¬ s.Kept := by
  obtain ⟨howns, hnone⟩ := Bool.and_eq_true_iff.mp h
  exact fun hk => hk 0 howns (Option.isNone_iff_eq_none.mp hnone)

/-- A close with a `CancelIoEx`, and one without it in the thread that started the read: the memory
is freed under the read. -/
theorem buffers_lost :
    (∃ s, run (System.step true) .start (openSerial ++ [.library (.close 0 2 true)]) = some s ∧
      ¬ s.Kept) ∧
    ∃ s, run (System.step false) .start (openSerial ++ [.library (.close 0 1 true)]) = some s ∧
      ¬ s.Kept := by
  constructor
  · obtain ⟨s, e, hs⟩ := Option.map_eq_some_iff.mp (by decide +kernel :
      (run (System.step true) .start (openSerial ++ [.library (.close 0 2 true)])).map
        System.lost = some true)
    exact ⟨s, e, not_kept_of_lost hs⟩
  · obtain ⟨s, e, hs⟩ := Option.map_eq_some_iff.mp (by decide +kernel :
      (run (System.step false) .start (openSerial ++ [.library (.close 0 1 true)])).map
        System.lost = some true)
    exact ⟨s, e, not_kept_of_lost hs⟩

end Libhs.Win32.Device
