import Libhs.Win32.Monitor
import Libhs.Lib.Run

/-!
# The steps of the Windows monitor

`Steps` lists what a step can be, with the point of the program it starts at
(`steps_of_step`). Every invariant of the system is then one case analysis over it.
-/

namespace Libhs.Win32
open Pointer

/-- What a step from `s` to `s'` can be. -/
inductive Steps (u : User) (s s' : State) : Action → Prop
  | newMonitor {os} : s.main = .absent → s.newMonitor os = some s' → Steps u s s' (.newMonitor os)
  | scanClass {set c classes} : s.main = .scanning [] (c :: classes) →
      s.scanClass set classes = some s' → Steps u s s' (.scanClass set)
  | readDevice {os k set classes} : s.main = .scanning (k :: set) classes →
      s.readDevice u os set classes = some s' → Steps u s s' (.readDevice os)
  | beginThread {ok} : s.main = .scanning [] [] ∨ s.main = .starting → s' = s.beginThread ok →
      Steps u s s' (.beginThread ok)
  | waitEvent {ok} : s.main = .waiting → s.waitEvent ok = some s' → Steps u s s' (.waitEvent ok)
  | checkRet : s.main = .checking → s.checkRet = some s' → Steps u s s' .checkRet
  | resetEvent : s.main = .resetting → s' = s.resetEvent → Steps u s s' .resetEvent
  | beginRefresh : s.main = .idle → s.beginRefresh = some s' → Steps u s s' .beginRefresh
  | processNotification {os cur next} : s.main = .refreshing cur next →
      s.processNotification u os cur next = some s' → Steps u s s' (.processNotification os)
  | endRefresh {r} : s.main = .finishing r → s.endRefresh r = some s' → Steps u s s' .endRefresh
  | freeMonitor : s.main = .idle → s.freeMonitor 0 = some s' → Steps u s s' .freeMonitor
  | joinThread {r} : s.main = .freeing r → s.thread.ended → s.joinThread r = some s' →
      Steps u s s' .joinThread
  | register {f callocOk r w} : s.main = .idle →
      hsMonitorRegisterCallback s.world f callocOk = some (r, w) → s' = { s with world := w } →
      Steps u s s' (.register f callocOk)
  | deregister {id w} : s.main = .idle → hsMonitorDeregisterCallback s.world id = some w →
      s' = { s with world := w } → Steps u s s' (.deregister id)
  | list {f r w} : s.main = .idle → hsMonitorList u s.world f = some (r, w) →
      s' = { s with world := w } → Steps u s s' (.list f)
  | enumerate {f os r w} : s.main.outside →
      hsEnumerate (userEnumerate u f) os s.world = some (r, w) → s' = { s with world := w } →
      Steps u s s' (.enumerate f os)
  | user {act w} : s.main.outside → userAct u.limit s.world act = some w →
      s' = { s with world := w } → Steps u s s' (.user act)
  | setUp {call ok} : s.thread = .settingUp call → s' = s.setUp call ok → Steps u s s' (.setUp ok)
  | signalReady : s.thread = .ready → s' = s.signalReady → Steps u s s' .signalReady
  | dispatch {os} : s.thread = .waiting → s.dispatch os = some s' → Steps u s s' (.dispatch os)
  | post {a} : s.thread = .posting a → s.post a = some s' → Steps u s s' .post
  | storeError {r} : s.thread = .failing r → s' = s.storeError r → Steps u s s' .storeError
  | getMessageFails : s.thread = .waiting → s' = s.getMessageFails → Steps u s s' .getMessageFails
  | quit : s.thread = .waiting → s.quit = some s' → Steps u s s' .quit
  | leave {r} : s.thread = .leaving r → s' = s.leave r → Steps u s s' .leave
  | signalError : s.thread = .signalling → s' = s.signalError → Steps u s s' .signalError
  | arrive {name node} : s.arrive name node = some s' → Steps u s s' (.arrive name node)
  | depart {name} : s.depart name = some s' → Steps u s s' (.depart name)

variable {u : User} {s s' : State} {a : Action} {r : Int}

theorem call_some {f : World → Option World} (h : s.call f = some s') :
    ∃ w, f s.world = some w ∧ s' = { s with world := w } := by
  obtain ⟨w, e, h⟩ := Option.bind_eq_some_iff.mp h
  exact ⟨w, e, (Option.some.inj h).symm⟩

/-- A call whose result is dropped. -/
theorem callResult_some {α : Type} {f : World → Option (α × World)}
    (h : (s.call fun w => do
      let (_, w) ← f w
      some w) = some s') : ∃ r w, f s.world = some (r, w) ∧ s' = { s with world := w } := by
  obtain ⟨w, e, rfl⟩ := call_some h
  obtain ⟨⟨r, w'⟩, e', h'⟩ := Option.bind_eq_some_iff.mp e
  cases h'
  exact ⟨r, w, e', rfl⟩

theorem steps_of_mainStep {main : Main} (hm : s.main = main) (h : s.mainStep u main a = some s') :
    Steps u s s' a := by
  unfold State.mainStep at h
  split at h
  case h_1 => exact .newMonitor hm h
  case h_2 => exact .readDevice hm h
  case h_3 => exact .scanClass hm h
  case h_4 => exact .beginThread (Or.inl hm) (Option.some.inj h).symm
  case h_5 => exact .beginThread (Or.inr hm) (Option.some.inj h).symm
  case h_6 => exact .waitEvent hm h
  case h_7 => exact .checkRet hm h
  case h_8 => exact .resetEvent hm (Option.some.inj h).symm
  case h_9 => exact .beginRefresh hm h
  case h_10 => exact .processNotification hm h
  case h_11 => exact .endRefresh hm h
  case h_12 => exact .freeMonitor hm h
  case h_13 =>
    split at h
    · next hend => exact .joinThread hm hend h
    · cases h
  case h_14 =>
    obtain ⟨r, w, e, rfl⟩ := callResult_some h
    exact .register hm e rfl
  case h_15 =>
    obtain ⟨w, e, rfl⟩ := call_some h
    exact .deregister hm e rfl
  case h_16 =>
    obtain ⟨r, w, e, rfl⟩ := callResult_some h
    exact .list hm e rfl
  case h_17 =>
    split at h
    · next hout =>
      obtain ⟨r, w, e, rfl⟩ := callResult_some h
      exact .enumerate (hm ▸ hout) e rfl
    · cases h
  case h_18 =>
    split at h
    · next hout =>
      obtain ⟨w, e, rfl⟩ := call_some h
      exact .user (hm ▸ hout) e rfl
    · cases h
  case h_19 => cases h

theorem steps_of_threadStep {thread : Thread} (ht : s.thread = thread)
    (h : s.threadStep thread a = some s') : Steps u s s' a := by
  unfold State.threadStep at h
  split at h
  case h_1 => exact .setUp ht (Option.some.inj h).symm
  case h_2 => exact .signalReady ht (Option.some.inj h).symm
  case h_3 => exact .dispatch ht h
  case h_4 => exact .getMessageFails ht (Option.some.inj h).symm
  case h_5 => exact .quit ht h
  case h_6 => exact .post ht h
  case h_7 => exact .storeError ht (Option.some.inj h).symm
  case h_8 => exact .leave ht (Option.some.inj h).symm
  case h_9 => exact .signalError ht (Option.some.inj h).symm
  case h_10 => cases h

theorem steps_of_step (h : step u s a = some s') : Steps u s s' a := by
  unfold step at h
  simp only [Option.orElse_eq_orElse, Option.orElse_eq_or, Option.or_eq_some_iff] at h
  rcases h with h | ⟨-, h⟩
  · exact steps_of_mainStep rfl h
  · rcases h with h | ⟨-, h⟩
    · exact steps_of_threadStep rfl h
    · unfold State.systemStep at h
      split at h
      case h_1 => exact .arrive h
      case h_2 => exact .depart h
      case h_3 => cases h

/-! ## What the functions change -/

theorem freeMonitor_some (h : s.freeMonitor r = some s') :
    ∃ w, hsMonitorRelease s.world = some w ∧ s' = { s with
      world := w
      main := .freeing r
      desktop := { s.desktop with closing := s.hwnd } } := by
  obtain ⟨w, e, h⟩ := Option.bind_eq_some_iff.mp h
  exact ⟨w, e, (Option.some.inj h).symm⟩

theorem readDevice_some {os : ReadOs} {set : List CStr} {classes : List DeviceClass}
    (h : s.readDevice u os set classes = some s') :
    ∃ r w, enumerateDevice (monitorEnumerateCallback u) os s.world = some (r, w) ∧
      ((r < 0 ∧ { s with world := w }.freeMonitor r = some s') ∨
        (r = 0 ∧ s' = { s with world := w, main := .scanning set classes }) ∨
        (0 < r ∧ s' = { s with world := w, main := .starting })) := by
  obtain ⟨⟨r, w⟩, e, h⟩ := Option.bind_eq_some_iff.mp h
  refine ⟨r, w, e, ?_⟩
  dsimp only at h
  split at h
  · next hneg => exact Or.inl ⟨hneg, h⟩
  · next hneg =>
    split at h
    · next hz => exact Or.inr (Or.inl ⟨hz, (Option.some.inj h).symm⟩)
    · next hz => exact Or.inr (Or.inr ⟨by omega, (Option.some.inj h).symm⟩)

/-- Whether everything works at the beginning of `hs_monitor_new`. -/
def NewOs.ok (os : NewOs) : Bool :=
  os.callocOk && os.eventOk && os.mallocOk && os.controllers.isNone

/-- `hs_monitor_new` before the enumeration: it fails to allocate, or frees the monitor, or has one
with an empty table. -/
theorem newMonitor_some {os : NewOs} (h : s.newMonitor os = some s') :
    (os.callocOk = false ∧ s' = { s with result := hsError .memory none }) ∨
      ∃ q s₁, os.callocOk = true ∧ s.queue.init = some q ∧
        s₁ = { s with world := s.world.allocMonitor, queue := q, scanned := [] } ∧
        ((∃ r, r < 0 ∧ s₁.freeMonitor r = some s') ∨
          ∃ r w, hsMonitorInit s₁.world os.mallocOk = some (r, w) ∧
            ((∃ r', r' < 0 ∧ { s₁ with world := w }.freeMonitor r' = some s') ∨
              (¬ r < 0 ∧ (os.mallocOk = true → os.ok = true) ∧
                s' = { s₁ with world := w, main := .scanning [] deviceClasses }))) := by
  unfold State.newMonitor at h
  split at h
  · next hok =>
    obtain ⟨q, eq, h⟩ := Option.bind_eq_some_iff.mp h
    refine Or.inr ⟨q, _, hok, eq, rfl, ?_⟩
    dsimp only at h
    split at h
    · next hev =>
      obtain ⟨⟨r, w⟩, ew, h⟩ := Option.bind_eq_some_iff.mp h
      refine Or.inr ⟨r, w, ew, ?_⟩
      dsimp only at h
      split at h
      · next hneg => exact Or.inl ⟨r, hneg, h⟩
      · next hneg =>
        split at h
        · next err _ => exact Or.inl ⟨_, hsError_neg err none, h⟩
        · next hc =>
          refine Or.inr ⟨hneg, fun hmalloc => ?_, (Option.some.inj h).symm⟩
          simp [NewOs.ok, hok, hev, hmalloc, hc]
    · exact Or.inl ⟨_, hsError_neg .system _, h⟩
  · next hok => exact Or.inl ⟨by simpa using hok, (Option.some.inj h).symm⟩

theorem beginRefresh_some (h : s.beginRefresh = some s') :
    ∃ r q, s.queue.take = some (r, q) ∧
      ((r < 0 ∧ s' = { s with queue := q, main := .finishing r }) ∨
        (¬ r < 0 ∧ ∃ head cur, q.links .own = some head ∧ load q.links head.next = some cur ∧
          s' = { s with queue := q }.loopAt head.next cur.next)) := by
  obtain ⟨⟨r, q⟩, e, h⟩ := Option.bind_eq_some_iff.mp h
  refine ⟨r, q, e, ?_⟩
  dsimp only at h
  split at h
  · next hneg => exact Or.inl ⟨hneg, (Option.some.inj h).symm⟩
  · next hneg =>
    obtain ⟨head, eh, h⟩ := Option.bind_eq_some_iff.mp h
    obtain ⟨cur, ec, h⟩ := Option.bind_eq_some_iff.mp h
    exact Or.inr ⟨hneg, head, cur, eh, ec, (Option.some.inj h).symm⟩

theorem processNotification_some {os : ArrivalOs} {cur next : Option NoteRef}
    (h : s.processNotification u os cur next = some s') :
    ∃ a n r w q, cur = some (.note a) ∧ s.queue.notes.get a = some n ∧
      processNotification u os s.world n = some (r, w) ∧ s.queue.drop a = some q ∧
      ((r < 0 ∧ s' = { s with world := w, queue := q, main := .finishing r }) ∨
        (¬ r < 0 ∧ ∃ k, load q.links next = some k ∧
          s' = { s with world := w, queue := q }.loopAt next k.next)) := by
  unfold State.processNotification at h
  split at h
  · next a =>
    obtain ⟨n, en, h⟩ := Option.bind_eq_some_iff.mp h
    obtain ⟨⟨r, w⟩, ew, h⟩ := Option.bind_eq_some_iff.mp h
    obtain ⟨q, eq, h⟩ := Option.bind_eq_some_iff.mp h
    refine ⟨a, n, r, w, q, rfl, en, ew, eq, ?_⟩
    dsimp only at h
    split at h
    · next hneg => exact Or.inl ⟨hneg, (Option.some.inj h).symm⟩
    · next hneg =>
      obtain ⟨k, ek, h⟩ := Option.bind_eq_some_iff.mp h
      exact Or.inr ⟨hneg, k, ek, (Option.some.inj h).symm⟩
  · cases h

/-- `GetMessage` hands over the oldest message. -/
theorem dispatch_some {os : PostOs} (h : s.dispatch os = some s') :
    ∃ m messages, s.desktop.messages = m :: messages ∧
      (((os.callocOk && os.strdupOk) = true ∧ s' = { s with
          desktop := { s.desktop with messages := messages }
          queue := (s.queue.alloc ⟨m.event, extractDeviceId m.name⟩).2
          thread := .posting (s.queue.alloc ⟨m.event, extractDeviceId m.name⟩).1 }) ∨
        ((os.callocOk && os.strdupOk) = false ∧ s' = { s with
          desktop := { s.desktop with messages := messages }
          thread := .failing (hsError .memory none) })) := by
  unfold State.dispatch at h
  split at h
  · cases h
  · next m messages hm =>
    refine ⟨m, messages, hm, ?_⟩
    dsimp only at h
    split at h
    · next hok => exact Or.inl ⟨hok, (Option.some.inj h).symm⟩
    · next hok => exact Or.inr ⟨by simpa using hok, (Option.some.inj h).symm⟩

/-- A change of the device tree is announced to a window that is subscribed. -/
theorem arrive_some {name : CStr} {node : Node} (h : s.arrive name node = some s') :
    s.desktop.tree (extractDeviceId name) = none ∧ s' = { s with desktop := { s.desktop with
      tree := Function.update s.desktop.tree (extractDeviceId name) (some node)
      messages := if s.desktop.subscribed then s.desktop.messages ++ [⟨.added, name⟩]
        else s.desktop.messages } } := by
  unfold State.arrive at h
  dsimp only at h
  split at h
  · cases h
  · next hd => exact ⟨hd, (Option.some.inj h).symm⟩

theorem depart_some {name : CStr} (h : s.depart name = some s') :
    s.desktop.tree (extractDeviceId name) ≠ none ∧ s' = { s with desktop := { s.desktop with
      tree := Function.update s.desktop.tree (extractDeviceId name) none
      messages := if s.desktop.subscribed then s.desktop.messages ++ [⟨.removed, name⟩]
        else s.desktop.messages } } := by
  unfold State.depart at h
  dsimp only at h
  split at h
  · cases h
  · next node hd => exact ⟨by rw [hd]; exact Option.some_ne_none node, (Option.some.inj h).symm⟩

/-- The background thread wrote no error but its own. -/
theorem setUp_eq (s : State) (call : SetUp) (ok : Bool) : ∃ hwnd thread subscribed,
    s.setUp call ok = { s with
      hwnd := hwnd
      thread := thread
      desktop := { s.desktop with subscribed := subscribed } } ∧
      ((∃ call', thread = .settingUp call') ∨ thread = .ready ∨ ∃ r, r < 0 ∧ thread = .leaving r) ∧
      (subscribed = s.desktop.subscribed ∨ (call = .registerNotification ∧ ok = true)) := by
  cases call with
  | registerClass =>
    cases ok
    · exact ⟨s.hwnd, _, _, rfl, Or.inr (Or.inr ⟨_, hsError_neg .system _, rfl⟩), Or.inl rfl⟩
    · exact ⟨s.hwnd, _, _, rfl, Or.inl ⟨_, rfl⟩, Or.inl rfl⟩
  | createWindow =>
    cases ok
    · exact ⟨s.hwnd, _, _, rfl, Or.inr (Or.inr ⟨_, hsError_neg .system _, rfl⟩), Or.inl rfl⟩
    · exact ⟨true, _, _, rfl, Or.inl ⟨_, rfl⟩, Or.inl rfl⟩
  | setWindowLong =>
    cases ok
    · exact ⟨s.hwnd, _, _, rfl, Or.inr (Or.inr ⟨_, hsError_neg .system _, rfl⟩), Or.inl rfl⟩
    · exact ⟨s.hwnd, _, _, rfl, Or.inl ⟨_, rfl⟩, Or.inl rfl⟩
  | registerNotification =>
    cases ok
    · exact ⟨s.hwnd, _, _, rfl, Or.inr (Or.inr ⟨_, hsError_neg .system _, rfl⟩), Or.inl rfl⟩
    · exact ⟨s.hwnd, _, true, rfl, Or.inr (Or.inl rfl), Or.inr ⟨rfl, rfl⟩⟩

/-! ## What the background leaves alone -/

/-- The steps of the background thread and of the system. -/
def Action.background : Action → Bool
  | .setUp _ | .signalReady | .dispatch _ | .post | .storeError | .getMessageFails | .quit
  | .leave | .signalError | .arrive _ _ | .depart _ => true
  | _ => false

theorem background_same (h : Steps u s s' a) (hb : a.background = true) :
    s'.main = s.main ∧ s'.world = s.world ∧ s'.scanned = s.scanned ∧ s'.result = s.result := by
  cases h with
  | setUp ht h =>
    subst h
    obtain ⟨_, _, _, he, -⟩ := setUp_eq s _ _
    rw [he]
    exact ⟨rfl, rfl, rfl, rfl⟩
  | dispatch ht h =>
    obtain ⟨m, messages, -, ⟨-, rfl⟩ | ⟨-, rfl⟩⟩ := dispatch_some h
    · exact ⟨rfl, rfl, rfl, rfl⟩
    · exact ⟨rfl, rfl, rfl, rfl⟩
  | post ht h =>
    obtain ⟨q, -, h⟩ := Option.bind_eq_some_iff.mp h
    cases h
    exact ⟨rfl, rfl, rfl, rfl⟩
  | quit ht h =>
    unfold State.quit at h
    split at h
    · cases h; exact ⟨rfl, rfl, rfl, rfl⟩
    · cases h
  | @leave r ht h =>
    subst h
    unfold State.leave
    dsimp only
    split <;> exact ⟨rfl, rfl, rfl, rfl⟩
  | signalReady ht h | storeError ht h | getMessageFails ht h | signalError ht h =>
    subst h; exact ⟨rfl, rfl, rfl, rfl⟩
  | arrive h => obtain ⟨-, rfl⟩ := arrive_some h; exact ⟨rfl, rfl, rfl, rfl⟩
  | depart h => obtain ⟨-, rfl⟩ := depart_some h; exact ⟨rfl, rfl, rfl, rfl⟩
  | _ => cases hb

/-! ## What the thread of the user leaves alone -/

/-- The device tree and the messages. -/
def Desktop.Same (d d' : Desktop) : Prop :=
  d'.tree = d.tree ∧ d'.subscribed = d.subscribed ∧ d'.messages = d.messages

theorem Desktop.Same.refl (d : Desktop) : d.Same d := ⟨rfl, rfl, rfl⟩

theorem freeMonitor_same (h : s.freeMonitor r = some s') :
    s.desktop.Same s'.desktop ∧ s'.thread = s.thread := by
  obtain ⟨w, -, rfl⟩ := freeMonitor_some h
  exact ⟨Desktop.Same.refl _, rfl⟩

theorem loopAt_same (s : State) (cur next : Option NoteRef) :
    (s.loopAt cur next).queue = s.queue ∧ (s.loopAt cur next).thread = s.thread ∧
      (s.loopAt cur next).desktop = s.desktop ∧ (s.loopAt cur next).world = s.world ∧
      (s.loopAt cur next).scanned = s.scanned := by
  unfold State.loopAt
  split <;> exact ⟨rfl, rfl, rfl, rfl, rfl⟩

/-- A refresh runs, so its list exists. -/
def Main.inRefresh : Main → Bool
  | .refreshing _ _ | .finishing _ => true
  | _ => false

theorem loopAt_eq (s : State) (cur next : Option NoteRef) :
    s.loopAt cur next = { s with main := (s.loopAt cur next).main } := by
  unfold State.loopAt
  split <;> rfl

theorem loopAt_inRefresh (s : State) (cur next : Option NoteRef) :
    (s.loopAt cur next).main.inRefresh = true := by
  unfold State.loopAt
  split <;> rfl

/-- It only starts the background thread, and forgets it when it has ended. -/
theorem foreground_same (h : Steps u s s' a) (hb : a.background = false) :
    s.desktop.Same s'.desktop ∧
      (s'.thread = s.thread ∨ s'.main = .waiting ∨ s'.main = .absent) := by
  have hfree : ∀ {s₁ : State} {r : Int}, s₁.freeMonitor r = some s' → s₁.desktop = s.desktop →
      s₁.thread = s.thread → s.desktop.Same s'.desktop ∧
        (s'.thread = s.thread ∨ s'.main = .waiting ∨ s'.main = .absent) := by
    intro s₁ r h hd ht
    obtain ⟨hd', ht'⟩ := freeMonitor_same h
    rw [hd] at hd'
    exact ⟨hd', Or.inl (ht'.trans ht)⟩
  cases h with
  | newMonitor hm h =>
    rcases newMonitor_some h with ⟨-, rfl⟩ |
      ⟨q, s₁, -, -, rfl, ⟨r, -, h⟩ | ⟨r, w, -, ⟨r', -, h⟩ | ⟨-, -, rfl⟩⟩⟩
    · exact ⟨Desktop.Same.refl _, Or.inl rfl⟩
    · exact hfree h rfl rfl
    · exact hfree h rfl rfl
    · exact ⟨Desktop.Same.refl _, Or.inl rfl⟩
  | @scanClass set c classes hm h =>
    cases set with
    | none => exact hfree h rfl rfl
    | some set => cases h; exact ⟨Desktop.Same.refl _, Or.inl rfl⟩
  | readDevice hm h =>
    obtain ⟨r, w, -, ⟨-, h⟩ | ⟨-, rfl⟩ | ⟨-, rfl⟩⟩ := readDevice_some h
    · exact hfree h rfl rfl
    · exact ⟨Desktop.Same.refl _, Or.inl rfl⟩
    · exact ⟨Desktop.Same.refl _, Or.inl rfl⟩
  | @beginThread ok hm h =>
    subst h
    cases ok with
    | false => exact ⟨Desktop.Same.refl _, Or.inl rfl⟩
    | true => exact ⟨Desktop.Same.refl _, Or.inr (Or.inl rfl)⟩
  | waitEvent hm h =>
    unfold State.waitEvent at h
    split at h
    · split at h
      · cases h; exact ⟨Desktop.Same.refl _, Or.inl rfl⟩
      · cases h
    · exact hfree h rfl rfl
  | checkRet hm h =>
    unfold State.checkRet at h
    split at h
    · exact hfree h rfl rfl
    · cases h; exact ⟨Desktop.Same.refl _, Or.inl rfl⟩
  | beginRefresh hm h =>
    obtain ⟨r, q, -, ⟨-, rfl⟩ | ⟨-, head, cur, -, -, rfl⟩⟩ := beginRefresh_some h
    · exact ⟨Desktop.Same.refl _, Or.inl rfl⟩
    · obtain ⟨-, ht, hd, -⟩ := loopAt_same { s with queue := q } head.next cur.next
      rw [hd]
      exact ⟨Desktop.Same.refl _, Or.inl ht⟩
  | @processNotification os cur next hm h =>
    obtain ⟨a, n, r, w, q, -, -, -, -, ⟨-, rfl⟩ | ⟨-, k, -, rfl⟩⟩ := processNotification_some h
    · exact ⟨Desktop.Same.refl _, Or.inl rfl⟩
    · obtain ⟨-, ht, hd, -⟩ := loopAt_same { s with world := w, queue := q } next k.next
      rw [hd]
      exact ⟨Desktop.Same.refl _, Or.inl ht⟩
  | endRefresh hm h =>
    obtain ⟨q, -, h⟩ := Option.bind_eq_some_iff.mp h
    cases h
    exact ⟨Desktop.Same.refl _, Or.inl rfl⟩
  | freeMonitor hm h => exact hfree h rfl rfl
  | joinThread hm hend h =>
    obtain ⟨q, -, h⟩ := Option.bind_eq_some_iff.mp h
    cases h
    exact ⟨Desktop.Same.refl _, Or.inr (Or.inr rfl)⟩
  | resetEvent hm h | register hm e h | deregister hm e h | list hm e h | enumerate hm e h
  | user hm e h => subst h; exact ⟨Desktop.Same.refl _, Or.inl rfl⟩
  | _ => cases hb

end Libhs.Win32
