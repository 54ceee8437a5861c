import Libhs.EventStream
import Libhs.Win32.NewMonitor
import Libhs.Win32.WakeUp
import Libhs.Lib.KeyedSet

/-!
# What the start-up of the Windows monitor misses

`hs_monitor_new` enumerates the devices first, and lets the background thread ask for
notifications then. A device that comes or goes in between is neither in the
enumeration nor announced, and the table stays wrong (`startUp_misses`).

When the devices that are present at `RegisterDeviceNotification` are those that the
scans have found, the table is right whenever all notifications were served
(`startUp_complete`). `Track` is the invariant: what was found is put into the table,
and from the registration on the table lags behind the tree (`Lags`).
-/

namespace Libhs.Win32
open Pointer Run Keyed

/-! ## The property -/

/-- The devices of a tree that the library handles. -/
def present (tree : CStr → Option Node) : Set (CStr × UInt8) :=
  {p | ∃ c, tree p.1 = some ⟨c, some p.2⟩}

/-- The devices that the scans find, when `snap c` is the tree at the scan of the class `c`. -/
def found (snap : DeviceClass → CStr → Option Node) : Set (CStr × UInt8) :=
  {p | ∃ c, snap c p.1 = some ⟨c, some p.2⟩}

/-- The user is between two calls, and no notification is on its way to the table. -/
def State.drained (s : State) : Prop :=
  s.main = .idle ∧ s.thread = .waiting ∧ s.desktop.messages = [] ∧
    hsListIsEmpty s.queue.links .shared = some true

/-- `hs_monitor_list` enumerates the devices that are present. -/
def State.Mirrors (s : State) : Prop :=
  listed s.world = {p | ∃ q ∈ present s.desktop.tree, p = (some q.1, q.2)}

/-- The class whose set is read, when `classes` are left. -/
def currentClass : List DeviceClass → DeviceClass
  | [] => .hid
  | _ :: _ => .usb

/-- The key `k` is read as what it stands for: a device that the library handles, one that it
ignores, or one that is gone. -/
def ReadsAs (res : Except Int HsDevice) (k : CStr) (node : Option Node) : Prop :=
  match node with
  | some ⟨_, some n⟩ => ∃ D, res = .ok D ∧ D.key = some k ∧ D.iface = n
  | some ⟨_, none⟩ => res = .error 0
  | none => (∃ D, res = .ok D ∧ D.key = some k) ∨ res = .error 0

/-- A scan finds the devices of its class, these are read as what they were then, and those of
notifications as what they are now. No notification is lost for lack of memory. -/
def State.honest (snap : DeviceClass → CStr → Option Node) (s : State) : Action → Prop
  | .scanClass set =>
    match s.main with
    | .scanning [] (c :: _) => s.desktop.tree = snap c ∧
      ∀ l, set = some l → ∀ k, k ∈ l ↔ ∃ i, snap c k = some ⟨c, i⟩
    | _ => True
  | .readDevice os =>
    match s.main with
    | .scanning (k :: _) classes => ReadsAs (os.read none) k (snap (currentClass classes) k)
    | _ => True
  | .processNotification os =>
    match s.main with
    | .refreshing (some (.note a)) _ => ∀ n, s.queue.notes.get a = some n → n.event = .added →
      ReadsAs (os.read.read (some n.key)) n.key (s.desktop.tree n.key)
    | _ => True
  | .dispatch os => (os.callocOk && os.strdupOk) = true
  | _ => True

/-- The devices that are present when `RegisterDeviceNotification` succeeds are those that the scans
have found. -/
def State.caughtUp (snap : DeviceClass → CStr → Option Node) (s : State) : Action → Prop
  | .setUp ok => ok = true → s.thread = .settingUp .registerNotification →
    present s.desktop.tree = found snap
  | _ => True

/-! ## The notifications on their way -/

variable {u : User} {s s' : State} {R R' : Roster} {M : Mailbox DeviceNotification} {a : Action}
  {snap : DeviceClass → CStr → Option Node}

/-- The notification that a message becomes. -/
def Message.notification (m : Message) : DeviceNotification := ⟨m.event, extractDeviceId m.name⟩

/-- What a notification says about its key. -/
def DeviceNotification.news (n : DeviceNotification) : CStr × Bool := (n.key, n.event = .added)

/-- The notification that the thread is about to post. -/
def Thread.held (thread : Thread) (q : Queue) : List DeviceNotification :=
  match thread with
  | .posting a => (q.notes.get a).toList
  | _ => []

/-- The notifications on their way to the table, oldest first. -/
def State.behind (s : State) (M : Mailbox DeviceNotification) : List DeviceNotification :=
  M.taken ++ M.waiting ++ s.thread.held s.queue ++ s.desktop.messages.map Message.notification

/-- There is no window, or not yet. -/
def Thread.deaf : Thread → Bool
  | .absent | .settingUp _ | .signalling | .done => true
  | _ => false

/-- The notifications get to the queue. -/
def Thread.listens : Thread → Bool
  | .ready | .waiting | .posting _ => true
  | _ => false

/-- The thread has not got to its notifications. -/
def Thread.early : Thread → Bool
  | .absent | .settingUp _ => true
  | _ => false

/-- The enumeration of `hs_monitor_new` is over, and there is a monitor. -/
def Main.enumerated : Main → Bool
  | .waiting | .checking | .resetting | .idle | .refreshing _ _ | .finishing _ => true
  | _ => false

/-- The table `S` is on the way to what the scans find: the rest of the current set and the classes
that are left are still to come. -/
structure Scans (snap : DeviceClass → CStr → Option Node) (set : List CStr)
    (classes : List DeviceClass) (S : Set (CStr × UInt8)) : Prop where
  suffix : classes <:+ deviceClasses
  keys : ∀ k ∈ set, ∃ i, snap (currentClass classes) k = some ⟨currentClass classes, i⟩
  sound : ∀ p ∈ S, p ∈ found snap
  complete : ∀ p c, snap c p.1 = some ⟨c, some p.2⟩ →
    p ∈ S ∨ (c = currentClass classes ∧ p.1 ∈ set) ∨ c ∈ classes

/-- The background thread was not started. -/
def Main.unborn : Main → Bool
  | .absent | .scanning _ _ | .starting => true
  | _ => false

/-- There is no thread before `_beginthreadex`, and a thread without a window gets no messages. -/
structure Quiet (s : State) : Prop where
  unborn : s.main.unborn = true → s.thread = .absent
  deaf : s.thread.deaf = true → s.desktop.subscribed = false ∧ s.desktop.messages = []

/-- The invariant of a monitor from its start. -/
structure Track (snap : DeviceClass → CStr → Option Node) (s : State) (R : Roster)
    (M : Mailbox DeviceNotification) : Prop where
  subscribed : s.thread.listens = true → s.desktop.subscribed = true
  lossless : ∀ r, s.thread ≠ .failing r
  empty : s.thread.early = true → s.main ≠ .absent → M.taken ++ M.waiting = []
  scanning : ∀ set classes, s.main = .scanning set classes → Scans snap set classes R.pairs
  started : s.main ≠ .starting
  early : s.thread.early = true → s.main.enumerated = true → R.pairs = found snap
  lags : s.thread.listens = true → s.main.enumerated = true →
    Lags {k | s.desktop.tree k ≠ none} (present s.desktop.tree)
      ((s.behind M).map DeviceNotification.news) R.pairs

/-! ## The enumeration -/

variable {S : Set (CStr × UInt8)} {set l : List CStr} {classes : List DeviceClass} {c : DeviceClass}
  {k : CStr} {res : Except Int HsDevice} {node : Option Node}

theorem mem_deviceClasses (c : DeviceClass) : c ∈ deviceClasses := by
  cases c <;> decide

theorem currentClass_eq (h : c :: classes <:+ deviceClasses) : c = currentClass classes := by
  obtain ⟨done, h⟩ := h
  match done, h with
  | [], h => cases h; rfl
  | [_], h => cases h; rfl
  | _ :: _ :: done, h =>
    have hlen := congrArg List.length h
    simp [deviceClasses] at hlen

theorem scans_start : Scans snap [] deviceClasses ∅ where
  suffix := List.suffix_refl _
  keys := nofun
  sound := nofun
  complete _ c _ := Or.inr (Or.inr (mem_deviceClasses c))

theorem Scans.scan (h : Scans snap [] (c :: classes) S)
    (hl : ∀ k, k ∈ l ↔ ∃ i, snap c k = some ⟨c, i⟩) : Scans snap l classes S := by
  have hc := currentClass_eq h.suffix
  refine ⟨(List.suffix_cons c classes).trans h.suffix, fun k hk => ?_, h.sound, fun p c' hp => ?_⟩
  · rw [← hc]
    exact (hl k).mp hk
  · rcases h.complete p c' hp with hS | ⟨-, hnil⟩ | hmem
    · exact Or.inl hS
    · exact absurd hnil List.not_mem_nil
    · rcases List.mem_cons.mp hmem with rfl | hmem
      · exact Or.inr (Or.inl ⟨hc, (hl p.1).mpr ⟨_, hp⟩⟩)
      · exact Or.inr (Or.inr hmem)

/-- What reading a key that is there does to the table. -/
theorem ReadsAs.mem_replay {n : Option UInt8} (h : ReadsAs res k (some ⟨c, n⟩)) (p : CStr × UInt8) :
    p ∈ replay S (addChange res).toList ↔ p ∈ S ∨ (p.1 = k ∧ n = some p.2) := by
  cases n with
  | none =>
    have h : res = .error 0 := h
    rw [h]
    simp [addChange]
  | some n =>
    obtain ⟨D, rfl, hkey, rfl⟩ := h
    simp only [addChange, hkey, Option.map_some, Option.toList_some, replay_cons, replay_nil,
      Keyed.step, Set.mem_insert_iff, Option.some.injEq]
    rw [or_comm, Prod.ext_iff]
    simp only [eq_comm]

theorem Scans.read (h : Scans snap (k :: set) classes S)
    (hk : ReadsAs res k (snap (currentClass classes) k)) :
    Scans snap set classes (replay S (addChange res).toList) := by
  obtain ⟨n, hn⟩ := h.keys k List.mem_cons_self
  rw [hn] at hk
  refine ⟨h.suffix, fun x hx => h.keys x (List.mem_cons_of_mem k hx), fun p hp => ?_,
    fun p c hp => ?_⟩
  · rcases (hk.mem_replay p).mp hp with hp | ⟨hpk, rfl⟩
    · exact h.sound p hp
    · exact ⟨currentClass classes, by rw [hpk]; exact hn⟩
  · rcases h.complete p c hp with hS | ⟨hc, hmem⟩ | hmem
    · exact Or.inl ((hk.mem_replay p).mpr (Or.inl hS))
    · rcases List.mem_cons.mp hmem with hpk | hmem
      · refine Or.inl ((hk.mem_replay p).mpr (Or.inr ⟨hpk, ?_⟩))
        rw [hc, hpk, hn] at hp
        cases hp
        rfl
      · exact Or.inr (Or.inl ⟨hc, hmem⟩)
    · exact Or.inr (Or.inr hmem)

theorem Scans.eq (h : Scans snap [] [] S) : S = found snap := by
  refine Set.ext fun p => ⟨h.sound p, fun ⟨c, hp⟩ => ?_⟩
  rcases h.complete p c hp with hS | ⟨-, hnil⟩ | hnil
  · exact hS
  · exact absurd hnil List.not_mem_nil
  · exact absurd hnil List.not_mem_nil

/-! ## The notifications through a step -/

variable {q q' : Queue} {r : Int}

theorem take_notes (h : q.take = some (r, q')) : q'.notes = q.notes := by
  obtain ⟨links, -, h⟩ := Option.bind_eq_some_iff.mp h
  cases h
  rfl

theorem putBack_notes (h : q.putBack = some q') : q'.notes = q.notes := by
  obtain ⟨links, -, h⟩ := Option.bind_eq_some_iff.mp h
  obtain ⟨b, -, h⟩ := Option.bind_eq_some_iff.mp h
  cases h
  cases b <;> rfl

theorem drop_notes {x : Nat} (h : q.drop x = some q') {y : Nat} (hy : y ≠ x) :
    q'.notes.get y = q.notes.get y := by
  obtain ⟨n, -, h⟩ := Option.bind_eq_some_iff.mp h
  obtain ⟨links, -, h⟩ := Option.bind_eq_some_iff.mp h
  obtain ⟨q₁, hfree, h⟩ := Option.bind_eq_some_iff.mp h
  cases h
  obtain ⟨notes, e, h⟩ := Option.bind_eq_some_iff.mp hfree
  cases h
  have hn : q.notes.get x ≠ none := by
    intro hnone
    simp [Heap.free, show q.notes.cell x = none from hnone] at e
  obtain ⟨b, hb⟩ := Option.ne_none_iff_exists'.mp hn
  obtain ⟨notes', e', -, hget⟩ := Heap.free_some hb
  have e : q.notes.free x = some notes := e
  rw [e'] at e
  cases e
  show notes.get y = _
  rw [hget, if_neg hy]

/-- Neither the start of a monitor nor a notification that is served. -/
def Action.plain : Action → Bool
  | .newMonitor _ | .processNotification _ => false
  | _ => true

/-- Only a refresh that serves a notification, and the end of the monitor, change what is there. -/
theorem foreground_items (hs : Related s M) (h : Steps u s s' a) (hb : a.background = false)
    (hplain : a.plain = true) (habs : s'.main ≠ .absent) :
    (M.applyOption (s.mailOp a)).taken ++ (M.applyOption (s.mailOp a)).waiting =
        M.taken ++ M.waiting ∧ s'.queue.notes = s.queue.notes := by
  have hfree : ∀ {s₁ : State} {r : Int}, s₁.freeMonitor r = some s' → s₁.queue = s.queue →
      s'.queue.notes = s.queue.notes := by
    intro s₁ r h hq
    obtain ⟨w, -, rfl⟩ := freeMonitor_some h
    exact congrArg Queue.notes hq
  have hallow := (steps_related hs h).1
  cases h with
  | newMonitor | processNotification => cases hplain
  | @scanClass set c classes hm h =>
    cases set with
    | none => exact ⟨rfl, hfree h rfl⟩
    | some set =>
      cases h
      exact ⟨rfl, rfl⟩
  | readDevice hm h =>
    obtain ⟨r, w, -, ⟨-, h⟩ | ⟨-, rfl⟩ | ⟨-, rfl⟩⟩ := readDevice_some h
    · exact ⟨rfl, hfree h rfl⟩
    · exact ⟨rfl, rfl⟩
    · exact ⟨rfl, rfl⟩
  | @beginThread ok hm h =>
    subst h
    cases ok <;> exact ⟨rfl, rfl⟩
  | @waitEvent ok hm h =>
    cases ok with
    | false => exact ⟨rfl, hfree h rfl⟩
    | true =>
      simp only [State.waitEvent, ↓reduceIte, Option.ite_none_right_eq_some,
        Option.some.injEq] at h
      obtain ⟨-, rfl⟩ := h
      exact ⟨rfl, rfl⟩
  | checkRet hm h =>
    unfold State.checkRet at h
    split at h
    · exact ⟨rfl, hfree h rfl⟩
    · cases h
      exact ⟨rfl, rfl⟩
  | resetEvent hm h =>
    subst h
    exact ⟨rfl, rfl⟩
  | beginRefresh hm h =>
    have ht : M.taken = [] := hallow .take rfl
    refine ⟨?_, ?_⟩
    · show M.waiting ++ [] = M.taken ++ M.waiting
      rw [ht, List.append_nil, List.nil_append]
    · obtain ⟨r, q, e, ⟨-, rfl⟩ | ⟨-, head, cur, -, -, rfl⟩⟩ := beginRefresh_some h
      · exact take_notes e
      · rw [(loopAt_same _ _ _).1]
        exact take_notes e
  | endRefresh hm h =>
    obtain ⟨q, e, h⟩ := Option.bind_eq_some_iff.mp h
    cases h
    exact ⟨rfl, putBack_notes e⟩
  | freeMonitor hm h => exact ⟨rfl, hfree h rfl⟩
  | joinThread hm hend h =>
    obtain ⟨q, -, h⟩ := Option.bind_eq_some_iff.mp h
    cases h
    exact absurd rfl habs
  | register hm e h | deregister hm e h | list hm e h | enumerate hm e h | user hm e h =>
    subst h
    exact ⟨rfl, rfl⟩
  | setUp | signalReady | dispatch | post | storeError | getMessageFails | quit | leave
  | signalError | arrive | depart => cases hb

/-- What a refresh serves is the oldest notification. -/
theorem taken_head {x : Nat} {n : DeviceNotification} {next : Option NoteRef} (hs : Related s M)
    (hm : s.main = .refreshing (some (.note x)) next) (hn : s.queue.notes.get x = some n) :
    ∃ rest, M.taken = n :: rest := by
  obtain ⟨own, shared, hrep⟩ := (related_iff (by rw [hm]; nofun)).mp hs
  have hown := hrep.main
  rw [hm] at hown
  obtain ⟨-, y, l, rfl, hcur, -⟩ := hown
  cases hcur
  have htaken := hrep.queue.taken
  rw [List.map_cons, hn] at htaken
  cases hM : M.taken with
  | nil =>
    rw [hM] at htaken
    cases htaken
  | cons n' rest =>
    rw [hM, List.map_cons] at htaken
    cases (List.cons.inj htaken).1
    exact ⟨rest, rfl⟩

/-- The refresh frees another notification than the one that the thread is about to post. -/
theorem held_drop {x : Nat} {next : Option NoteRef} (hs : Related s M)
    (hm : s.main = .refreshing (some (.note x)) next) (hq : s.queue.drop x = some q) :
    s.thread.held q = s.thread.held s.queue := by
  obtain ⟨own, shared, hrep⟩ := (related_iff (by rw [hm]; nofun)).mp hs
  have hown := hrep.main
  rw [hm] at hown
  obtain ⟨-, y, l, rfl, hcur, -⟩ := hown
  cases hcur
  cases ht : s.thread with
  | posting z =>
    have hout := hrep.thread
    rw [ht] at hout
    have hne : z ≠ x := by
      rintro rfl
      exact hout.1 (List.mem_append_left _ List.mem_cons_self)
    show (q.notes.get z).toList = (s.queue.notes.get z).toList
    rw [drop_notes hq hne]
  | _ => rfl

/-! ## The messages -/

theorem quiet_start (tree : CStr → Option Node) : Quiet (.start tree) :=
  ⟨fun _ => rfl, fun _ => ⟨rfl, rfl⟩⟩

/-- A change of the tree is no message to a thread that has not subscribed. -/
theorem Quiet.change {tree : CStr → Option Node} {m : Message} (hq : Quiet s) :
    Quiet { s with desktop := { s.desktop with
      tree := tree
      messages := if s.desktop.subscribed then s.desktop.messages ++ [m]
        else s.desktop.messages } } := by
  refine ⟨hq.unborn, fun hd => ?_⟩
  obtain ⟨hsub, hmsg⟩ := hq.deaf hd
  refine ⟨hsub, ?_⟩
  show (if s.desktop.subscribed then _ else s.desktop.messages) = []
  rw [hsub]
  exact hmsg

theorem quiet_background (hq : Quiet s) (h : Steps u s s' a) (hb : a.background = true) :
    Quiet s' := by
  obtain ⟨hm, -⟩ := background_same h hb
  have hborn : ∀ {t : Thread}, s.thread = t → t ≠ .absent →
      (s'.main.unborn = true → s'.thread = .absent) := by
    intro t hth ht hun
    rw [hm] at hun
    exact absurd (hq.unborn hun) (hth ▸ ht)
  cases h with
  | @setUp call ok hth h =>
    refine ⟨hborn hth nofun, fun hd => ?_⟩
    have hquiet := hq.deaf (by rw [hth]; rfl)
    subst h
    cases call <;> cases ok <;> first | exact hquiet | cases hd
  | signalReady hth h | storeError hth h | getMessageFails hth h =>
    subst h
    exact ⟨hborn hth nofun, nofun⟩
  | dispatch hth h =>
    refine ⟨hborn hth nofun, fun hd => ?_⟩
    obtain ⟨m, messages, -, ⟨-, rfl⟩ | ⟨-, rfl⟩⟩ := dispatch_some h
    · cases hd
    · cases hd
  | post hth h =>
    refine ⟨hborn hth nofun, fun hd => ?_⟩
    obtain ⟨q, -, h⟩ := Option.bind_eq_some_iff.mp h
    cases h
    cases hd
  | quit hth h =>
    refine ⟨hborn hth nofun, fun hd => ?_⟩
    unfold State.quit at h
    split at h
    · cases h
      cases hd
    · cases h
  | leave hth h =>
    refine ⟨hborn hth nofun, fun hd => ?_⟩
    subst h
    unfold State.leave
    dsimp only
    split <;> exact ⟨rfl, rfl⟩
  | signalError hth h =>
    refine ⟨hborn hth nofun, fun _ => ?_⟩
    subst h
    exact hq.deaf (by rw [hth]; rfl)
  | arrive h =>
    obtain ⟨-, rfl⟩ := arrive_some h
    exact hq.change
  | depart h =>
    obtain ⟨-, rfl⟩ := depart_some h
    exact hq.change
  | _ => cases hb

theorem unborn_of_inRefresh {main : Main} (hm : main.inRefresh = true) : main.unborn = false := by
  cases main <;> first | rfl | cases hm

theorem moves_quiet (hq : Quiet s) (h : Moves u s R a s' R') : Quiet s' := by
  cases h with
  | refused | registered | deregistered | listed | enumerated | acted =>
    exact ⟨hq.unborn, hq.deaf⟩
  | started hm => exact ⟨fun _ => hq.unborn (by rw [hm]; rfl), hq.deaf⟩
  | scanned hm => exact ⟨fun _ => hq.unborn (by rw [hm]; rfl), hq.deaf⟩
  | read hm => exact ⟨fun _ => hq.unborn (by rw [hm]; rfl), hq.deaf⟩
  | @begun ok hm =>
    have hth := hq.unborn (by rcases hm with hm | hm <;> rw [hm] <;> rfl)
    cases ok with
    | false => exact ⟨nofun, hq.deaf⟩
    | true => exact ⟨nofun, fun _ => hq.deaf (by rw [hth]; rfl)⟩
  | @refreshing q main hm hin =>
    refine ⟨fun hun => ?_, hq.deaf⟩
    have hun : main.unborn = true := hun
    rw [unborn_of_inRefresh hin] at hun
    cases hun
  | @arrived os cur next x n q w main r m R' hm hcur hn hev hloc hadds hdrop hin =>
    refine ⟨fun hun => ?_, hq.deaf⟩
    have hun : main.unborn = true := hun
    rw [unborn_of_inRefresh hin] at hun
    cases hun
  | @departed os cur next x n q w main m hm hcur hn hev hdrop hin =>
    refine ⟨fun hun => ?_, hq.deaf⟩
    have hun : main.unborn = true := hun
    rw [unborn_of_inRefresh hin] at hun
    cases hun
  | joined hm hend =>
    refine ⟨fun _ => rfl, fun _ => hq.deaf ?_⟩
    cases hth : s.thread <;> rw [hth] at hend <;> first | rfl | cases hend
  | background hb h => exact quiet_background hq h hb
  | failed | notScanned | notRead | notWaited | notStarted | freed | signalled | checked | created
  | refreshed => exact ⟨nofun, hq.deaf⟩

/-! ## The thread of the user -/

variable {M' : Mailbox DeviceNotification} {n : DeviceNotification}

/-- A step that serves nothing. -/
theorem Track.move (ht : Track snap s R M) (hthread : s'.thread = s.thread)
    (hdesk : s.desktop.Same s'.desktop) (habs : s.main = .absent → s'.main = .absent)
    (hitems : s'.main ≠ .absent → M'.taken ++ M'.waiting = M.taken ++ M.waiting ∧
      s'.queue.notes = s.queue.notes)
    (hscan : ∀ set classes, s'.main = .scanning set classes → Scans snap set classes R'.pairs)
    (hstart : s'.main ≠ .starting)
    (hpairs : s'.main.enumerated = true → s.main.enumerated = true ∧ R'.pairs = R.pairs) :
    Track snap s' R' M' := by
  obtain ⟨htree, hsub, hmsg⟩ := hdesk
  refine ⟨?_, ?_, fun hearly hne => ?_, hscan, hstart, fun hearly hen => ?_, fun hl hen => ?_⟩
  · rw [hthread, hsub]
    exact ht.subscribed
  · rw [hthread]
    exact ht.lossless
  · rw [(hitems hne).1]
    exact ht.empty (hthread ▸ hearly) fun h => hne (habs h)
  · obtain ⟨hen, hp⟩ := hpairs hen
    rw [hp]
    exact ht.early (hthread ▸ hearly) hen
  · have hne : s'.main ≠ .absent := by
      intro h
      rw [h] at hen
      cases hen
    obtain ⟨hboxes, hnotes⟩ := hitems hne
    obtain ⟨hen, hp⟩ := hpairs hen
    have hbehind : s'.behind M' = s.behind M := by
      unfold State.behind Thread.held
      rw [hboxes, hthread, hmsg, hnotes]
    rw [htree, hbehind, hp]
    exact ht.lags (hthread ▸ hl) hen

theorem present_keys (tree : CStr → Option Node) : ∀ p ∈ present tree, p.1 ∈ {k | tree k ≠ none} := by
  rintro p ⟨c, hc⟩ hnone
  rw [hnone] at hc
  cases hc

/-- Reading a key touches no other key. -/
theorem ReadsAs.other (h : ReadsAs res k node) {p : CStr × UInt8} (hp : p.1 ≠ k) :
    p ∈ replay S (addChange res).toList ↔ p ∈ S := by
  have hok : ∀ {D : HsDevice}, D.key = some k →
      (p ∈ replay S (addChange (.ok D)).toList ↔ p ∈ S) := by
    intro D hkey
    have hne : p ≠ (k, D.iface) := fun he => hp (congrArg Prod.fst he)
    simp [addChange, hkey, Keyed.step, hne]
  unfold ReadsAs at h
  split at h
  · obtain ⟨D, rfl, hkey, -⟩ := h
    exact hok hkey
  · rw [h]
    rfl
  · rcases h with ⟨D, rfl, hkey⟩ | h
    · exact hok hkey
    · rw [h]
      rfl

/-- The table after a notification was served. -/
theorem lags_serve {tree : CStr → Option Node} {rest : List DeviceNotification}
    {S' : Set (CStr × UInt8)}
    (h : Lags {k | tree k ≠ none} (present tree) ((n :: rest).map DeviceNotification.news) S)
    (hS' : (∃ res, n.event = .added ∧ ReadsAs res n.key (tree n.key) ∧
        S' = replay S (addChange res).toList) ∨
      (n.event = .removed ∧ S' = Keyed.step S (.remove n.key))) :
    Lags {k | tree k ≠ none} (present tree) (rest.map DeviceNotification.news) S' := by
  have hnews : n.news = (n.key, decide (n.event = .added)) := rfl
  rcases hS' with ⟨res, hev, hread, rfl⟩ | ⟨hev, rfl⟩
  · refine h.serve (present_keys tree) (fun p hp => hread.other hp) ?_ ?_
    · intro hf
      rw [hnews, hev] at hf
      cases hf
    · intro _ hmem hno p hp
      have hp : p.1 = n.key := hp
      obtain ⟨⟨c, i⟩, hnode⟩ := Option.ne_none_iff_exists'.mp (show tree n.key ≠ none from hmem)
      rw [hnode] at hread
      rw [hread.mem_replay p]
      have hin : p ∈ present tree ↔ i = some p.2 := by
        simp only [present, Set.mem_ofPred_eq, hp, hnode, Option.some.injEq, Node.mk.injEq,
          exists_eq_left']
      rw [hin]
      exact ⟨fun h => h.elim (fun hS => absurd hp (hno p hS)) And.right, fun h => Or.inr ⟨hp, h⟩⟩
  · refine h.serve (present_keys tree) (fun p hp => ?_) (fun _ p hp => hp.2) ?_
    · have hp : p.1 ≠ n.key := hp
      simp [Keyed.step, hp]
    · intro ht
      rw [hnews, hev] at ht
      cases ht

/-- A refresh serves a notification. -/
theorem Track.serve {x : Nat} {next : Option NoteRef} {w : World} {main : Main}
    (ht : Track snap s R M) (hrel : Related s M) (hm : s.main = .refreshing (some (.note x)) next)
    (hn : s.queue.notes.get x = some n) (hq : s.queue.drop x = some q)
    (hin : main.inRefresh = true)
    (hserve : (∃ res, n.event = .added ∧ ReadsAs res n.key (s.desktop.tree n.key) ∧
        R'.pairs = replay R.pairs (addChange res).toList) ∨
      (n.event = .removed ∧ R'.pairs = Keyed.step R.pairs (.remove n.key))) :
    Track snap { s with world := w, queue := q, main := main } R' (M.apply .consume) := by
  obtain ⟨rest, htaken⟩ := taken_head hrel hm hn
  have hheld := held_drop hrel hm hq
  have hloud : s.thread.early ≠ true := by
    intro hearly
    have hnil := ht.empty hearly (by rw [hm]; nofun)
    rw [htaken] at hnil
    cases hnil
  refine ⟨ht.subscribed, ht.lossless, fun h => absurd h hloud, fun set classes h => ?_,
    fun h => ?_, fun h => absurd h hloud, fun hl _ => ?_⟩
  · have h : main = .scanning set classes := h
    rw [h] at hin
    cases hin
  · have h : main = .starting := h
    rw [h] at hin
    cases hin
  · have hlags := ht.lags hl (by rw [hm]; rfl)
    have hbehind : s.behind M = n :: State.behind
        { s with world := w, queue := q, main := main } (M.apply .consume) := by
      unfold State.behind
      rw [hheld, htaken]
      simp [Mailbox.apply, htaken]
    rw [hbehind] at hlags
    exact lags_serve hlags hserve

/-- A step past the enumeration that serves nothing. -/
theorem Track.past (ht : Track snap s R M) (hthread : s'.thread = s.thread)
    (hdesk : s.desktop.Same s'.desktop) (hne : s.main ≠ .absent)
    (hitems : s'.main ≠ .absent → M'.taken ++ M'.waiting = M.taken ++ M.waiting ∧
      s'.queue.notes = s.queue.notes)
    (hpast : s'.main.alone = false)
    (hpairs : s'.main.enumerated = true → s.main.enumerated = true ∧ R'.pairs = R.pairs) :
    Track snap s' R' M' := by
  refine ht.move hthread hdesk (fun h => absurd h hne) hitems (fun _ _ h => ?_) (fun h => ?_) hpairs
  · rw [h] at hpast
    cases hpast
  · rw [h] at hpast
    cases hpast

/-- `hs_monitor_free` up to its wait. -/
theorem Track.freeing {w : World} (ht : Track snap s R M) (hne : s.main ≠ .absent) :
    Track snap (s.freeing w r) R' M := by
  refine ht.past rfl ⟨rfl, rfl, rfl⟩ hne (fun _ => ⟨rfl, rfl⟩) rfl fun h => ?_
  cases h

/-- The thread is started, or the monitor is lost. -/
theorem Track.begin {ok : Bool} (ht : Track snap s R M) (hq : Quiet s)
    (hm : s.main = .scanning [] []) : Track snap (s.beginThread ok) R M := by
  have hscans := ht.scanning _ _ hm
  have hth := hq.unborn (by rw [hm]; rfl)
  have hne : s.main ≠ .absent := by rw [hm]; nofun
  cases ok with
  | false =>
    refine ht.past rfl ⟨rfl, rfl, rfl⟩ hne (fun _ => ⟨rfl, rfl⟩) rfl fun h => ?_
    cases h
  | true =>
    have hempty := ht.empty (by rw [hth]; rfl) hne
    exact ⟨nofun, nofun, fun _ _ => hempty, nofun, nofun, fun _ _ => hscans.eq, nofun⟩

/-- A call from outside of the library. -/
theorem Track.call {w : World} (ht : Track snap s R M) (hp : R'.pairs = R.pairs) :
    Track snap { s with world := w } R' M := by
  refine ht.move rfl (Desktop.Same.refl _) id (fun _ => ⟨rfl, rfl⟩) (fun set classes h => ?_)
    ht.started fun h => ⟨h, hp⟩
  rw [hp]
  exact ht.scanning set classes h

theorem track_foreground (hs : Stands s R) (hrel : Related s M) (hq : Quiet s)
    (ht : Track snap s R M) (h : Steps u s s' a) (hb : a.background = false) (hmove : Moves u s R a s' R')
    (hnew : ∀ os, a ≠ .newMonitor os) (hhonest : s.honest snap a) :
    Track snap s' R' (M.applyOption (s.mailOp a)) := by
  obtain ⟨hdesk, -⟩ := foreground_same h hb
  have hitems := foreground_items hrel h hb
  cases hmove with
  | refused | failed | started => exact absurd rfl (hnew _)
  | notScanned hm | notRead hm | notWaited hm | notStarted hm | freed hm =>
    exact ht.freeing (by rw [hm]; nofun)
  | @scanned set c classes hm =>
    have hscans := ht.scanning _ _ hm
    have hfound : s.desktop.tree = snap c ∧
        ∀ l, some set = some l → ∀ k, k ∈ l ↔ ∃ i, snap c k = some ⟨c, i⟩ := by
      simpa only [State.honest, hm] using hhonest
    refine ht.move rfl hdesk (fun h => ?_) (hitems rfl) (fun _ _ he => ?_) nofun nofun
    · rw [hm] at h
      cases h
    · cases he
      exact hscans.scan (hfound.2 _ rfl)
  | @read os k set classes m w R' hm hadds =>
    have hscans := ht.scanning _ _ hm
    have hread : ReadsAs (os.read none) k (snap (currentClass classes) k) := by
      simpa only [State.honest, hm] using hhonest
    refine ht.move rfl hdesk (fun h => ?_) (hitems rfl) (fun _ _ he => ?_) nofun nofun
    · rw [hm] at h
      cases h
    · cases he
      rw [hadds.pairs]
      exact hscans.read hread
  | begun hm => exact ht.begin hq (hm.resolve_right ht.started)
  | signalled hm | checked hm | created hm | refreshed hm =>
    have hne : s.main ≠ .absent := by rw [hm]; nofun
    exact ht.past rfl hdesk hne (hitems rfl) rfl fun _ => ⟨by rw [hm]; rfl, rfl⟩
  | @refreshing q main hm hin =>
    have hne : s.main ≠ .absent := by rw [hm]; nofun
    have hpast : main.alone = false := by cases main <;> first | rfl | cases hin
    exact ht.past rfl hdesk hne (hitems rfl) hpast fun _ => ⟨by rw [hm]; rfl, rfl⟩
  | registered hm he hl => exact ht.call (by unfold Roster.pairs; rw [he])
  | deregistered hm => exact ht.call rfl
  | listed hm => exact ht.call rfl
  | enumerated ho hk hl => exact ht.call hk.pairs
  | acted ho => exact ht.call rfl
  | background hb' =>
    rw [hb] at hb'
    cases hb'
  | @arrived os cur next x n q w main r m R' hm hcur hn hev hloc hadds hdrop hin =>
    have hread : ∀ n, s.queue.notes.get x = some n → n.event = .added →
        ReadsAs (os.read.read (some n.key)) n.key (s.desktop.tree n.key) := by
      subst hcur
      simpa only [State.honest, hm] using hhonest
    subst hcur
    exact ht.serve hrel hm hn hdrop hin (Or.inl ⟨_, hev, hread n hn hev, hadds.pairs⟩)
  | @departed os cur next x n q w main m hm hcur hn hev hdrop hin =>
    have hset := hs.settled
    rw [hm] at hset
    obtain ⟨m', hset⟩ := hset
    subst hcur
    exact ht.serve hrel hm hn hdrop hin (Or.inr ⟨hev, pairs_remove hset.ok⟩)
  | joined hm hend =>
    exact ⟨nofun, nofun, fun _ h => absurd rfl h, nofun, nofun, nofun, nofun⟩

/-- Before there is a thread and before the enumeration is over, the scans alone matter. -/
theorem Track.of_absent (hth : s.thread = .absent)
    (hempty : s.main ≠ .absent → M.taken ++ M.waiting = [])
    (hscan : ∀ set classes, s.main = .scanning set classes → Scans snap set classes R.pairs)
    (hstart : s.main ≠ .starting) (hen : s.main.enumerated = false) : Track snap s R M := by
  have hlistens : s.thread.listens ≠ true := by rw [hth]; exact Bool.false_ne_true
  have hen : s.main.enumerated ≠ true := Bool.eq_false_iff.mp hen
  exact ⟨fun h => absurd h hlistens, by simp [hth], fun _ => hempty, hscan, hstart,
    fun _ h => absurd h hen, fun _ h => absurd h hen⟩

/-- The first step of `hs_monitor_new`. -/
theorem track_new {os : NewOs} (hrel : Related s M) (h : Moves u s R (.newMonitor os) s' R') :
    Track snap s' R' (M.applyOption (s.mailOp (.newMonitor os))) := by
  have hth := thread_absent hrel (newMonitor_absent h)
  cases h with
  | @refused _ r hm hno hneg =>
    exact .of_absent hth (absurd hm) (by simp [hm]) (by simp [hm]) (by rw [hm]; rfl)
  | @failed _ q w r hm hyes hq hneg =>
    have hempty : M.applyOption (s.mailOp (.newMonitor os)) = .empty := by
      simp only [State.mailOp, hyes, ↓reduceIte]
      rfl
    rw [hempty]
    refine .of_absent hth (fun _ => rfl) (fun set classes h => ?_) (fun h => ?_) rfl
    · cases h
    · cases h
  | @started _ q w hm hok hq =>
    have hempty : M.applyOption (s.mailOp (.newMonitor os)) = .empty := by
      simp only [State.mailOp, callocOk_of_ok hok, ↓reduceIte]
      rfl
    have hpairs : R.fresh.pairs = ∅ := Set.ext fun p => iff_of_false List.not_mem_nil id
    rw [hempty]
    refine .of_absent hth (fun _ => rfl) (fun set classes h => ?_) (fun h => ?_) rfl
    · cases h
      rw [hpairs]
      exact scans_start
    · cases h
  | background hb => cases hb

/-! ## The background -/

/-- A step of the background, by what it does to the notifications. -/
theorem Track.turn (ht : Track snap s R M) (hm : s'.main = s.main)
    (hsub : s'.thread.listens = true → s'.desktop.subscribed = true)
    (hfail : ∀ r, s'.thread ≠ .failing r)
    (hearly : s'.thread.early = true → s.thread.early = true ∧ M' = M)
    (hlags : s'.thread.listens = true → s.main.enumerated = true →
      Lags {k | s'.desktop.tree k ≠ none} (present s'.desktop.tree)
        ((s'.behind M').map DeviceNotification.news) R.pairs) : Track snap s' R M' := by
  refine ⟨hsub, hfail, fun he hne => ?_, ?_, ?_, fun he hen => ?_, fun hl hen => ?_⟩
  · obtain ⟨he, rfl⟩ := hearly he
    exact ht.empty he (hm ▸ hne)
  · rw [hm]
    exact ht.scanning
  · rw [hm]
    exact ht.started
  · exact ht.early (hearly he).1 (hm ▸ hen)
  · exact hlags hl (hm ▸ hen)

/-- The thread goes on to its next set-up call. -/
theorem Track.settles {call : SetUp} (ht : Track snap s R M) (hm : s'.main = s.main)
    (hearly : s.thread.early = true) (hth : s'.thread = .settingUp call) : Track snap s' R M := by
  have hno : s'.thread.listens ≠ true := by rw [hth]; exact Bool.false_ne_true
  exact ht.turn hm (fun h => absurd h hno) (by simp [hth]) (fun _ => ⟨hearly, rfl⟩)
    fun h => absurd h hno

theorem Thread.listens_late {t : Thread} (h : t.listens = true) :
    t.early = false ∧ ∀ r, t ≠ .failing r := by
  cases t with
  | ready | waiting | posting => exact ⟨rfl, by simp⟩
  | _ => cases h

/-- The thread is in its message loop. -/
theorem Track.hears (ht : Track snap s R M) (hm : s'.main = s.main)
    (hl : s'.thread.listens = true) (hsub : s'.desktop.subscribed = true)
    (hlags : s.main.enumerated = true →
      Lags {k | s'.desktop.tree k ≠ none} (present s'.desktop.tree)
        ((s'.behind M').map DeviceNotification.news) R.pairs) : Track snap s' R M' := by
  obtain ⟨hlate, hfail⟩ := Thread.listens_late hl
  refine ht.turn hm (fun _ => hsub) hfail (fun he => ?_) fun _ => hlags
  rw [hlate] at he
  cases he

/-- The thread leaves its message loop, or never gets there. -/
theorem Track.leaves (ht : Track snap s R M) (hm : s'.main = s.main)
    (hth : (∃ r, s'.thread = .leaving r) ∨ s'.thread = .signalling ∨ s'.thread = .done) :
    Track snap s' R M' := by
  have hno : s'.thread.listens ≠ true ∧ s'.thread.early ≠ true ∧ ∀ r, s'.thread ≠ .failing r := by
    rcases hth with ⟨r, h⟩ | h | h <;> rw [h] <;> exact ⟨nofun, nofun, nofun⟩
  exact ht.turn hm (fun h => absurd h hno.1) hno.2.2 (fun h => absurd h hno.2.1)
    fun h => absurd h hno.1

/-- A change of the device tree, with its notice. -/
theorem lags_update {tree : CStr → Option Node} {k : CStr} {node : Option Node}
    {es : List (CStr × Bool)} (hk : node = none ↔ tree k ≠ none)
    (h : Lags {k | tree k ≠ none} (present tree) es S) :
    Lags {k' | Function.update tree k node k' ≠ none} (present (Function.update tree k node))
      (es ++ [(k, node.isSome)]) S := by
  have hnote : {k' | Function.update tree k node k' ≠ none} =
      note {k | tree k ≠ none} (k, node.isSome) := by
    ext k'
    rcases eq_or_ne k' k with rfl | hne
    · simp [note, Option.isSome_iff_ne_none]
    · simp [note, hne]
  rw [hnote]
  refine h.change ?_ fun p hp => ?_
  · rw [Option.isSome_eq_false_iff, Option.isNone_iff_eq_none]
    exact hk
  · have hp : p.1 ≠ k := hp
    simp [present, hp]

theorem behind_message (s : State) (M : Mailbox DeviceNotification) (m : Message)
    (tree : CStr → Option Node) :
    State.behind { s with desktop := { s.desktop with
      tree := tree, messages := s.desktop.messages ++ [m] } } M = s.behind M ++ [m.notification] := by
  simp [State.behind]

/-- `RegisterDeviceNotification` succeeds: what the scans found is what the notifications start from. -/
theorem Track.subscribe (ht : Track snap s R M) (hq : Quiet s)
    (hth : s.thread = .settingUp .registerNotification)
    (hpresent : present s.desktop.tree = found snap) :
    Track snap (s.setUp .registerNotification true) R M := by
  refine ht.hears rfl rfl rfl fun hen => ?_
  have hne : s.main ≠ .absent := by
    intro h
    rw [h] at hen
    cases hen
  have hboxes := ht.empty (by rw [hth]; rfl) hne
  have hmsg := (hq.deaf (by rw [hth]; rfl)).2
  have hbehind : (s.setUp .registerNotification true).behind M = [] := by
    show M.taken ++ M.waiting ++ [] ++ s.desktop.messages.map Message.notification = []
    rw [hboxes, hmsg]
    rfl
  have hpairs : R.pairs = present s.desktop.tree := by
    rw [hpresent]
    exact ht.early (by rw [hth]; rfl) hen
  rw [hbehind, hpairs]
  exact lags_same (present_keys s.desktop.tree)

/-- A change of the tree on the way to the window. -/
theorem Track.change {k : CStr} {node : Option Node} {m : Message} (ht : Track snap s R M)
    (hk : node = none ↔ s.desktop.tree k ≠ none) (hm : m.notification.news = (k, node.isSome)) :
    Track snap { s with desktop := { s.desktop with
      tree := Function.update s.desktop.tree k node
      messages := if s.desktop.subscribed then s.desktop.messages ++ [m]
        else s.desktop.messages } } R M := by
  refine ht.turn rfl ht.subscribed ht.lossless (fun h => ⟨h, rfl⟩) fun hl hen => ?_
  rw [ht.subscribed hl]
  simp only [↓reduceIte]
  rw [behind_message, List.map_append, List.map_singleton, hm]
  exact lags_update hk (ht.lags hl hen)

theorem track_background (ht : Track snap s R M) (hq : Quiet s) (h : Steps u s s' a)
    (hb : a.background = true) (hhonest : s.honest snap a) (hcaught : s.caughtUp snap a) :
    Track snap s' R (M.applyOption (s.mailOp a)) := by
  obtain ⟨hm, -⟩ := background_same h hb
  cases h with
  | @setUp call ok hth h =>
    have hearly : s.thread.early = true := by rw [hth]; rfl
    subst h
    cases ok with
    | false =>
      refine ht.leaves hm (Or.inl ?_)
      cases call <;> exact ⟨_, rfl⟩
    | true =>
      cases call with
      | registerNotification => exact ht.subscribe hq hth (hcaught rfl hth)
      | registerClass | createWindow | setWindowLong =>
        exact ht.settles hm hearly rfl
  | signalReady hth h =>
    subst h
    have hl : s.thread.listens = true := by rw [hth]; rfl
    have hbehind : s.signalReady.behind (M.apply .raise) = s.behind M := by
      simp [State.behind, State.signalReady, hth, Thread.held, Mailbox.apply]
    refine ht.hears hm rfl (ht.subscribed hl) fun hen => ?_
    show Lags _ _ ((s.signalReady.behind (M.apply .raise)).map _) _
    rw [hbehind]
    exact ht.lags hl hen
  | @dispatch os hth h =>
    have hl : s.thread.listens = true := by rw [hth]; rfl
    obtain ⟨m, messages, hmsg, ⟨-, rfl⟩ | ⟨hno, -⟩⟩ := dispatch_some h
    · refine ht.hears hm rfl (ht.subscribed hl) fun hen => ?_
      have hget : (s.queue.alloc m.notification).2.notes.get (s.queue.alloc m.notification).1 =
          some m.notification := by
        show (s.queue.notes.alloc m.notification).2.get s.queue.notes.brk = _
        rw [Heap.get_alloc, if_pos rfl]
      have hlags := ht.lags hl hen
      unfold State.behind Thread.held at hlags ⊢
      rw [hth, hmsg] at hlags
      dsimp only [Message.notification] at hget
      dsimp only
      rw [hget]
      simpa [Mailbox.applyOption, State.mailOp, Message.notification] using hlags
    · have hyes : (os.callocOk && os.strdupOk) = true := hhonest
      rw [hyes] at hno
      cases hno
  | @post x hth h =>
    have hl : s.thread.listens = true := by rw [hth]; rfl
    obtain ⟨q, e, h⟩ := Option.bind_eq_some_iff.mp h
    obtain ⟨n, hn, -⟩ := Option.bind_eq_some_iff.mp e
    cases h
    refine ht.hears hm rfl (ht.subscribed hl) fun hen => ?_
    have hlags := ht.lags hl hen
    unfold State.behind Thread.held at hlags ⊢
    rw [hth] at hlags
    dsimp only at hlags
    rw [hn] at hlags
    simpa [Mailbox.applyOption, State.mailOp, hth, hn, Mailbox.apply] using hlags
  | storeError hth h => exact absurd hth (ht.lossless _)
  | getMessageFails hth h => exact ht.leaves hm (Or.inl ⟨_, by rw [h]; rfl⟩)
  | quit hth h =>
    refine ht.leaves hm (Or.inl ⟨0, ?_⟩)
    unfold State.quit at h
    split at h
    · cases h
      rfl
    · cases h
  | @leave r hth h =>
    refine ht.leaves hm (Or.inr ?_)
    rw [h]
    unfold State.leave
    dsimp only
    split
    · exact Or.inl rfl
    · exact Or.inr rfl
  | signalError hth h => exact ht.leaves hm (Or.inr (Or.inr (by rw [h]; rfl)))
  | @arrive name node h =>
    obtain ⟨hnone, rfl⟩ := arrive_some h
    exact ht.change (by simp [hnone]) rfl
  | @depart name h =>
    obtain ⟨hsome, rfl⟩ := depart_some h
    exact ht.change (by simp [hsome]) rfl
  | _ => cases hb

/-! ## Runs -/

theorem steps_track (hu : u.limit ≤ uintMod) (hs : Stands s R) (hrel : Related s M) (hq : Quiet s)
    (ht : Track snap s R M) (h : Steps u s s' a) (hnew : ∀ os, a ≠ .newMonitor os)
    (hhonest : s.honest snap a) (hcaught : s.caughtUp snap a) :
    ∃ R' M', Stands s' R' ∧ Related s' M' ∧ Quiet s' ∧ Track snap s' R' M' := by
  obtain ⟨R', hs', hmove⟩ := steps_moves hu hs h
  have hrel' := (steps_related hrel h).2
  have hq' := moves_quiet hq hmove
  cases hb : a.background with
  | true =>
    obtain ⟨hm, hw, -⟩ := background_same h hb
    exact ⟨R, _, hs.turn hw hm, hrel', hq', track_background ht hq h hb hhonest hcaught⟩
  | false =>
    exact ⟨R', _, hs', hrel', hq', track_foreground hs hrel hq ht h hb hmove hnew hhonest⟩

/-- Between two calls there is nothing left of a refresh. -/
theorem behind_drained (hrel : Related s M) (hdone : s.drained) : s.behind M = [] := by
  obtain ⟨hm, hth, hmsg, hempty⟩ := hdone
  obtain ⟨own, shared, hrep⟩ := (related_iff (by rw [hm]; nofun)).mp hrel
  have hown : own = [] := (owns_iff (by rw [hm]; rfl)).mp hrep.main
  have htaken := hrep.queue.taken
  rw [hown] at htaken
  have htaken : M.taken = [] := List.map_eq_nil_iff.mp htaken.symm
  have hwaiting : M.waiting = [] := by
    rw [isEmpty_shared hrep, Option.some.injEq, List.isEmpty_iff] at hempty
    exact hempty
  simp [State.behind, Thread.held, htaken, hwaiting, hth, hmsg]

/-- A monitor that has served all notifications has the devices in its table that are present, when
the devices that were present at `RegisterDeviceNotification` are those that the scans had found. -/
theorem startUp_complete (react : List Event → Nat → Notice → Reaction)
    (tree : CStr → Option Node) (before : List Action) (os : NewOs) (actions : List Action)
    (s₀ s : State) (snap : DeviceClass → CStr → Option Node)
    (h₀ : run (step (.careful react)) (.start tree) before = some s₀)
    (h : run (step (.careful react)) s₀ (.newMonitor os :: actions) = some s)
    (hone : ∀ os', .newMonitor os' ∉ actions)
    (hhonest : Along (step (.careful react)) (State.honest snap) s₀ (.newMonitor os :: actions))
    (hcaught : Along (step (.careful react)) (State.caughtUp snap) s₀ (.newMonitor os :: actions))
    (hdone : s.drained) : s.Mirrors := by
  have hu : (User.careful react).limit ≤ uintMod := Nat.le_refl uintMod
  obtain ⟨s₁, e, h⟩ := run_cons h
  obtain ⟨R₀, hs₀⟩ := reachable_stands hu h₀
  obtain ⟨M₀, hrel₀, -⟩ := run_mailbox h₀
  have hq₀ : Quiet s₀ := by
    refine (run_rule_always (I := fun s => Quiet s ∧ ∃ R, Stands s R) ?_
      ⟨quiet_start tree, _, stands_start tree⟩ h₀).1
    rintro s a s' ⟨hq, R, hs⟩ e
    obtain ⟨R', hs', hmove⟩ := step_moves hu hs e
    exact ⟨moves_quiet hq hmove, R', hs'⟩
  obtain ⟨R₁, hs₁, hmove⟩ := step_moves hu hs₀ e
  have hrel₁ := (steps_related hrel₀ (steps_of_step e)).2
  obtain ⟨R, M, hs, hrel, -, ht⟩ : ∃ R M, Stands s R ∧ Related s M ∧ Quiet s ∧ Track snap s R M := by
    have hnew : Along (step (.careful react)) (fun _ (a : Action) => ∀ os, a ≠ .newMonitor os) s₁
        actions := by
      refine along_of_mem fun a ha os' he => hone os' ?_
      rw [← he]
      exact ha
    refine run_rule (I := fun s => ∃ R M, Stands s R ∧ Related s M ∧ Quiet s ∧ Track snap s R M) ?_
      ⟨R₁, _, hs₁, hrel₁, moves_quiet hq₀ hmove, track_new hrel₀ hmove⟩
      (hnew.and ((hhonest.2 s₁ e).and (hcaught.2 s₁ e))) h
    rintro s a s' ⟨R, M, hs, hrel, hq, ht⟩ ⟨hnew, hhon, hcau⟩ e
    exact steps_track hu hs hrel hq ht (steps_of_step e) hnew hhon hcau
  have hbehind := behind_drained hrel hdone
  obtain ⟨hm, hth, -⟩ := hdone
  have hlags := ht.lags (by rw [hth]; rfl) (by rw [hm]; rfl)
  rw [hbehind] at hlags
  obtain ⟨m, hset, -⟩ := hs.idle hm
  unfold State.Mirrors
  rw [listed_eq hset.bound, ← hlags.eq]
  ext p
  simp only [Roster.seen, Roster.pairs, Set.mem_ofPred_eq, List.mem_map]
  constructor
  · rintro ⟨e, he, rfl⟩
    exact ⟨e.pair, ⟨e, he, rfl⟩, rfl⟩
  · rintro ⟨q, ⟨e, he, rfl⟩, rfl⟩
    exact ⟨e, he, rfl⟩

instance (s : State) : Decidable s.drained :=
  inferInstanceAs (Decidable (_ = _ ∧ _ = _ ∧ _ = _ ∧ _ = _))

/-! ### A run on a tree that does not change -/

/-- Whether the system changes the device tree. -/
def Action.changesTree : Action → Bool
  | .arrive _ _ | .depart _ => true
  | _ => false

theorem steps_tree (h : Steps u s s' a) (ha : a.changesTree = false) :
    s'.desktop.tree = s.desktop.tree := by
  cases hb : a.background with
  | false => exact (foreground_same h hb).1.1
  | true =>
    cases h with
    | @setUp call ok hth h =>
      obtain ⟨hwnd, thread, subscribed, he, -⟩ := setUp_eq s call ok
      rw [h, he]
    | dispatch hth h => obtain ⟨m, messages, -, ⟨-, rfl⟩ | ⟨-, rfl⟩⟩ := dispatch_some h <;> rfl
    | post hth h =>
      obtain ⟨q, -, h⟩ := Option.bind_eq_some_iff.mp h
      cases h
      rfl
    | quit hth h =>
      unfold State.quit at h
      split at h
      · cases h
        rfl
      · cases h
    | leave hth h =>
      subst h
      unfold State.leave
      dsimp only
      split <;> rfl
    | signalReady hth h | storeError hth h | getMessageFails hth h | signalError hth h =>
      subst h
      rfl
    | arrive | depart => cases ha
    | _ => cases hb

/-- A serial adapter, as it answers to an enumeration. -/
def serialAnswers : ReadOs where
  callocOk := true
  deviceId := some (.lit "USB\\VID_16C0&PID_0483\\1")
  keyOk := true
  comport := .found (.lit "COM3")
  devicePath := none
  ports := .found ⟨[1, 2], List.cons_ne_nil 1 [2]⟩
  properties := fun _ => .found ⟨0x16C0, 0x0483, 0, none, none, none⟩
  locationOk := true

def serialKey : CStr := .lit "USB\\VID_16C0&PID_0483\\1"

/-- The adapter is the only device. -/
def serialTree (k : CStr) : Option Node := if k = serialKey then some ⟨.usb, some 0⟩ else none

/-- `hs_monitor_new` finds the adapter. -/
def createSerial : List Action :=
  [.newMonitor ⟨true, true, true, none⟩, .scanClass (some [serialKey]), .readDevice serialAnswers,
    .scanClass (some []), .beginThread true]

/-- What the scans and the reads of the run have to do with the tree. -/
def State.scansSerial (s : State) : Action → Bool
  | .scanClass set =>
    match s.main with
    | .scanning [] (c :: _) => set = some (if c = .usb then [serialKey] else [])
    | _ => true
  | .readDevice _ =>
    match s.main with
    | .scanning (k :: _) classes => k = serialKey ∧ classes = [.hid]
    | _ => true
  | .processNotification _ | .dispatch _ => false
  | a => !a.changesTree

theorem calm_of_scansSerial (hs : s.scansSerial a = true) : a.changesTree = false := by
  cases a <;> first | rfl | cases hs

theorem honest_serial (htree : s.desktop.tree = serialTree) (hs : s.scansSerial a = true)
    (hos : ∀ os, a = .readDevice os → os = serialAnswers) :
    s.honest (fun _ => serialTree) a := by
  cases a with
  | scanClass set =>
    dsimp only [State.honest]
    split
    · next c classes hm =>
      have hset : set = some (if c = .usb then [serialKey] else []) := by
        simpa [State.scansSerial, hm] using hs
      refine ⟨htree, fun l hl k => ?_⟩
      rw [hset] at hl
      cases hl
      cases c <;> simp [serialTree]
    · trivial
  | readDevice os =>
    obtain rfl := hos os rfl
    dsimp only [State.honest]
    split
    · next k set classes hm =>
      obtain ⟨rfl, rfl⟩ : k = serialKey ∧ classes = [.hid] := by
        simpa [State.scansSerial, hm] using hs
      have hread : serialTree serialKey = some ⟨.usb, some 0⟩ := rfl
      rw [hread]
      exact ⟨_, rfl, rfl, rfl⟩
    · trivial
  | processNotification | dispatch => cases hs
  | _ => trivial

theorem startUp_complete_serial : ∃ s, run (step idleUser) (.start serialTree)
      (createSerial ++ makeWindow ++ finishNew) = some s ∧ s.Mirrors := by
  obtain ⟨s, hrun, h⟩ := Option.map_eq_some_iff.mp (by decide +kernel :
    (run (step idleUser) (.start serialTree) (createSerial ++ makeWindow ++ finishNew)).map
      (fun s => decide s.drained) = some true)
  have hscans : Along (step idleUser) (fun s a => s.scansSerial a = true) (.start serialTree)
      (createSerial ++ makeWindow ++ finishNew) := along_of_check (by decide +kernel)
  have hstill := hscans.keep (I := fun s => s.desktop.tree = serialTree)
    (fun s a s' htree hs e => (steps_tree (steps_of_step e) (calm_of_scansSerial hs)).trans htree) rfl
  have hone : Along (step idleUser) (fun _ a => ∀ os, a = .readDevice os → os = serialAnswers)
      (.start serialTree) (createSerial ++ makeWindow ++ finishNew) := by
    refine along_of_mem fun a ha os he => ?_
    subst he
    simpa [createSerial, makeWindow, finishNew] using ha
  refine ⟨s, hrun, startUp_complete (fun _ _ _ => ⟨[], 0⟩) serialTree [] _ _ _ s (fun _ => serialTree)
    rfl hrun ?_ ?_ ?_ (of_decide_eq_true h)⟩
  · simp [makeWindow, finishNew]
  · exact (hstill.and hone).mono fun s a h => honest_serial h.1.1 h.1.2 h.2
  · refine hstill.mono fun s a h => ?_
    unfold State.caughtUp
    split
    · intro _ _
      rw [h.1]
      rfl
    · trivial

/-! ### A device between the enumeration and the registration -/

/-- The enumeration of a system without devices. -/
def scanNone : List Action :=
  [.newMonitor ⟨true, true, true, none⟩, .scanClass (some []), .scanClass (some [])]

/-- A device is plugged in when the scans are over, and before the window is there. -/
def plugEarly : List Action :=
  [.arrive (.lit "##?#USB#1") ⟨.usb, some 0⟩, .beginThread true] ++ makeWindow ++ finishNew

/-- The steps in which the system answers. -/
def Action.answers : Action → Bool
  | .scanClass _ | .readDevice _ | .processNotification _ | .dispatch _ => true
  | _ => false

theorem honest_of_silent (h : a.answers = false) : s.honest snap a := by
  cases a <;> trivial

/-- A scan of a tree without devices. -/
def Action.findsNone : Action → Bool
  | .scanClass set => set = some []
  | a => !a.answers && !a.changesTree

theorem calm_of_findsNone (h : a.findsNone = true) : a.changesTree = false := by
  cases a <;> first | rfl | cases h

theorem honest_none (htree : s.desktop.tree = fun _ => none) (h : a.findsNone = true) :
    s.honest (fun _ _ => none) a := by
  cases a with
  | scanClass set =>
    have hset : set = some [] := by simpa [Action.findsNone] using h
    dsimp only [State.honest]
    split
    · refine ⟨htree, fun l hl k => ?_⟩
      rw [hset] at hl
      cases hl
      simp
    · trivial
  | readDevice | processNotification | dispatch => cases h
  | _ => trivial

/-- The monitor has no notification to serve, and its table is empty: the device is not in it. -/
theorem startUp_misses : ∃ s,
    run (step idleUser) (.start fun _ => none) (scanNone ++ plugEarly) = some s ∧
      Along (step idleUser) (State.honest fun _ _ => none) (.start fun _ => none)
        (scanNone ++ plugEarly) ∧
      s.drained ∧ ¬ s.Mirrors := by
  obtain ⟨s, hrun, h⟩ := Option.map_eq_some_iff.mp (by decide +kernel :
    (run (step idleUser) (.start fun _ => none) (scanNone ++ plugEarly)).map
      (fun (s : State) => decide (s.drained ∧ s.desktop.tree (.lit "USB\\1") = some ⟨.usb, some 0⟩ ∧
        (hsMonitorList (.returning fun _ _ _ => 0) s.world 0).all fun x =>
          (x.2.log.drop s.world.log.length).all (Event.omits (some (.lit "USB\\1"), 0)))) =
      some true)
  obtain ⟨hdone, hthere, hlist⟩ := of_decide_eq_true h
  refine ⟨s, hrun, ?_, hdone, fun hall => ?_⟩
  · have hscans : Along (step idleUser) (fun _ a => a.findsNone = true) (.start fun _ => none)
        scanNone := along_of_check (by decide +kernel)
    have hstill := hscans.keep (I := fun s => s.desktop.tree = fun _ => none)
      (fun s a s' htree hs e => (steps_tree (steps_of_step e) (calm_of_findsNone hs)).trans htree) rfl
    refine along_append (hstill.mono fun s a h => honest_none h.1 h.2) fun s' _ => ?_
    have hquiet : Along (step idleUser) (fun _ (a : Action) => a.answers = false) s' plugEarly :=
      along_of_mem (by decide)
    exact hquiet.mono fun s a h => honest_of_silent h
  · have hin : ((some (.lit "USB\\1"), 0) : Option CStr × UInt8) ∈ listed s.world := by
      rw [hall]
      exact ⟨(.lit "USB\\1", 0), ⟨_, hthere⟩, rfl⟩
    exact not_listed_of_omits hlist hin

end Libhs.Win32
