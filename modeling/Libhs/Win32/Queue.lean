import Libhs.Win32.Steps
import Libhs.Lib.Mailbox

/-!
# The notification queue is a mailbox

The pointer structures of the queue and the variables of a refresh represent a
`Mailbox` of notifications (`Represents`), and every step of the system is an
operation on it, or none (`steps_represent`). So no notification is lost, doubled
or reordered, whatever the interleaving (`queue_conserved`).
-/

namespace Libhs.Win32
open Pointer

/-! ## The representation -/

/-- The nodes `l` hang on the head `h`, and hold the notifications `ns`. -/
structure Queue.Holds (q : Queue) (h : NoteRef) (l : List Nat) (ns : List DeviceNotification) :
    Prop where
  ring : DRing q.links h (l.map .note)
  notes : l.map q.notes.get = ns.map some

/-- The queue, with the nodes `own` in the list of the refresh, represents the mailbox. -/
structure Queue.Represents (q : Queue) (own shared : List Nat) (M : Mailbox DeviceNotification) :
    Prop where
  waiting : q.Holds .shared shared M.waiting
  taken : own.map q.notes.get = M.taken.map some
  distinct : (own ++ shared).Nodup
  error : M.error = q.ret
  flag : M.flag = q.event
  posted : M.posted = q.posted
  consumed : M.consumed = q.consumed

/-- The list of a refresh exists while a refresh runs, and its loop is at the first of the nodes,
with the pointer to the second one. -/
def Main.Owns (main : Main) (q : Queue) (own : List Nat) : Prop :=
  match main with
  | .refreshing cur next => DRing q.links .own (own.map .note) ∧ ∃ a l, own = a :: l ∧
      cur = some (.note a) ∧ next = some (firstOr .own (l.map .note))
  | .finishing _ => DRing q.links .own (own.map .note)
  | _ => own = []

/-- A notification that is about to be posted is not in the lists yet. -/
def Thread.Owns (thread : Thread) (q : Queue) (l : List Nat) : Prop :=
  match thread with
  | .posting a => a ∉ l ∧ (∃ n, q.notes.get a = some n) ∧ q.links (.note a) ≠ none
  | _ => True

/-- The state represents the mailbox. -/
structure State.Represents (s : State) (own shared : List Nat) (M : Mailbox DeviceNotification) :
    Prop where
  queue : s.queue.Represents own shared M
  main : s.main.Owns s.queue own
  thread : s.thread.Owns s.queue (own ++ shared)

/-- A monitor has a mailbox. -/
def Related (s : State) (M : Mailbox DeviceNotification) : Prop :=
  if s.main = .absent then s.thread = .absent else ∃ own shared, s.Represents own shared M

variable {q q' : Queue} {own shared l : List Nat} {M : Mailbox DeviceNotification} {a : Nat}
  {n : DeviceNotification} {h : NoteRef} {ns : List DeviceNotification}

theorem Queue.Holds.congr (hq : q.Holds h l ns) (hlinks : ∀ y ∈ h :: l.map .note, q'.links y = q.links y)
    (hnotes : ∀ a ∈ l, q'.notes.get a = q.notes.get a) : q'.Holds h l ns := by
  refine ⟨hq.ring.congr hlinks, ?_⟩
  rw [← hq.notes]
  exact List.map_congr_left hnotes

/-- The nodes of a list are live. -/
theorem live_of_map {f : Nat → Option DeviceNotification} (hm : l.map f = ns.map some)
    (ha : a ∈ l) : ∃ n, f a = some n := by
  have hf : f a ∈ ns.map some := by
    rw [← hm]
    exact List.mem_map_of_mem ha
  obtain ⟨n, -, he⟩ := List.mem_map.mp hf
  exact ⟨n, he.symm⟩

theorem Queue.Represents.live (hq : q.Represents own shared M) (ha : a ∈ own ++ shared) :
    ∃ n, q.notes.get a = some n := by
  rcases List.mem_append.mp ha with ha | ha
  · exact live_of_map hq.taken ha
  · exact live_of_map hq.waiting.notes ha

/-- The two lists have no node in common. -/
theorem Queue.Represents.apart (hq : q.Represents own shared M) :
    ∀ y ∈ (NoteRef.own :: own.map .note : List NoteRef), y ∉ NoteRef.shared :: shared.map .note := by
  intro y hy hs
  have hnd := List.disjoint_of_nodup_append hq.distinct
  rcases List.mem_cons.mp hy with rfl | hy
  · simp at hs
  · obtain ⟨a, ha, rfl⟩ := List.mem_map.mp hy
    have hs : a ∈ shared := by simpa using hs
    exact hnd ha hs

/-! ## The operations of the queue -/

theorem init_represents (q : Queue) : ∃ q', q.init = some q' ∧ q'.Represents [] [] .empty := by
  obtain ⟨links, e, hr, -⟩ := listInit_spec
    (m := Function.update q.links .shared (some ⟨none, none⟩)) (h := .shared) (by simp)
  refine ⟨{ q with links := links, ret := 0, event := false, posted := [], consumed := [] }, ?_,
    ⟨⟨hr, rfl⟩, rfl, List.nodup_nil, rfl, rfl, rfl, rfl⟩⟩
  simp only [Queue.init, e, Option.bind_eq_bind, Option.bind_some]

/-- A new notification is outside of the lists. -/
theorem alloc_represents (hq : q.Represents own shared M) (n : DeviceNotification) :
    (q.alloc n).2.Represents own shared M ∧
      (∀ y, y ≠ .note q.notes.brk → (q.alloc n).2.links y = q.links y) ∧
      (q.alloc n).1 ∉ own ++ shared ∧ (q.alloc n).2.notes.get (q.alloc n).1 = some n ∧
      (q.alloc n).2.links (.note (q.alloc n).1) ≠ none := by
  have hne : ∀ a ∈ own ++ shared, a ≠ q.notes.brk := by
    rintro a ha rfl
    obtain ⟨n', hn'⟩ := hq.live ha
    rw [Heap.get_brk] at hn'
    cases hn'
  have hlinks : ∀ y, y ≠ .note q.notes.brk → (q.alloc n).2.links y = q.links y := fun y hy =>
    Function.update_of_ne hy ..
  have hnotes : ∀ a ∈ own ++ shared, (q.alloc n).2.notes.get a = q.notes.get a := by
    intro a ha
    show (q.notes.alloc n).2.get a = _
    rw [Heap.get_alloc, if_neg (hne a ha)]
  refine ⟨⟨?_, ?_, hq.distinct, hq.error, hq.flag, hq.posted, hq.consumed⟩, hlinks,
    fun hm => hne _ hm rfl, ?_, ?_⟩
  · refine hq.waiting.congr (fun y hy => hlinks y ?_) fun a ha =>
      hnotes a (List.mem_append_right _ ha)
    rintro rfl
    have hm : q.notes.brk ∈ shared := by simpa using hy
    exact hne _ (List.mem_append_right _ hm) rfl
  · rw [← hq.taken]
    exact List.map_congr_left fun a ha => hnotes a (List.mem_append_left _ ha)
  · show (q.notes.alloc n).2.get q.notes.brk = _
    rw [Heap.get_alloc, if_pos rfl]
  · simp [Queue.alloc]

theorem post_represents (hq : q.Represents own shared M) (ha : a ∉ own ++ shared)
    (hn : q.notes.get a = some n) (hl : q.links (.note a) ≠ none) :
    ∃ q', q.post a = some q' ∧ q'.Represents own (shared ++ [a]) (M.apply (.post n)) ∧
      ∀ y ∈ (NoteRef.own :: own.map .note : List NoteRef), q'.links y = q.links y := by
  have hfresh : NoteRef.note a ∉ NoteRef.shared :: shared.map .note := by
    intro hm
    have hm : a ∈ shared := by simpa using hm
    exact ha (List.mem_append_right _ hm)
  obtain ⟨links, e, hr, hf⟩ := listAddTail_spec hq.waiting.ring hfresh hl
  have hr' : DRing links .shared ((shared ++ [a]).map .note) := by
    rw [List.map_append]
    exact hr
  have hframe : ∀ y ∈ (NoteRef.own :: own.map .note : List NoteRef), links y = q.links y := by
    intro y hy
    refine hf y (hq.apart y hy) ?_
    rintro rfl
    have hm : a ∈ own := by simpa using hy
    exact ha (List.mem_append_left _ hm)
  refine ⟨{ q with links := links, event := true, posted := q.posted ++ [n] }, ?_,
    ⟨⟨hr', ?_⟩, hq.taken, ?_, hq.error, rfl, ?_, hq.consumed⟩, hframe⟩
  · simp only [Queue.post, hn, e, Option.bind_eq_bind, Option.bind_some]
  · show (shared ++ [a]).map q.notes.get = (M.waiting ++ [n]).map some
    rw [List.map_append, List.map_append, hq.waiting.notes, List.map_singleton, hn,
      List.map_singleton]
  · rw [← List.append_assoc]
    exact List.nodup_append.mpr ⟨hq.distinct, List.nodup_singleton a, fun x hx y hy he =>
      ha (by rw [← List.mem_singleton.mp hy, ← he]; exact hx)⟩
  · show M.posted ++ [n] = q.posted ++ [n]
    rw [hq.posted]

theorem take_represents (hq : q.Represents [] shared M) :
    ∃ q', q.take = some (M.error, q') ∧ q'.Represents shared [] (M.apply .take) ∧
      DRing q'.links .own (shared.map .note) ∧
      ∀ a, a ∉ shared → q'.links (.note a) = q.links (.note a) ∧
        q'.notes.get a = q.notes.get a := by
  obtain ⟨m₁, e₁, hown, hf₁⟩ := listInit_spec
    (m := Function.update q.links .own (some ⟨none, none⟩)) (h := .own) (by simp)
  have hsame : ∀ y, y ≠ NoteRef.own → m₁ y = q.links y := fun y hy => by
    rw [hf₁ y hy, Function.update_of_ne hy]
  have hring : DRing m₁ .shared (shared.map .note) := hq.waiting.ring.congr fun y hy =>
    hsame y (by rintro rfl; simp at hy)
  obtain ⟨m₂, e₂, hown₂, hshared₂, hf₂⟩ := listSplice_spec hown hring (by simp)
  rw [List.append_nil] at hown₂
  refine ⟨{ q with links := m₂, ret := 0 }, ?_, ⟨⟨hshared₂, rfl⟩, hq.waiting.notes, ?_, rfl,
    hq.flag, hq.posted, hq.consumed⟩, hown₂, fun a ha => ⟨?_, rfl⟩⟩
  · simp only [Queue.take, e₁, e₂, Option.bind_eq_bind, Option.bind_some, hq.error]
  · rw [List.append_nil]
    exact hq.distinct
  · exact (hf₂ (.note a) (by simp) (by simpa using ha)).trans (hsame (.note a) (by simp))

/-- Taking the first node out of the list of the refresh. -/
theorem drop_represents (hq : q.Represents (a :: l) shared M)
    (hown : DRing q.links .own ((a :: l).map .note)) :
    ∃ q', q.drop a = some q' ∧ q'.Represents l shared (M.apply .consume) ∧
      DRing q'.links .own (l.map .note) ∧
      ∀ b, b ∉ a :: l → q'.links (.note b) = q.links (.note b) ∧
        q'.notes.get b = q.notes.get b := by
  have hnd : a ∉ l ∧ a ∉ shared := by
    have h := List.nodup_cons.mp hq.distinct
    exact ⟨fun hm => h.1 (List.mem_append_left _ hm), fun hm => h.1 (List.mem_append_right _ hm)⟩
  obtain ⟨n, hn⟩ := hq.live (a := a) (by simp)
  obtain ⟨links, e, hr, -, hf⟩ := listRemove_spec (show DRing q.links .own ([] ++ _ :: _) from hown)
  obtain ⟨notes, en, -, hg⟩ := Heap.free_some hn
  have hrest : ∀ b ∈ l ++ shared, notes.get b = q.notes.get b := by
    intro b hb
    rw [hg, if_neg]
    rintro rfl
    exact (List.nodup_cons.mp hq.distinct).1 hb
  have hcut : ∀ y : NoteRef, y ≠ .note a → Function.update links (.note a) none y = links y :=
    fun y hy => Function.update_of_ne hy ..
  obtain ⟨ns, hM⟩ : ∃ ns, M.taken = n :: ns := by
    have ht := hq.taken
    rw [List.map_cons, hn] at ht
    cases hM : M.taken with
    | nil => rw [hM] at ht; simp at ht
    | cons n' ns =>
      rw [hM, List.map_cons] at ht
      cases (List.cons.inj ht).1
      exact ⟨ns, rfl⟩
  -- the queue of the monitor is apart from the list of the refresh
  have hstays : ∀ y ∈ (NoteRef.shared :: shared.map .note : List NoteRef),
      Function.update links (.note a) none y = q.links y := by
    intro y hy
    have hout : y ∉ NoteRef.own :: (a :: l).map NoteRef.note := fun hm => hq.apart y hm hy
    rw [hcut y fun he => hout (by simp [he])]
    exact hf y hout
  refine ⟨{ q with
    notes := notes
    links := Function.update links (.note a) none
    consumed := q.consumed ++ [n] }, ?_, ⟨⟨hq.waiting.ring.congr hstays, ?_⟩, ?_, ?_, hq.error,
      hq.flag, hq.posted, ?_⟩, ?_, fun b hb => ?_⟩
  · simp only [Queue.drop, Queue.free, hn, e, en, Option.bind_eq_bind, Option.bind_some]
  · show shared.map notes.get = M.waiting.map some
    rw [← hq.waiting.notes]
    exact List.map_congr_left fun b hb => hrest b (List.mem_append_right _ hb)
  · show l.map notes.get = (M.taken.drop 1).map some
    have ht := hq.taken
    rw [hM, List.map_cons, List.map_cons] at ht
    rw [hM, List.drop_one, List.tail_cons, ← (List.cons.inj ht).2]
    exact List.map_congr_left fun b hb => hrest b (List.mem_append_left _ hb)
  · exact (List.nodup_cons.mp hq.distinct).2
  · show M.consumed ++ M.taken.take 1 = q.consumed ++ [n]
    rw [hM, hq.consumed]
    rfl
  · refine hr.congr fun y hy => hcut y ?_
    rintro rfl
    exact hnd.1 (by simpa using hy)
  · have hba : b ≠ a := fun he => hb (he ▸ List.mem_cons_self)
    refine ⟨?_, by rw [hg, if_neg hba]⟩
    show Function.update links (.note a) none (.note b) = _
    rw [hcut (.note b) (by simpa using hba)]
    exact hf (.note b) (by simpa using hb)

theorem putBack_represents (hq : q.Represents own shared M)
    (hown : DRing q.links .own (own.map .note)) :
    ∃ q', q.putBack = some q' ∧ q'.Represents [] (own ++ shared) (M.apply .putBack) ∧
      ∀ a, a ∉ own ++ shared → q'.links (.note a) = q.links (.note a) ∧
        q'.notes.get a = q.notes.get a := by
  have hdisj : ∀ y ∈ (NoteRef.shared :: shared.map .note : List NoteRef),
      y ∉ NoteRef.own :: own.map .note := fun y hy hm => hq.apart y hm hy
  obtain ⟨m, e, hr, -, hf⟩ := listSplice_spec hq.waiting.ring hown hdisj
  have hr : DRing m .shared ((own ++ shared).map .note) := by rwa [List.map_append]
  have hcut : DRing (Function.update m .own none) .shared ((own ++ shared).map .note) :=
    hr.congr fun y hy => Function.update_of_ne (by rintro rfl; simp at hy) ..
  have hempty : (own ++ shared).isEmpty = (M.taken ++ M.waiting).isEmpty := by
    have hlen := congrArg List.length hq.taken
    have hlen' := congrArg List.length hq.waiting.notes
    simp only [List.length_map] at hlen hlen'
    rw [Bool.eq_iff_iff, List.isEmpty_iff_length_eq_zero, List.isEmpty_iff_length_eq_zero,
      List.length_append, List.length_append, hlen, hlen']
  have hnotes : (own ++ shared).map q.notes.get = (M.taken ++ M.waiting).map some := by
    rw [List.map_append, List.map_append, hq.taken, hq.waiting.notes]
  have hkept : ∀ a, a ∉ own ++ shared →
      Function.update m .own none (.note a) = q.links (.note a) := by
    intro a ha
    rw [List.mem_append, not_or] at ha
    rw [Function.update_of_ne (by simp)]
    exact hf (.note a) (by simpa using ha.2) (by simpa using ha.1)
  have he : hsListIsEmpty m .shared = some (M.taken ++ M.waiting).isEmpty := by
    rw [listIsEmpty_spec hr, List.isEmpty_map, hempty]
  refine ⟨_, by simp only [Queue.putBack, e, he, Option.bind_eq_bind, Option.bind_some]; rfl, ?_,
    fun a ha => ?_⟩
  · cases hb : (M.taken ++ M.waiting).isEmpty
    all_goals
      refine ⟨⟨hcut, hnotes⟩, rfl, hq.distinct, hq.error, ?_, hq.posted, hq.consumed⟩
      simp [Mailbox.apply, hb, hq.flag, Queue.resetEvent]
  · cases hb : (M.taken ++ M.waiting).isEmpty
    · exact ⟨hkept a ha, rfl⟩
    · exact ⟨hkept a ha, rfl⟩

/-- The operation that a step is on the mailbox. -/
def State.mailOp (s : State) : Action → Option (Mailbox.Op DeviceNotification)
  | .newMonitor os => if os.callocOk then some .renew else none
  | .resetEvent => some .lower
  | .beginRefresh => some .take
  | .processNotification _ => some .consume
  | .endRefresh => some .putBack
  | .signalReady | .signalError => some .raise
  | .post =>
    match s.thread with
    | .posting a => (s.queue.notes.get a).map .post
    | _ => none
  | .storeError =>
    match s.thread with
    | .failing r => some (.fail r)
    | _ => none
  | .leave =>
    match s.thread with
    | .leaving r => if r < 0 then some (.store r) else none
    | _ => none
  | _ => none

variable {u : User} {s s' : State} {act : Action} {main : Main}

theorem owns_iff (hm : main.inRefresh = false) : main.Owns q own ↔ own = [] := by
  unfold Main.Owns
  cases main with
  | refreshing cur next => cases hm
  | finishing r => cases hm
  | absent | scanning | starting | waiting | checking | resetting | idle | freeing | leaked =>
    exact Iff.rfl

theorem State.Represents.ring (hs : s.Represents own shared M) (hm : s.main.inRefresh = true) :
    DRing s.queue.links .own (own.map .note) := by
  have h := hs.main
  unfold Main.Owns at h
  cases hmain : s.main with
  | refreshing cur next =>
    rw [hmain] at h
    exact h.1
  | finishing r =>
    rw [hmain] at h
    exact h
  | absent | scanning | starting | waiting | checking | resetting | idle | freeing | leaked =>
    rw [hmain] at hm
    cases hm

/-- A refresh keeps its list while other nodes change. -/
theorem Main.Owns.congr (hm : main.Owns q own)
    (hf : ∀ y ∈ (NoteRef.own :: own.map .note : List NoteRef), q'.links y = q.links y) :
    main.Owns q' own := by
  unfold Main.Owns at hm ⊢
  cases main with
  | refreshing cur next => exact ⟨hm.1.congr hf, hm.2⟩
  | finishing r => exact hm.congr hf
  | absent | scanning | starting | waiting | checking | resetting | idle | freeing | leaked =>
    exact hm

/-- A posting thread keeps what it holds while nodes of the lists change. -/
theorem Thread.Owns.congr {thread : Thread} {l' : List Nat} (h : thread.Owns q l)
    (hl : ∀ a, a ∈ l' → a ∈ l)
    (hag : ∀ a, a ∉ l → q'.links (.note a) = q.links (.note a) ∧ q'.notes.get a = q.notes.get a) :
    thread.Owns q' l' := by
  unfold Thread.Owns at h ⊢
  cases thread with
  | posting a =>
    obtain ⟨ha, hn, hlink⟩ := h
    refine ⟨fun hm => ha (hl a hm), ?_, ?_⟩
    · rwa [(hag a ha).2]
    · rwa [(hag a ha).1]
  | absent | settingUp | ready | waiting | failing | leaving | signalling | done => trivial

theorem related_iff (hm : s.main ≠ .absent) :
    Related s M ↔ ∃ own shared, s.Represents own shared M := by
  unfold Related
  rw [if_neg hm]

/-- A step that leaves the queue and both program points alone. -/
theorem Related.same (hs : Related s M) (hq : s'.queue = s.queue) (hm : s'.main = s.main)
    (ht : s'.thread = s.thread) : Related s' M := by
  unfold Related at hs ⊢
  rw [hm, ht]
  split at hs
  · next habs =>
    rw [if_pos habs]
    exact hs
  · next habs =>
    obtain ⟨own, shared, h⟩ := hs
    rw [if_neg habs]
    exact ⟨own, shared, by rw [hq]; exact h.queue, by rw [hq, hm]; exact h.main,
      by rw [hq, ht]; exact h.thread⟩

/-- A step of the thread of the user outside of a refresh, which leaves the queue alone. -/
theorem Related.move (hs : Related s M) (habs : s.main ≠ .absent) (hr : s.main.inRefresh = false)
    (hq : s'.queue = s.queue) (ht : s'.thread = s.thread) (habs' : s'.main ≠ .absent)
    (hr' : s'.main.inRefresh = false) : Related s' M := by
  obtain ⟨own, shared, h⟩ := (related_iff habs).mp hs
  refine (related_iff habs').mpr ⟨own, shared, by rw [hq]; exact h.queue, ?_,
    by rw [hq, ht]; exact h.thread⟩
  rw [owns_iff hr']
  exact (owns_iff hr).mp h.main

/-- The background thread runs while there is a monitor. -/
theorem Related.present (hs : Related s M) (ht : s.thread ≠ .absent) : s.main ≠ .absent := by
  intro habs
  rw [Related, if_pos habs] at hs
  exact ht hs

theorem Related.error (hs : Related s M) (habs : s.main ≠ .absent) : M.error = s.queue.ret := by
  obtain ⟨own, shared, h⟩ := (related_iff habs).mp hs
  exact h.queue.error

theorem Related.flag (hs : Related s M) (habs : s.main ≠ .absent) : M.flag = s.queue.event := by
  obtain ⟨own, shared, h⟩ := (related_iff habs).mp hs
  exact h.queue.flag

/-- A step that writes the error and the event only, and after which nothing new is posted. -/
theorem Related.write {r : Int} {b : Bool} (hs : Related s M) (habs : s.main ≠ .absent)
    (hq : s'.queue = { s.queue with ret := r, event := b })
    (hm : s'.main = s.main ∨ s.main.inRefresh = false ∧ s'.main.inRefresh = false)
    (habs' : s'.main ≠ .absent) (ht : s'.thread = s.thread ∨ ∀ a, s'.thread ≠ .posting a) :
    Related s' { M with error := r, flag := b } := by
  obtain ⟨own, shared, h⟩ := (related_iff habs).mp hs
  have hrep := h.queue
  refine (related_iff habs').mpr ⟨own, shared, ?_, ?_, ?_⟩
  · rw [hq]
    exact ⟨⟨hrep.waiting.ring, hrep.waiting.notes⟩, hrep.taken, hrep.distinct, rfl, rfl,
      hrep.posted, hrep.consumed⟩
  · rw [hq]
    rcases hm with hm | ⟨hr, hr'⟩
    · rw [hm]
      exact h.main.congr fun _ _ => rfl
    · rw [owns_iff hr']
      exact (owns_iff hr).mp h.main
  · rw [hq]
    rcases ht with ht | ht
    · rw [ht]
      exact h.thread.congr (fun _ ha => ha) fun _ _ => ⟨rfl, rfl⟩
    · unfold Thread.Owns
      cases hth : s'.thread with
      | posting a => exact absurd hth (ht a)
      | absent | settingUp | ready | waiting | failing | leaving | signalling | done => trivial

/-- A step of the background thread that writes nothing, and after which nothing is posted. -/
theorem Related.turn (hs : Related s M) (ht : s.thread ≠ .absent) (hq : s'.queue = s.queue)
    (hm : s'.main = s.main) (ht' : ∀ a, s'.thread ≠ .posting a) : Related s' M := by
  have habs := hs.present ht
  have h : Related s' { M with error := s.queue.ret, flag := s.queue.event } :=
    hs.write habs (by rw [hq]) (Or.inl hm) (by rwa [hm]) (Or.inr ht')
  rwa [← hs.error habs, ← hs.flag habs] at h

/-- A step of the background thread that sets the event. -/
theorem Related.signal (hs : Related s M) (ht : s.thread ≠ .absent)
    (hq : s'.queue = s.queue.setEvent) (hm : s'.main = s.main) (ht' : ∀ a, s'.thread ≠ .posting a) :
    Related s' (M.apply .raise) := by
  have habs := hs.present ht
  have h : Related s' { M with error := s.queue.ret, flag := true } :=
    hs.write habs hq (Or.inl hm) (by rwa [hm]) (Or.inr ht')
  rw [← hs.error habs] at h
  exact h

/-- The loop of a refresh at the head of its list, or at its first node. -/
theorem loopAt_owns {k : Link NoteRef} (hown : DRing s.queue.links .own (l.map .note))
    (hk : load s.queue.links (some (firstOr .own (l.map .note))) = some k) :
    (s.loopAt (some (firstOr .own (l.map .note))) k.next).main.Owns s.queue l := by
  unfold State.loopAt
  cases l with
  | nil =>
    simp only [List.map_nil, firstOr_nil, ↓reduceIte]
    exact hown
  | cons a l =>
    rw [if_neg (by simp)]
    have hnode := DRing.node (show DRing s.queue.links .own ([] ++ _ :: _) from hown)
    have hka : s.queue.links (.note a) = some k := hk
    rw [hnode] at hka
    cases hka
    exact ⟨hown, a, l, rfl, rfl, rfl⟩

theorem ne_absent_of_inRefresh (hm : main.inRefresh = true) : main ≠ .absent := by
  rintro rfl
  cases hm

/-- The steps that take the notifications, lower the flag, or store an error without a signal. -/
def ComesFrom (op : Mailbox.Op DeviceNotification) (act : Action) : Prop :=
  match op with
  | .take => act = .beginRefresh
  | .lower => act = .resetEvent
  | .putBack => act = .endRefresh
  | .store _ => act = .leave
  | _ => True

theorem mailOp_some {op : Mailbox.Op DeviceNotification} (h : s.mailOp act = some op) :
    ComesFrom op act := by
  cases act with
  | newMonitor os =>
    simp only [State.mailOp, Option.ite_none_right_eq_some] at h
    rw [← Option.some.inj h.2]
    trivial
  | post =>
    simp only [State.mailOp] at h
    split at h
    · obtain ⟨n, -, rfl⟩ := Option.map_eq_some_iff.mp h
      trivial
    · cases h
  | storeError =>
    simp only [State.mailOp] at h
    split at h
    · cases h; trivial
    · cases h
  | leave =>
    simp only [State.mailOp] at h
    split at h
    · split at h
      · cases h; rfl
      · cases h
    · cases h
  | resetEvent | beginRefresh | endRefresh => cases h; rfl
  | processNotification | signalReady | signalError => cases h; trivial
  | _ => cases h

/-- The first critical section of a refresh. -/
theorem beginRefresh_related (hs : Related s M) (hm : s.main = .idle)
    (h : s.beginRefresh = some s') : M.Allows .take ∧ Related s' (M.apply .take) := by
  obtain ⟨own, shared, hrep⟩ := (related_iff (by rw [hm]; simp)).mp hs
  have hown : own = [] := (owns_iff (by rw [hm]; rfl)).mp hrep.main
  subst hown
  have htaken : M.taken = [] := by simpa using hrep.queue.taken.symm
  refine ⟨htaken, ?_⟩
  obtain ⟨q', e, hq', hring, hag⟩ := take_represents hrep.queue
  have hthread : s.thread.Owns q' (shared ++ []) := by
    rw [List.append_nil]
    exact hrep.thread.congr (fun a ha => by simpa using ha) fun a ha => hag a (by simpa using ha)
  obtain ⟨r, q, e', hcase⟩ := beginRefresh_some h
  rw [e] at e'
  cases e'
  rcases hcase with ⟨-, rfl⟩ | ⟨-, head, cur, eh, ec, rfl⟩
  · exact (related_iff (by simp)).mpr ⟨shared, [], hq', hring, hthread⟩
  · have hnext : head.next = some (firstOr .own (shared.map .note)) := by
      rw [hring.head] at eh
      cases eh
      rfl
    rw [hnext] at ec ⊢
    obtain ⟨hq, ht, -⟩ := loopAt_same { s with queue := q' } (some (firstOr .own (shared.map .note)))
      cur.next
    refine (related_iff (ne_absent_of_inRefresh (loopAt_inRefresh _ _ _))).mpr
      ⟨shared, [], ?_, ?_, ?_⟩
    · rw [hq]
      exact hq'
    · rw [hq]
      exact loopAt_owns (s := { s with queue := q' }) hring ec
    · rw [hq, ht]
      exact hthread

/-- A round of the loop of a refresh. -/
theorem processNotification_related {os : ArrivalOs} {cur next : Option NoteRef}
    (hs : Related s M) (hm : s.main = .refreshing cur next)
    (h : s.processNotification u os cur next = some s') : Related s' (M.apply .consume) := by
  obtain ⟨own, shared, hrep⟩ := (related_iff (by rw [hm]; simp)).mp hs
  have hown := hrep.main
  rw [hm] at hown
  obtain ⟨hring, a, l, rfl, rfl, rfl⟩ := hown
  obtain ⟨q', e, hq', hring', hag⟩ := drop_represents hrep.queue hring
  have hthread : s.thread.Owns q' (l ++ shared) :=
    hrep.thread.congr (fun b hb => List.mem_cons_of_mem a hb) fun b hb =>
      hag b fun hb' => hb (List.mem_append_left _ hb')
  obtain ⟨a', n, r, w, q, ha', en, ew, eq, hcase⟩ := processNotification_some h
  cases ha'
  rw [e] at eq
  cases eq
  rcases hcase with ⟨-, rfl⟩ | ⟨-, k, ek, rfl⟩
  · exact (related_iff (by simp)).mpr ⟨l, shared, hq', hring', hthread⟩
  · obtain ⟨hq, ht, -⟩ := loopAt_same { s with world := w, queue := q' }
      (some (firstOr .own (l.map .note))) k.next
    refine (related_iff (ne_absent_of_inRefresh (loopAt_inRefresh _ _ _))).mpr
      ⟨l, shared, ?_, ?_, ?_⟩
    · rw [hq]
      exact hq'
    · rw [hq]
      exact loopAt_owns (s := { s with world := w, queue := q' }) hring' ek
    · rw [hq, ht]
      exact hthread

/-- The second critical section. -/
theorem endRefresh_related {r : Int} (hs : Related s M) (hm : s.main = .finishing r)
    (h : s.endRefresh r = some s') : Related s' (M.apply .putBack) := by
  obtain ⟨own, shared, hrep⟩ := (related_iff (by rw [hm]; simp)).mp hs
  obtain ⟨q', e, hq', hag⟩ := putBack_represents hrep.queue (hrep.ring (by rw [hm]; rfl))
  obtain ⟨q, e', h⟩ := Option.bind_eq_some_iff.mp h
  rw [e] at e'
  cases e'
  cases h
  refine (related_iff (by simp)).mpr ⟨[], own ++ shared, hq', rfl, ?_⟩
  exact hrep.thread.congr (fun a ha => by simpa using ha) hag

theorem post_related {a : Nat} (hs : Related s M) (ht : s.thread = .posting a)
    (h : s.post a = some s') :
    ∃ n, s.queue.notes.get a = some n ∧ Related s' (M.apply (.post n)) := by
  have habs := hs.present (by rw [ht]; simp)
  obtain ⟨own, shared, hrep⟩ := (related_iff habs).mp hs
  have hown := hrep.thread
  rw [ht] at hown
  obtain ⟨ha, ⟨n, hn⟩, hl⟩ := hown
  obtain ⟨q', e, hq', hf⟩ := post_represents hrep.queue ha hn hl
  obtain ⟨q, e', h⟩ := Option.bind_eq_some_iff.mp h
  rw [e] at e'
  cases e'
  cases h
  exact ⟨n, hn, (related_iff (s := { s with queue := q', thread := .waiting }) habs).mpr
    ⟨own, shared ++ [a], hq', hrep.main.congr hf, trivial⟩⟩

theorem dispatch_related {os : PostOs} (hs : Related s M) (ht : s.thread = .waiting)
    (h : s.dispatch os = some s') : Related s' M := by
  have habs := hs.present (by rw [ht]; simp)
  obtain ⟨m, messages, -, ⟨-, rfl⟩ | ⟨-, rfl⟩⟩ := dispatch_some h
  · obtain ⟨own, shared, hrep⟩ := (related_iff habs).mp hs
    obtain ⟨hq', hlinks, hout, hget, hlive⟩ :=
      alloc_represents hrep.queue ⟨m.event, extractDeviceId m.name⟩
    have hframe : ∀ y ∈ (NoteRef.own :: own.map .note : List NoteRef),
        (s.queue.alloc ⟨m.event, extractDeviceId m.name⟩).2.links y = s.queue.links y := by
      intro y hy
      refine hlinks y ?_
      rintro rfl
      have hm : s.queue.notes.brk ∈ own := by simpa using hy
      exact hout (List.mem_append_left _ hm)
    unfold Related
    rw [if_neg habs]
    exact ⟨own, shared, hq', hrep.main.congr hframe, hout, ⟨_, hget⟩, hlive⟩
  · obtain ⟨own, shared, hrep⟩ := (related_iff habs).mp hs
    unfold Related
    rw [if_neg habs]
    exact ⟨own, shared, hrep.queue, hrep.main, trivial⟩

theorem freeMonitor_related {r : Int} (hs : Related s M) (habs : s.main ≠ .absent)
    (hr : s.main.inRefresh = false) (h : s.freeMonitor r = some s') : Related s' M := by
  obtain ⟨w, -, rfl⟩ := freeMonitor_some h
  exact hs.move habs hr rfl rfl (by simp) rfl

theorem newMonitor_related {os : NewOs} (hs : Related s M) (hm : s.main = .absent)
    (h : s.newMonitor os = some s') : Related s' (M.applyOption (s.mailOp (.newMonitor os))) := by
  rcases newMonitor_some h with ⟨hok, rfl⟩ | ⟨q, s₁, hok, eq, rfl, hcase⟩
  · simp only [State.mailOp, hok, Bool.false_eq_true, ↓reduceIte, Mailbox.applyOption]
    exact hs.same rfl rfl rfl
  · have hop : s.mailOp (.newMonitor os) = some .renew := by
      simp only [State.mailOp, hok, ↓reduceIte]
    rw [hop]
    obtain ⟨q', e, hq⟩ := init_represents s.queue
    rw [eq] at e
    cases e
    have hth : s.thread = .absent := by rwa [Related, if_pos hm] at hs
    have hthread : s.thread.Owns q [] := by
      rw [hth]
      trivial
    rcases hcase with ⟨r, -, h⟩ | ⟨r, w, -, ⟨r', -, h⟩ | ⟨-, -, rfl⟩⟩
    · obtain ⟨w, -, rfl⟩ := freeMonitor_some h
      exact (related_iff (by simp)).mpr ⟨[], [], hq, rfl, hthread⟩
    · obtain ⟨w, -, rfl⟩ := freeMonitor_some h
      exact (related_iff (by simp)).mpr ⟨[], [], hq, rfl, hthread⟩
    · exact (related_iff (by simp)).mpr ⟨[], [], hq, rfl, hthread⟩

/-- The background thread starts with nothing to post. -/
theorem beginThread_related {ok : Bool} (hs : Related s M) (habs : s.main ≠ .absent)
    (hr : s.main.inRefresh = false) : Related (s.beginThread ok) M := by
  cases ok with
  | false => exact hs.move habs hr rfl rfl (by simp [State.beginThread]) rfl
  | true =>
    have hs' : Related { s with main := .waiting } M := hs.move habs hr rfl rfl (by simp) rfl
    obtain ⟨own, shared, hrep⟩ := (related_iff (by simp)).mp hs'
    exact (related_iff (by simp [State.beginThread])).mpr
      ⟨own, shared, hrep.queue, hrep.main, trivial⟩

/-- On its way out the thread stores its error, or is done. -/
theorem leave_related {r : Int} (hs : Related s M) (ht : s.thread = .leaving r) :
    Related (s.leave r) (M.applyOption (s.mailOp .leave)) := by
  have hpresent : s.thread ≠ .absent := by rw [ht]; simp
  have habs := hs.present hpresent
  simp only [State.mailOp, ht]
  by_cases hneg : r < 0
  · have h : Related (s.leave r) { M with error := r, flag := s.queue.event } :=
      hs.write habs (by simp [State.leave, hneg, Queue.storeRet]) (Or.inl (by simp [State.leave, hneg]))
        (by simpa [State.leave, hneg] using habs) (Or.inr (by simp [State.leave, hneg]))
    -- the event is set in a step of its own
    rw [← hs.flag habs] at h
    simp only [hneg, ↓reduceIte, Mailbox.applyOption]
    exact h
  · simp only [hneg, ↓reduceIte, Mailbox.applyOption]
    exact hs.turn hpresent (by simp [State.leave, hneg]) (by simp [State.leave, hneg])
      (by simp [State.leave, hneg])

/-- Every step is an operation on the mailbox, or leaves it alone. -/
theorem steps_related (hs : Related s M) (h : Steps u s s' act) :
    (∀ op, s.mailOp act = some op → M.Allows op) ∧
      Related s' (M.applyOption (s.mailOp act)) := by
  have hop : act ≠ .beginRefresh → ∀ op, s.mailOp act = some op → M.Allows op := by
    intro hne op he
    have hat := mailOp_some he
    cases op with
    | take => exact absurd hat hne
    | renew | post | fail | store | raise | lower | consume | putBack => trivial
  -- one case for each step: what it does to the queue is known from its lemma, or it leaves the
  -- queue alone
  cases h with
  | newMonitor hm h => exact ⟨hop (by simp), newMonitor_related hs hm h⟩
  | @scanClass set c classes hm h =>
    refine ⟨hop (by simp), ?_⟩
    cases set with
    | none => exact freeMonitor_related hs (by rw [hm]; simp) (by rw [hm]; rfl) h
    | some set =>
      cases h
      exact hs.move (by rw [hm]; simp) (by rw [hm]; rfl) rfl rfl (by simp) rfl
  | readDevice hm h =>
    refine ⟨hop (by simp), ?_⟩
    obtain ⟨r, w, -, ⟨-, h⟩ | ⟨-, rfl⟩ | ⟨-, rfl⟩⟩ := readDevice_some h
    · have hs' : Related { s with world := w } M := hs.same rfl rfl rfl
      exact freeMonitor_related hs' (by rw [hm]; simp) (by rw [hm]; rfl) h
    · exact hs.move (by rw [hm]; simp) (by rw [hm]; rfl) rfl rfl (by simp) rfl
    · exact hs.move (by rw [hm]; simp) (by rw [hm]; rfl) rfl rfl (by simp) rfl
  | beginThread hm h =>
    subst h
    have habs : s.main ≠ .absent := by rcases hm with hm | hm <;> (rw [hm]; simp)
    have hr : s.main.inRefresh = false := by rcases hm with hm | hm <;> (rw [hm]; rfl)
    exact ⟨hop (by simp), beginThread_related hs habs hr⟩
  | @waitEvent ok hm h =>
    refine ⟨hop (by simp), ?_⟩
    unfold State.waitEvent at h
    split at h
    · split at h
      · cases h
        exact hs.move (by rw [hm]; simp) (by rw [hm]; rfl) rfl rfl (by simp) rfl
      · cases h
    · exact freeMonitor_related hs (by rw [hm]; simp) (by rw [hm]; rfl) h
  | checkRet hm h =>
    refine ⟨hop (by simp), ?_⟩
    unfold State.checkRet at h
    split at h
    · exact freeMonitor_related hs (by rw [hm]; simp) (by rw [hm]; rfl) h
    · cases h
      exact hs.move (by rw [hm]; simp) (by rw [hm]; rfl) rfl rfl (by simp) rfl
  | resetEvent hm h =>
    subst h
    have habs : s.main ≠ .absent := by rw [hm]; simp
    have h' : Related (s.resetEvent) { M with error := s.queue.ret, flag := false } :=
      hs.write habs rfl (Or.inr ⟨by rw [hm]; rfl, rfl⟩) (by simp [State.resetEvent]) (Or.inl rfl)
    rw [← hs.error habs] at h'
    exact ⟨hop (by simp), h'⟩
  | beginRefresh hm h =>
    obtain ⟨hallow, hs'⟩ := beginRefresh_related hs hm h
    refine ⟨fun op he => ?_, hs'⟩
    cases he
    exact hallow
  | processNotification hm h => exact ⟨hop (by simp), processNotification_related hs hm h⟩
  | endRefresh hm h => exact ⟨hop (by simp), endRefresh_related hs hm h⟩
  | freeMonitor hm h =>
    exact ⟨hop (by simp), freeMonitor_related hs (by rw [hm]; simp) (by rw [hm]; rfl) h⟩
  | joinThread hm hend h =>
    refine ⟨hop (by simp), ?_⟩
    obtain ⟨q, -, h⟩ := Option.bind_eq_some_iff.mp h
    cases h
    simp [Related]
  | register hm e h => subst h; exact ⟨hop (by simp), hs.same rfl rfl rfl⟩
  | deregister hm e h => subst h; exact ⟨hop (by simp), hs.same rfl rfl rfl⟩
  | list hm e h => subst h; exact ⟨hop (by simp), hs.same rfl rfl rfl⟩
  | enumerate hm e h => subst h; exact ⟨hop (by simp), hs.same rfl rfl rfl⟩
  | user hm e h => subst h; exact ⟨hop (by simp), hs.same rfl rfl rfl⟩
  | @setUp call ok ht h =>
    subst h
    obtain ⟨hwnd, thread, subscribed, he, hth, -⟩ := setUp_eq s call ok
    rw [he]
    refine ⟨hop (by simp), hs.turn (by rw [ht]; simp) rfl rfl fun a => ?_⟩
    rcases hth with ⟨_, rfl⟩ | rfl | ⟨r, -, rfl⟩ <;> simp
  | signalReady ht h =>
    subst h
    exact ⟨hop (by simp), hs.signal (by rw [ht]; simp) rfl rfl (by simp [State.signalReady])⟩
  | dispatch ht h => exact ⟨hop (by simp), dispatch_related hs ht h⟩
  | post ht h =>
    refine ⟨hop (by simp), ?_⟩
    obtain ⟨n, hn, hs'⟩ := post_related hs ht h
    simp only [State.mailOp, ht, hn, Option.map_some, Mailbox.applyOption]
    exact hs'
  | storeError ht h =>
    subst h
    have habs := hs.present (by rw [ht]; simp)
    refine ⟨hop (by simp), ?_⟩
    simp only [State.mailOp, ht, Mailbox.applyOption]
    exact hs.write habs rfl (Or.inl rfl) habs (Or.inr (by simp [State.storeError]))
  | getMessageFails ht h =>
    subst h
    exact ⟨hop (by simp), hs.turn (by rw [ht]; simp) rfl rfl (by simp [State.getMessageFails])⟩
  | quit ht h =>
    refine ⟨hop (by simp), ?_⟩
    unfold State.quit at h
    split at h
    · cases h
      exact hs.turn (by rw [ht]; simp) rfl rfl (by simp)
    · cases h
  | leave ht h =>
    subst h
    exact ⟨hop (by simp), leave_related hs ht⟩
  | signalError ht h =>
    subst h
    exact ⟨hop (by simp), hs.signal (by rw [ht]; simp) rfl rfl (by simp [State.signalError])⟩
  | arrive h =>
    obtain ⟨-, rfl⟩ := arrive_some h
    exact ⟨hop (by simp), hs.same rfl rfl rfl⟩
  | depart h =>
    obtain ⟨-, rfl⟩ := depart_some h
    exact ⟨hop (by simp), hs.same rfl rfl rfl⟩

/-! ## Whole runs -/

theorem related_start (tree : CStr → Option Node) (M : Mailbox DeviceNotification) :
    Related (.start tree) M := by
  simp [Related, State.start]

/-- The mailbox of a run, with what holds of it after each step. -/
theorem run_mailbox {tree : CStr → Option Node} {actions : List Action}
    (h : Run.run (step u) (.start tree) actions = some s) :
    ∃ M, Related s M ∧ M.Conserved := by
  refine Run.run_rule_always (I := fun s => ∃ M, Related s M ∧ M.Conserved) ?_
    ⟨.empty, related_start tree _, Mailbox.conserved_empty⟩ h
  rintro s act s' ⟨M, hs, hc⟩ e
  obtain ⟨hallow, hs'⟩ := steps_related hs (steps_of_step e)
  refine ⟨_, hs', ?_⟩
  cases hop : s.mailOp act with
  | none => exact hc
  | some op => exact hc.apply (hallow op hop)

/-- In every state of every run, the notifications that were consumed, those in the list of the
refresh, and those in the queue of the monitor are, in this order, the posted ones in their order. A
refresh that gives up puts the rest back in front of the newer ones, since its list is then empty. -/
theorem queue_conserved (u : User) (tree : CStr → Option Node) (actions : List Action) (s : State)
    (h : Run.run (step u) (.start tree) actions = some s) (hm : s.main ≠ .absent) :
    ∃ own shared : List Nat, ∃ taken waiting : List DeviceNotification,
      (if s.main.inRefresh then s.queue.Holds .own own taken else taken = []) ∧
      s.queue.Holds .shared shared waiting ∧
      s.queue.consumed ++ taken ++ waiting = s.queue.posted := by
  obtain ⟨M, hs, hc⟩ := run_mailbox h
  obtain ⟨own, shared, hrep⟩ := (related_iff hm).mp hs
  refine ⟨own, shared, M.taken, M.waiting, ?_, hrep.queue.waiting, ?_⟩
  · split
    · next hr => exact ⟨hrep.ring hr, hrep.queue.taken⟩
    · next hr =>
      have hown := (owns_iff (by simpa using hr)).mp hrep.main
      have ht := hrep.queue.taken
      rw [hown] at ht
      simpa using ht.symm
  · rw [← hrep.queue.consumed, ← hrep.queue.posted]
    exact hc

/-! ### A run -/

/-- `hs_monitor_new` on a system without devices, up to the wait for the background thread. -/
def createEmpty : List Action :=
  [.newMonitor ⟨true, true, true, none⟩, .scanClass (some []), .scanClass (some []),
    .beginThread true]

/-- The background thread makes its window and signals that it is ready. -/
def makeWindow : List Action :=
  [.setUp true, .setUp true, .setUp true, .setUp true, .signalReady]

/-- The end of `hs_monitor_new`. -/
def finishNew : List Action := [.waitEvent true, .checkRet, .resetEvent]

/-- A device that is plugged in, and the notification of it. -/
def plugIn (name : CStr) : List Action :=
  [.arrive name ⟨.usb, some 0⟩, .dispatch ⟨true, true⟩, .post]

/-- User code that does nothing. -/
def idleUser : User := .careful fun _ _ _ => ⟨[], 0⟩

/-- A refresh has taken one notification, and another one was posted. -/
theorem queue_conserved_twice : ∃ s, Run.run (step idleUser) (.start fun _ => none)
      (createEmpty ++ makeWindow ++ finishNew ++ plugIn (.lit "##?#USB#1") ++ [.beginRefresh] ++
        plugIn (.lit "##?#USB#2")) = some s ∧
      ∃ own shared : List Nat, ∃ taken waiting : List DeviceNotification,
        (if s.main.inRefresh then s.queue.Holds .own own taken else taken = []) ∧
        s.queue.Holds .shared shared waiting ∧
        s.queue.consumed ++ taken ++ waiting = s.queue.posted := by
  have hmain : (Run.run (step idleUser) (.start fun _ => none)
      (createEmpty ++ makeWindow ++ finishNew ++ plugIn (.lit "##?#USB#1") ++ [.beginRefresh] ++
        plugIn (.lit "##?#USB#2"))).map State.main =
      some (.refreshing (some (.note 0)) (some .own)) := by
    decide +kernel
  obtain ⟨s, e, hm⟩ := Option.map_eq_some_iff.mp hmain
  exact ⟨s, e, queue_conserved idleUser _ _ s e (by rw [hm]; simp)⟩

/-! ### No deadlock -/

/-- The critical sections never get stuck. -/
theorem criticalSections_total {tree : CStr → Option Node} {actions : List Action}
    (h : Run.run (step u) (.start tree) actions = some s) :
    (s.main = .idle → ∃ s', s.beginRefresh = some s') ∧
      (∀ r, s.main = .finishing r → ∃ s', s.endRefresh r = some s') ∧
      ∀ a, s.thread = .posting a → ∃ s', s.post a = some s' := by
  obtain ⟨M, hs, -⟩ := run_mailbox h
  refine ⟨fun hm => ?_, fun r hm => ?_, fun a ht => ?_⟩
  · obtain ⟨own, shared, hrep⟩ := (related_iff (by rw [hm]; simp)).mp hs
    have hown : own = [] := (owns_iff (by rw [hm]; rfl)).mp hrep.main
    subst hown
    obtain ⟨q, e, -, hring, -⟩ := take_represents hrep.queue
    by_cases hneg : M.error < 0
    · exact Option.isSome_iff_exists.mp (by simp [State.beginRefresh, e, hneg])
    · obtain ⟨k, hk⟩ := hring.load_first
      exact Option.isSome_iff_exists.mp (by simp [State.beginRefresh, e, hneg, hring.head, hk])
  · obtain ⟨own, shared, hrep⟩ := (related_iff (by rw [hm]; simp)).mp hs
    obtain ⟨q, e, -⟩ := putBack_represents hrep.queue (hrep.ring (by rw [hm]; rfl))
    exact Option.isSome_iff_exists.mp (by simp [State.endRefresh, e])
  · obtain ⟨own, shared, hrep⟩ := (related_iff (hs.present (by rw [ht]; simp))).mp hs
    have hown := hrep.thread
    rw [ht] at hown
    obtain ⟨ha, ⟨n, hn⟩, hl⟩ := hown
    obtain ⟨q, e, -⟩ := post_represents hrep.queue ha hn hl
    exact Option.isSome_iff_exists.mp (by simp [State.post, e])

end Libhs.Win32
