import Libhs.Darwin.HidReports

/-!
# The report queue is a bounded FIFO

`Handle.Holds` is the representation invariant of the two lists of a handle: the
reports on them are allocated, distinct, counted by `allocatedReports`, and none is
longer than the array it is in. Each critical section keeps it, and does on the
queued bytes what a queue does. `reports_fifo` follows for every interleaving.
-/

namespace Libhs.Darwin
open Pointer

/-! ## The lists of a handle -/

/-- A report that is well formed for a handle with reports of up to `n` bytes. -/
def HidReport.Fits (report : HidReport) (n : Nat) : Prop :=
  report.data.length = n + 1 ∧ 0 < report.size ∧ report.size ≤ n + 1

/-- The queued reports `q` and the free reports `f` of a handle. -/
structure Handle.Holds (h : Handle) (q f : List Nat) : Prop where
  reports : DRing h.links .reports (q.map .report)
  freeReports : DRing h.links .freeReports (f.map .report)
  nodup : (q ++ f).Nodup
  fits : ∀ a ∈ q ++ f, ∃ report, h.records.get a = some report ∧ report.Fits h.size
  count : q.length + f.length = h.allocatedReports
  bound : h.allocatedReports ≤ 64

/-- The bytes of a report. -/
def bytesOf (records : Heap HidReport) (a : Nat) : List UInt8 :=
  match records.get a with
  | none => []
  | some report => report.data.take report.size

/-- What is queued, in order. -/
def Handle.waiting (h : Handle) (q : List Nat) : List (List UInt8) := q.map (bytesOf h.records)

/-- The bytes that are stored for a report: the ID, and as much data as a report of this device may
have. -/
def storedBytes (size : Nat) (report : UInt32 × List UInt8) : List UInt8 :=
  report.1.toUInt8 :: report.2.take size

variable {h h' : Handle} {q f : List Nat} {a : Nat}

theorem report_injective : Function.Injective ReportRef.report := fun _ _ h => by
  cases h
  rfl

theorem mem_reports {l : List Nat} : ReportRef.report a ∈ l.map ReportRef.report ↔ a ∈ l :=
  List.mem_map_of_injective report_injective

theorem Handle.Holds.disjoint (hh : h.Holds q f) (ha : a ∈ q) : a ∉ f := fun hf =>
  (List.nodup_append.mp hh.nodup).2.2 a ha a hf rfl

/-- `_hs_list_get_first`. -/
theorem firstReport_spec {list : ReportRef} {l : List Nat}
    (hr : DRing h.links list (l.map .report)) : firstReport h.links list = some l.head? := by
  unfold firstReport
  rw [listIsEmpty_spec hr]
  cases l with
  | nil => rfl
  | cons a l =>
    simp only [List.map_cons, List.isEmpty_cons, Option.bind_eq_bind, Option.bind_some,
      Bool.false_eq_true, ↓reduceIte, hr.head, firstOr_cons, List.head?_cons]

/-- The fields that working on the lists leaves alone. -/
structure Handle.SameRest (h h' : Handle) : Prop where
  hid : h'.hid = h.hid
  size : h'.size = h.size
  pipe : h'.pipe = h.pipe
  pipeSize : h'.pipeSize = h.pipeSize
  threadRet : h'.threadRet = h.threadRet

theorem Handle.SameRest.trans {h'' : Handle} (e : h.SameRest h') (e' : h'.SameRest h'') :
    h.SameRest h'' :=
  ⟨e'.hid.trans e.hid, e'.size.trans e.size, e'.pipe.trans e.pipe, e'.pipeSize.trans e.pipeSize,
    e'.threadRet.trans e.threadRet⟩

/-- The lists and the reports of `h` are those of `h'`. -/
theorem Handle.Holds.congr (hh : h.Holds q f) (hl : h'.links = h.links)
    (hr : h'.records = h.records) (ha : h'.allocatedReports = h.allocatedReports)
    (hs : h'.size = h.size) : h'.Holds q f where
  reports := hl ▸ hh.reports
  freeReports := hl ▸ hh.freeReports
  nodup := hh.nodup
  fits a hm := by
    rw [hr, hs]
    exact hh.fits a hm
  count := hh.count.trans ha.symm
  bound := ha ▸ hh.bound

/-! ## Arrival -/

/-- The report `a` is on neither list: it was taken off one, or is new. -/
structure Handle.Claimed (h : Handle) (q f : List Nat) (a : Nat) : Prop where
  reports : DRing h.links .reports (q.map .report)
  freeReports : DRing h.links .freeReports (f.map .report)
  nodup : (a :: (q ++ f)).Nodup
  fits : ∀ b ∈ q ++ f, ∃ report, h.records.get b = some report ∧ report.Fits h.size
  linked : h.links (.report a) ≠ none
  room : ∃ report, h.records.get a = some report ∧ report.data.length = h.size + 1
  count : q.length + f.length + 1 = h.allocatedReports
  bound : h.allocatedReports ≤ 64

/-- Taking the first free report. -/
theorem claimFree_spec (hh : h.Holds q (a :: f)) : ∃ links,
    hsListRemove h.links (.report a) = some links ∧
      Handle.Claimed { h with links := links } q f a := by
  have hfree : DRing h.links .freeReports ([] ++ ReportRef.report a :: f.map .report) :=
    hh.freeReports
  obtain ⟨links, e, hring, hnode, hframe⟩ := listRemove_spec hfree
  have hnd := List.nodup_middle.mp hh.nodup
  refine ⟨links, e, ?_, hring, hnd, ?_, ?_, ?_, ?_, hh.bound⟩
  · refine hh.reports.congr fun y hy => hframe y ?_
    rcases List.mem_cons.mp hy with rfl | hy
    · simp
    · obtain ⟨b, hb, rfl⟩ := List.mem_map.mp hy
      have hbf := hh.disjoint hb
      simpa [mem_reports] using hbf
  · intro b hb
    exact hh.fits b (List.mem_append.mpr
      ((List.mem_append.mp hb).imp id (List.mem_cons_of_mem a)))
  · show links (.report a) ≠ none
    rw [hnode]
    exact Option.some_ne_none _
  · obtain ⟨report, hr, hfit⟩ := hh.fits a (by simp)
    exact ⟨report, hr, hfit.1⟩
  · have := hh.count
    rw [List.length_cons] at this
    show q.length + f.length + 1 = h.allocatedReports
    omega

/-- Allocating a report, with no free one left. -/
theorem allocReport_spec (hh : h.Holds q []) (hlt : h.allocatedReports ≠ 64) :
    h.allocReport.2.Claimed q [] h.records.brk ∧
      ∀ b ∈ q, h.allocReport.2.records.get b = h.records.get b := by
  have hold : ∀ b ∈ q, b ≠ h.records.brk := by
    rintro b hb rfl
    obtain ⟨report, hr, -⟩ := hh.fits h.records.brk (by simpa using hb)
    rw [Heap.get_brk] at hr
    cases hr
  have hget : ∀ b, h.allocReport.2.records.get b =
      if b = h.records.brk then some ⟨0, List.replicate (h.size + 1) 0⟩ else h.records.get b :=
    fun b => Heap.get_alloc _ _ b
  have hlinks : ∀ y, y ≠ .report h.records.brk → h.allocReport.2.links y = h.links y :=
    fun y hy => Function.update_of_ne hy ..
  refine ⟨⟨?_, ?_, ?_, ?_, ?_, ?_, ?_, ?_⟩, fun b hb => by rw [hget, if_neg (hold b hb)]⟩
  · refine hh.reports.congr fun y hy => hlinks y ?_
    rcases List.mem_cons.mp hy with rfl | hy
    · exact ReportRef.noConfusion
    · obtain ⟨b, hb, rfl⟩ := List.mem_map.mp hy
      exact fun he => hold b hb (report_injective he)
  · refine hh.freeReports.congr fun y hy => hlinks y ?_
    obtain rfl := List.mem_singleton.mp hy
    exact ReportRef.noConfusion
  · rw [List.append_nil]
    have hnd := hh.nodup
    rw [List.append_nil] at hnd
    exact List.nodup_cons.mpr ⟨fun hm => hold _ hm rfl, hnd⟩
  · intro b hb
    rw [List.append_nil] at hb
    rw [hget, if_neg (hold b hb)]
    exact hh.fits b (by simpa using hb)
  · show Function.update h.links _ _ _ ≠ none
    rw [Function.update_self]
    exact Option.some_ne_none _
  · exact ⟨_, by rw [hget, if_pos rfl], List.length_replicate⟩
  · have hc := hh.count
    show q.length + 0 + 1 = h.allocatedReports + 1
    rw [← hc]
    rfl
  · have hb := hh.bound
    show h.allocatedReports + 1 ≤ 64
    omega

/-- What `claimReport` ends with. -/
inductive Claim (h : Handle) (q f : List Nat) (callocOk : Bool) :
    Except Int Nat → Handle → Prop
  | claimed {a : Nat} {f' : List Nat} {h' : Handle} : h'.Claimed q f' a → h.SameRest h' →
      (∀ b ∈ q, h'.records.get b = h.records.get b) → Claim h q f callocOk (.ok a) h'
  | full : f = [] → q.length = 64 → Claim h q f callocOk (.error 0) h
  | noMemory : f = [] → callocOk = false →
      Claim h q f callocOk (.error (hsError .memory none)) h

theorem claimReport_spec (hh : h.Holds q f) (callocOk : Bool) :
    ∃ r h', claimReport h callocOk = some (r, h') ∧ Claim h q f callocOk r h' := by
  unfold claimReport
  rw [firstReport_spec hh.freeReports]
  cases f with
  | cons a f =>
    obtain ⟨links, e, hclaimed⟩ := claimFree_spec hh
    refine ⟨.ok a, { h with links := links }, ?_, .claimed hclaimed ⟨rfl, rfl, rfl, rfl, rfl⟩
      fun _ _ => rfl⟩
    simp only [List.head?_cons, Option.bind_eq_bind, Option.bind_some, e]
  | nil =>
    simp only [List.head?_nil, Option.bind_eq_bind, Option.bind_some]
    by_cases hmax : h.allocatedReports = 64
    · have hc := hh.count
      refine ⟨.error 0, h, if_pos hmax, .full rfl ?_⟩
      rw [List.length_nil] at hc
      omega
    · rw [if_neg hmax]
      cases callocOk with
      | true =>
        obtain ⟨hclaimed, hkeep⟩ := allocReport_spec hh hmax
        exact ⟨.ok h.records.brk, h.allocReport.2, rfl,
          .claimed hclaimed ⟨rfl, rfl, rfl, rfl, rfl⟩ hkeep⟩
      | false => exact ⟨_, h, rfl, .noMemory rfl rfl⟩

/-- The claimed report is filled and goes to the end of the queue. -/
theorem queueReport_spec (hc : h.Claimed q f a) (id : UInt32) (data : List UInt8) :
    ∃ h', queueReport h a id data = some h' ∧ h'.Holds (q ++ [a]) f ∧ h.SameRest h' ∧
      h'.waiting (q ++ [a]) = h.waiting q ++ [storedBytes h.size (id, data)] := by
  obtain ⟨report, hget, hroom⟩ := hc.room
  obtain ⟨hnew, -⟩ := List.nodup_cons.mp hc.nodup
  have hq : a ∉ q := fun hm => hnew (List.mem_append_left f hm)
  have hf : a ∉ f := fun hm => hnew (List.mem_append_right q hm)
  have hlen : (storedBytes h.size (id, data)).length = (data.take h.size).length + 1 := rfl
  have hcut : (data.take h.size).length ≤ h.size := List.length_take_le ..
  have hfit : (storedBytes h.size (id, data)).length ≤ report.data.length := by omega
  have hcopy : memcpy report.data (storedBytes h.size (id, data)) =
      some (storedBytes h.size (id, data) ++ report.data.drop (storedBytes h.size (id, data)).length) :=
    if_pos hfit
  obtain ⟨records, eset, -, hrec⟩ := Heap.set_some
    ⟨(data.take h.size).length + 1,
      storedBytes h.size (id, data) ++ report.data.drop (storedBytes h.size (id, data)).length⟩ hget
  have hx : ReportRef.report a ∉ ReportRef.reports :: q.map ReportRef.report := by
    simpa [mem_reports] using hq
  -- the free list is apart from the node and from the queue, and stays as it is
  obtain ⟨links, elinks, hring, hframe⟩ := listAddTail_spec hc.reports hx hc.linked
  have hperm : (q ++ [a] ++ f).Perm (a :: (q ++ f)) := by
    rw [List.append_assoc]
    exact List.perm_middle
  refine ⟨{ h with records := records, links := links }, ?_, ?_, ⟨rfl, rfl, rfl, rfl, rfl⟩, ?_⟩
  · unfold queueReport
    simp only [hget, Option.bind_eq_bind, Option.bind_some]
    show (memcpy report.data (storedBytes h.size (id, data))).bind _ = _
    rw [hcopy, Option.bind_some, eset, Option.bind_some, elinks, Option.bind_some]
  · refine ⟨?_, ?_, hperm.nodup_iff.mpr hc.nodup, ?_, ?_, hc.bound⟩
    · rw [List.map_append]
      exact hring
    · refine hc.freeReports.congr fun y hy => hframe y ?_ ?_
      · rcases List.mem_cons.mp hy with rfl | hy
        · simp
        · obtain ⟨b, hb, rfl⟩ := List.mem_map.mp hy
          have hbq : b ∉ q := fun hm =>
            (List.nodup_append.mp (List.nodup_cons.mp hc.nodup).2).2.2 b hm b hb rfl
          simpa [mem_reports] using hbq
      · rcases List.mem_cons.mp hy with rfl | hy
        · exact ReportRef.noConfusion
        · obtain ⟨b, hb, rfl⟩ := List.mem_map.mp hy
          exact fun he => hf (report_injective he ▸ hb)
    · intro b hb
      show ∃ report, records.get b = some report ∧ report.Fits h.size
      rw [hrec]
      -- only the claimed report has new contents
      split
      · refine ⟨_, rfl, ?_, Nat.succ_pos _, by show (data.take h.size).length + 1 ≤ _; omega⟩
        show (storedBytes h.size (id, data) ++ _).length = h.size + 1
        rw [List.length_append, List.length_drop]
        omega
      · next hne =>
        refine hc.fits b ?_
        exact List.mem_of_ne_of_mem hne (hperm.mem_iff.mp hb)
    · show (q ++ [a]).length + f.length = h.allocatedReports
      rw [List.length_append, List.length_singleton, ← hc.count]
      omega
  · show (q ++ [a]).map (bytesOf records) = _
    rw [List.map_append]
    congr 1
    · refine List.map_congr_left fun b hb => ?_
      have hne : b ≠ a := fun he => hq (he ▸ hb)
      simp only [bytesOf, hrec, hne, ↓reduceIte]
    · have htake : (storedBytes h.size (id, data) ++
          report.data.drop (storedBytes h.size (id, data)).length).take
            ((data.take h.size).length + 1) = storedBytes h.size (id, data) :=
        List.take_left' hlen
      simp only [List.map_cons, List.map_nil, bytesOf, hrec, ↓reduceIte, htake]

/-- What the critical section of `hid_report_callback` does to the queue. -/
inductive Reported (h : Handle) (q f : List Nat) (id : UInt32) (data : List UInt8)
    (callocOk : Bool) : ReportType → Bool → Except Int Nat → Handle → Prop
  | ignored {type : ReportType} : type ≠ .input → h.Holds q f →
      Reported h q f id data callocOk type false (.error 0) h
  | accepted {a : Nat} {f' : List Nat} {h' : Handle} : h'.Holds (q ++ [a]) f' → h.SameRest h' →
      h'.waiting (q ++ [a]) = h.waiting q ++ [storedBytes h.size (id, data)] →
      Reported h q f id data callocOk .input q.isEmpty (.ok a) h'
  | full : h.Holds q f → q.length = 64 →
      Reported h q f id data callocOk .input false (.error 0) h
  | noMemory : h.Holds q f → callocOk = false →
      Reported h q f id data callocOk .input q.isEmpty (.error (hsError .memory none))
        { h with threadRet := hsError .memory none }

theorem hidReportCallback_spec (hh : h.Holds q f) (type : ReportType) (id : UInt32)
    (data : List UInt8) (callocOk : Bool) :
    ∃ fire report h', hidReportCallback h type id data callocOk = some ((fire, report), h') ∧
      Reported h q f id data callocOk type fire report h' := by
  unfold hidReportCallback
  by_cases htype : type = .input
  · subst htype
    have hempty : hsListIsEmpty h.links .reports = some q.isEmpty := by
      rw [listIsEmpty_spec hh.reports, List.isEmpty_map]
    obtain ⟨r, h₁, eclaim, hclaim⟩ := claimReport_spec hh callocOk
    simp only [ne_eq, not_true_eq_false, ↓reduceIte, hempty, eclaim, Option.bind_eq_bind,
      Option.bind_some]
    cases hclaim with
    | @claimed a f' _ hc hsame hkeep =>
      obtain ⟨h', equeue, hholds, hsame', hwait⟩ := queueReport_spec hc id data
      have hbytes : h₁.waiting q = h.waiting q :=
        List.map_congr_left fun b hb => by simp only [bytesOf, hkeep b hb]
      refine ⟨q.isEmpty, .ok a, h', ?_, .accepted hholds (hsame.trans hsame') ?_⟩
      · simp only [equeue, Option.bind_some]
      · rw [hwait, hbytes, hsame.size]
    | full hf hlen =>
      have hne : q.isEmpty = false := by
        cases q with
        | nil => cases hlen
        | cons a q => rfl
      exact ⟨_, _, _, rfl, hne ▸ .full hh hlen⟩
    | noMemory hf hno => exact ⟨_, _, _, rfl, .noMemory hh hno⟩
  · exact ⟨false, .error 0, h, if_pos htype, .ignored htype hh⟩

/-! ## Reading -/

/-- `resetIfEmpty` drains the pipe when nothing is queued. -/
def Handle.drainedIf (h : Handle) (empty : Bool) : Handle :=
  if empty then resetDeviceEvent h else h

theorem resetIfEmpty_spec (hr : DRing h.links .reports (q.map .report)) :
    resetIfEmpty h = some (h.drainedIf q.isEmpty) := by
  unfold resetIfEmpty Handle.drainedIf
  rw [listIsEmpty_spec hr, List.isEmpty_map]
  cases q <;> rfl

theorem Handle.Holds.drainedIf (hh : h.Holds q f) (empty : Bool) :
    (h.drainedIf empty).Holds q f := by
  cases empty
  · exact hh
  · exact hh.congr rfl rfl rfl rfl

/-- The first report goes from the queue to the free reports. -/
theorem recycle_spec (hh : h.Holds (a :: q) f) : ∃ links₁ links₂,
    hsListRemove h.links (.report a) = some links₁ ∧
      hsListAdd links₁ .freeReports (.report a) = some links₂ ∧
      Handle.Holds { h with links := links₂ } q (a :: f) := by
  have hq : DRing h.links .reports ([] ++ ReportRef.report a :: q.map .report) := hh.reports
  obtain ⟨links₁, e₁, hring₁, hnode, hframe₁⟩ := listRemove_spec hq
  have hnd : (a :: (q ++ f)).Nodup := hh.nodup
  obtain ⟨hnew, hnd'⟩ := List.nodup_cons.mp hnd
  have haq : a ∉ q := fun hm => hnew (List.mem_append_left f hm)
  have haf : a ∉ f := fun hm => hnew (List.mem_append_right q hm)
  have hfree₁ : DRing links₁ .freeReports (f.map .report) := by
    refine hh.freeReports.congr fun y hy => hframe₁ y ?_
    rcases List.mem_cons.mp hy with rfl | hy
    · simp
    · obtain ⟨b, hb, rfl⟩ := List.mem_map.mp hy
      have hbq : b ∉ a :: q := fun hm =>
        (List.nodup_append.mp hh.nodup).2.2 b hm b hb rfl
      simpa [mem_reports] using hbq
  have hx : ReportRef.report a ∉ ReportRef.freeReports :: f.map ReportRef.report := by
    simpa [mem_reports] using haf
  obtain ⟨links₂, e₂, hring₂, hframe₂⟩ := listAdd_spec hfree₁ hx (by
    rw [hnode]
    exact Option.some_ne_none _)
  have hperm : (q ++ a :: f).Perm (a :: (q ++ f)) := List.perm_middle
  refine ⟨links₁, links₂, e₁, e₂, ?_, hring₂, hperm.nodup_iff.mpr hnd, ?_, ?_, hh.bound⟩
  · refine hring₁.congr fun y hy => hframe₂ y ?_ ?_
    · rcases List.mem_cons.mp hy with rfl | hy
      · simp
      · obtain ⟨b, hb, rfl⟩ := List.mem_map.mp hy
        have hbf : b ∉ f := fun hm => (List.nodup_append.mp hnd').2.2 b hb b hm rfl
        simpa [mem_reports] using hbf
    · rcases List.mem_cons.mp hy with rfl | hy
      · exact ReportRef.noConfusion
      · obtain ⟨b, hb, rfl⟩ := List.mem_map.mp hy
        exact fun he => haq (report_injective he ▸ hb)
  · intro b hb
    exact hh.fits b (hperm.mem_iff.mp hb)
  · have hc := hh.count
    rw [List.length_cons] at hc
    show q.length + (f.length + 1) = h.allocatedReports
    omega

/-- What the critical section of `hs_hid_read` does to the queue. -/
inductive HasRead (h : Handle) (size : Nat) : List Nat → List Nat → ReadResult → Handle →
    List Nat → List Nat → Prop
  | error {q f : List Nat} : h.threadRet < 0 →
      HasRead h size q f ⟨h.threadRet, []⟩ (Handle.drainedIf { h with threadRet := 0 } q.isEmpty) q f
  | nothing {f : List Nat} : ¬ h.threadRet < 0 → HasRead h size [] f ⟨0, []⟩ h [] f
  | report {a : Nat} {q f : List Nat} {links : Links ReportRef} : ¬ h.threadRet < 0 →
      (bytesOf h.records a).length ≤ h.size + 1 → 0 < (bytesOf h.records a).length →
      HasRead h size (a :: q) f
        ⟨(min size (bytesOf h.records a).length : Nat),
          (bytesOf h.records a).take (min size (bytesOf h.records a).length)⟩
        (Handle.drainedIf { h with links := links } q.isEmpty) q (a :: f)

theorem hsHidReadLocked_spec (hh : h.Holds q f) (size : Nat) : ∃ result h' q' f',
    hsHidReadLocked h size = some (result, h') ∧ h'.Holds q' f' ∧
      HasRead h size q f result h' q' f' := by
  unfold hsHidReadLocked
  by_cases hneg : h.threadRet < 0
  · have hh₀ : Handle.Holds { h with threadRet := 0 } q f := hh.congr rfl rfl rfl rfl
    refine ⟨_, _, q, f, ?_, hh₀.drainedIf q.isEmpty, .error hneg⟩
    simp only [hneg, ↓reduceIte, resetIfEmpty_spec hh₀.reports, Option.bind_eq_bind,
      Option.bind_some]
  · cases q with
    | nil =>
      refine ⟨_, h, [], f, ?_, hh, .nothing hneg⟩
      simp only [hneg, ↓reduceIte, firstReport_spec hh.reports, List.head?_nil,
        Option.bind_eq_bind, Option.bind_some]
    | cons a q =>
      obtain ⟨links₁, links₂, e₁, e₂, hholds⟩ := recycle_spec hh
      obtain ⟨report, hget, hdata, hpos, hle⟩ := hh.fits a (by simp)
      have hlen : (report.data.take report.size).length = report.size := by
        rw [List.length_take]
        omega
      have hbytes : bytesOf h.records a = report.data.take report.size := by
        simp only [bytesOf, hget]
      have hsize : (if size > report.size then report.size else size) = min size report.size := by
        rw [Nat.min_def]
        split_ifs <;> omega
      refine ⟨_, _, q, a :: f, ?_, hholds.drainedIf q.isEmpty, HasRead.report hneg
        (by rw [hbytes, hlen]; exact hle) (by rw [hbytes, hlen]; exact hpos)⟩
      simp only [hneg, ↓reduceIte, firstReport_spec hh.reports, List.head?_cons, hget, e₁, e₂,
        resetIfEmpty_spec hholds.reports, Option.bind_eq_bind, Option.bind_some, hbytes, hlen,
        hsize, List.take_take, Nat.min_assoc, Nat.min_self]

/-! ## The system -/

/-- What was returned for the stored bytes of a report: as much as was asked for. -/
def ReturnedAs (ret : Nat × List UInt8) (stored : List UInt8) : Prop :=
  ret.2 = stored.take (min ret.1 stored.length)

/-- The invariant: `q` is queued, and the accepted reports are those that were returned, followed by
`q`. -/
structure State.Queues (size : Nat) (s : State) (q f : List Nat) (taken : List (List UInt8)) :
    Prop where
  holds : s.handle.Holds q f
  sized : s.handle.size = size
  fifo : s.accepted.map (storedBytes size) = taken ++ s.handle.waiting q
  returned : List.Forall₂ ReturnedAs s.returned taken

variable {s s' : State} {act : Action} {size pipeSize : Nat} {taken : List (List UInt8)}

theorem noReports_ring : DRing noReports .reports ([].map ReportRef.report) ∧
    DRing noReports .freeReports ([].map ReportRef.report) :=
  ⟨dring_nil_iff.mpr rfl, dring_nil_iff.mpr rfl⟩

theorem start_queues : (State.start size pipeSize).Queues size [] [] [] where
  holds := ⟨noReports_ring.1, noReports_ring.2, List.nodup_nil, nofun, rfl, Nat.zero_le _⟩
  sized := rfl
  fifo := rfl
  returned := .nil

/-- The queue does not depend on the fields that no list operation touches. -/
theorem State.Queues.congr (hs : s.Queues size q f taken) (hl : s'.handle.links = s.handle.links)
    (hr : s'.handle.records = s.handle.records)
    (hn : s'.handle.allocatedReports = s.handle.allocatedReports)
    (hz : s'.handle.size = s.handle.size) (ha : s'.accepted = s.accepted)
    (hret : s'.returned = s.returned) : s'.Queues size q f taken where
  holds := hs.holds.congr hl hr hn hz
  sized := hz.trans hs.sized
  fifo := by
    rw [ha, hs.fifo, Handle.waiting, Handle.waiting, hr]
  returned := hret ▸ hs.returned

theorem Handle.drainedIf_same (h : Handle) (empty : Bool) :
    (h.drainedIf empty).links = h.links ∧ (h.drainedIf empty).records = h.records ∧
      (h.drainedIf empty).allocatedReports = h.allocatedReports ∧
      (h.drainedIf empty).size = h.size := by
  cases empty <;> exact ⟨rfl, rfl, rfl, rfl⟩

/-- A report that arrives. -/
theorem report_step (hs : s.Queues size q f taken) {type : ReportType} {id : UInt32}
    {data : List UInt8} {callocOk : Bool} (h : step s (.report type id data callocOk) = some s') :
    s.firing = false ∧ ∃ fire report h',
      Reported s.handle q f id data callocOk type fire report h' ∧
      s' = { s with
        handle := h'
        firing := fire
        accepted := s.accepted ++ match report with | .ok _ => [(id, data)] | .error _ => [] } := by
  obtain ⟨fire, report, h', e, hrep⟩ := hidReportCallback_spec hs.holds type id data callocOk
  simp only [step] at h
  cases hf : s.firing with
  | true => simp [hf] at h
  | false =>
    simp only [hf, Bool.false_eq_true, ↓reduceIte, e, Option.bind_eq_bind, Option.bind_some] at h
    refine ⟨rfl, fire, report, h', hrep, ?_⟩
    cases report with
    | ok a =>
      cases h
      rfl
    | error r =>
      cases h
      simp only [List.append_nil]

theorem report_queues (hs : s.Queues size q f taken) {type : ReportType} {id : UInt32}
    {data : List UInt8} {callocOk : Bool} (h : step s (.report type id data callocOk) = some s') :
    ∃ q' f', s'.Queues size q' f' taken := by
  obtain ⟨-, fire, report, h', hrep, rfl⟩ := report_step hs h
  cases hrep with
  | ignored _ hh => exact ⟨q, f, hs.congr rfl rfl rfl rfl (List.append_nil _) rfl⟩
  | @accepted a f' _ hh hsame hwait =>
    refine ⟨q ++ [a], f', hh, hsame.size.trans hs.sized, ?_, hs.returned⟩
    show (s.accepted ++ [(id, data)]).map _ = taken ++ h'.waiting (q ++ [a])
    rw [List.map_append, hs.fifo, hwait, hs.sized, List.append_assoc]
    rfl
  | full hh _ => exact ⟨q, f, hs.congr rfl rfl rfl rfl (List.append_nil _) rfl⟩
  | noMemory hh _ => exact ⟨q, f, hs.congr rfl rfl rfl rfl (List.append_nil _) rfl⟩

/-- A call of `hs_hid_read`: it stops before the critical section, or it goes through. -/
theorem read_step (hs : s.Queues size q f taken) {n : Nat} {timeout : Int} {poll : Poll}
    (h : step s (.read n timeout poll) = some s') :
    0 < n ∧ ((reachesLock s.handle timeout poll = false ∧ s' = s) ∨
      (reachesLock s.handle timeout poll = true ∧ ∃ result h' q' f', h'.Holds q' f' ∧
        HasRead s.handle n q f result h' q' f' ∧
        s' = { s with
          handle := h'
          returned := s.returned ++ if result.r > 0 then [(n, result.buf)] else [] })) := by
  simp only [step] at h
  split at h
  case isFalse => cases h
  next hgo =>
    obtain ⟨-, hn⟩ := Bool.and_eq_true_iff.mp hgo
    refine ⟨of_decide_eq_true hn, ?_⟩
    unfold hsHidRead at h
    cases hlock : reachesLock s.handle timeout poll with
    | true =>
      obtain ⟨result, h', q', f', e, hholds, hread⟩ := hsHidReadLocked_spec hs.holds n
      refine Or.inr ⟨rfl, result, h', q', f', hholds, hread, ?_⟩
      simp only [hlock, ↓reduceIte, e, Option.bind_eq_bind, Option.bind_some] at h
      split at h
      · next hr =>
        cases h
        simp only [hr, ↓reduceIte]
      · next hr =>
        cases h
        simp only [hr, ↓reduceIte, List.append_nil]
    | false =>
      refine Or.inl ⟨rfl, ?_⟩
      have hio := Int.not_lt.mpr (Int.le_of_lt (hsError_neg .io (some "Device '%s' was removed")))
      have hsys := Int.not_lt.mpr (Int.le_of_lt (hsError_neg .system (some "poll('%s') failed: %s")))
      simp only [hlock, Bool.false_eq_true, ↓reduceIte] at h
      split_ifs at h
      · simp only [Option.bind_eq_bind, Option.bind_some, gt_iff_lt, hio, ↓reduceIte] at h
        cases h
        rfl
      · simp only [Option.bind_eq_bind, Option.bind_some, gt_iff_lt, hsys, ↓reduceIte] at h
        cases h
        rfl
      · cases h
        rfl

theorem read_queues (hs : s.Queues size q f taken) {n : Nat} {timeout : Int} {poll : Poll}
    (h : step s (.read n timeout poll) = some s') :
    ∃ q' f' taken', s'.Queues size q' f' taken' := by
  obtain ⟨hn, ⟨-, rfl⟩ | ⟨-, result, h', q', f', hholds, hread, rfl⟩⟩ := read_step hs h
  · exact ⟨q, f, taken, hs⟩
  · cases hread with
    | error hneg =>
      obtain ⟨hl, hr, ha, hz⟩ := Handle.drainedIf_same { s.handle with threadRet := 0 } q.isEmpty
      have hno : ¬ s.handle.threadRet > 0 := by omega
      exact ⟨q, f, taken, hs.congr hl hr ha hz rfl (by simp only [hno, ↓reduceIte, List.append_nil])⟩
    | nothing hnn =>
      exact ⟨[], f, taken, hs.congr rfl rfl rfl rfl rfl (List.append_nil _)⟩
    | @report a _ _ links hnn hle hpos =>
      obtain ⟨hl, hr, ha, hz⟩ := Handle.drainedIf_same { s.handle with links := links } q'.isEmpty
      have hsome : ((min n (bytesOf s.handle.records a).length : Nat) : Int) > 0 := by omega
      refine ⟨q', a :: f, taken ++ [bytesOf s.handle.records a], hholds, hz.trans hs.sized, ?_, ?_⟩
      · show s.accepted.map _ = _ ++ q'.map (bytesOf (Handle.drainedIf _ _).records)
        rw [hr, hs.fifo, List.append_assoc]
        rfl
      · show List.Forall₂ ReturnedAs (s.returned ++ _) _
        rw [if_pos hsome]
        exact List.rel_append hs.returned (.cons rfl .nil)

theorem step_queues (hs : s.Queues size q f taken) (h : step s act = some s') :
    ∃ q' f' taken', s'.Queues size q' f' taken' := by
  cases act with
  | opened =>
    simp only [step] at h
    split at h
    · cases h
      exact ⟨q, f, taken, hs.congr rfl rfl rfl rfl rfl rfl⟩
    · cases h
  | report type id data callocOk =>
    obtain ⟨q', f', hs'⟩ := report_queues hs h
    exact ⟨q', f', taken, hs'⟩
  | removal =>
    simp only [step] at h
    split at h
    · cases h
    · cases h
      exact ⟨q, f, taken, hs.congr rfl rfl rfl rfl rfl rfl⟩
  | fire =>
    simp only [step, fireDeviceEvent] at h
    split at h
    · cases h
      refine ⟨q, f, taken, ?_⟩
      split
      · exact hs.congr rfl rfl rfl rfl rfl rfl
      · exact hs.congr rfl rfl rfl rfl rfl rfl
    · cases h
  | read n timeout poll => exact read_queues hs h

theorem run_queues {actions : List Action}
    (h : Run.run step (State.start size pipeSize) actions = some s) :
    ∃ q f taken, s.Queues size q f taken := by
  refine Run.run_rule_always (I := fun s => ∃ q f taken, s.Queues size q f taken) ?_
    ⟨[], [], [], start_queues⟩ h
  rintro s act s' ⟨q, f, taken, hs⟩ h
  exact step_queues hs h

/-- No step touches memory that is not there: the critical sections can always be run. -/
theorem steps_total {actions : List Action}
    (h : Run.run step (State.start size pipeSize) actions = some s) :
    (∀ type id data callocOk, s.firing = false →
      (step s (.report type id data callocOk)).isSome = true) ∧
    ∀ n timeout poll, s.opened = true → 0 < n → (step s (.read n timeout poll)).isSome = true := by
  obtain ⟨q, f, taken, hs⟩ := run_queues h
  constructor
  · intro type id data callocOk hf
    obtain ⟨fire, report, h', e, -⟩ := hidReportCallback_spec hs.holds type id data callocOk
    simp only [step, hf, Bool.false_eq_true, ↓reduceIte, e, Option.bind_eq_bind, Option.bind_some]
    cases report <;> rfl
  · intro n timeout poll ho hn
    obtain ⟨result, h', q', f', e, -⟩ := hsHidReadLocked_spec hs.holds n
    simp only [step, ho, hn, decide_true, Bool.and_self, ↓reduceIte, hsHidRead, e]
    split_ifs <;> simp only [Option.bind_eq_bind, Option.bind_some] <;> split_ifs <;> rfl

/-- Two reports, the second one longer than the device should send, and a read with a short
buffer. -/
def twoReports : List Action :=
  [.opened, .report .input 1 [10, 11] true, .fire, .report .input 2 [20, 21, 22] true,
    .read 2 (-1) .ready]

example : (Run.run step (State.start 2 16) twoReports).map State.returned = some [(2, [1, 10])] := by
  decide +kernel

end Libhs.Darwin
