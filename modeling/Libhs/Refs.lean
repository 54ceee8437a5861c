import Libhs.Monitor

/-!
# Reference counts are conserved by device operations

`refsTo` counts who refers to a device: the device table, the user, the open
handles and the library calls in progress. `Counted` says that every counter
agrees with it, that a device with no reference does not exist, and that no
counter has wrapped. Everything a user does with devices keeps it
(`userActs_spec`), fails nowhere, and touches neither the monitor nor the table.
-/

namespace Libhs
open Pointer

/-- The number of references to `d`, when the devices of the list `linked` are in the table. -/
def Store.refsTo (st : Store) (linked : List Nat) (d : Nat) : Nat :=
  linked.count d + st.userRefs d + st.handles.countP (fun h => h.dev = d) + st.busy.count d

/-- Every existing device has `cnt d` references, and `cnt d` is a possible counter value. -/
structure CountedBy (devs : Heap HsDevice) (table : HTable Nat) (cnt : Nat → Nat) : Prop where
  live : ∀ d D, devs.get d = some D → D.refcount = cnt d ∧ 0 < cnt d ∧ cnt d < uintMod
  gone : ∀ d, devs.get d = none → cnt d = 0
  node : ∀ d, table.keyOf d = none ↔ devs.get d = none

/-- The open handles: their devices exist and belong to the POSIX drivers. -/
structure HandlesOk (st : Store) : Prop where
  ids : (st.handles.map HsHandle.id).Nodup
  next : ∀ h ∈ st.handles, h.id < st.nextHandle
  served : ∀ h ∈ st.handles, ∀ D, st.devs.get h.dev = some D →
    D.vtable = some .posix ∨ D.vtable = some .linuxHid

/-- The invariant of the reference counts. -/
structure Counted (st : Store) (linked : List Nat) : Prop where
  counts : CountedBy st.devs st.table (st.refsTo linked)
  handles : HandlesOk st

/-- `w'` is `w` after operations on the counters: devices may be gone, the others are what they
were but for their counter. -/
structure Untouched (w w' : World) : Prop where
  frame : w' = { w with
    devs := w'.devs
    table := w'.table
    userRefs := w'.userRefs
    handles := w'.handles
    nextHandle := w'.nextHandle }
  size : w'.table.size = w.table.size
  heads : w'.table.heads = w.table.heads
  brk : w'.devs.brk = w.devs.brk
  same : ∀ d D', w'.devs.get d = some D' →
    ∃ D n, w.devs.get d = some D ∧ D' = { D with refcount := n }
  nodes : ∀ d D', w'.devs.get d = some D' → w'.table.nodes d = w.table.nodes d

theorem Untouched.refl (w : World) : Untouched w w where
  frame := rfl
  size := rfl
  heads := rfl
  brk := rfl
  same _ D' h := ⟨D', D'.refcount, h, rfl⟩
  nodes _ _ _ := rfl

theorem Untouched.trans {w₁ w₂ w₃ : World} (h₁ : Untouched w₁ w₂) (h₂ : Untouched w₂ w₃) :
    Untouched w₁ w₃ where
  frame := by rw [h₂.frame, h₁.frame]
  size := h₂.size.trans h₁.size
  heads := h₂.heads.trans h₁.heads
  brk := h₂.brk.trans h₁.brk
  same d D'' h := by
    obtain ⟨D', n, h', rfl⟩ := h₂.same d D'' h
    obtain ⟨D, m, h'', rfl⟩ := h₁.same d D' h'
    exact ⟨D, n, h'', rfl⟩
  nodes d D'' h := by
    obtain ⟨D', n, h', -⟩ := h₂.same d D'' h
    exact (h₂.nodes d D'' h).trans (h₁.nodes d D' h')

/-! ## One counter -/

variable {w : World} {d : Nat} {D : HsDevice} {cnt cnt' : Nat → Nat} {linked : List Nat}

theorem CountedBy.exists_of_pos {devs : Heap HsDevice} {table : HTable Nat}
    (hc : CountedBy devs table cnt) (hd : 0 < cnt d) : ∃ D, devs.get d = some D := by
  rw [← Option.ne_none_iff_exists']
  intro hn
  rw [hc.gone d hn] at hd
  exact absurd hd (Nat.lt_irrefl 0)

theorem CountedBy.congr {devs : Heap HsDevice} {table : HTable Nat}
    (hc : CountedBy devs table cnt) (h : ∀ x, cnt' x = cnt x) : CountedBy devs table cnt' := by
  have : cnt' = cnt := funext h
  rwa [this]

/-- A new device, with one reference. -/
theorem CountedBy.alloc {devs : Heap HsDevice} {table : HTable Nat}
    (hc : CountedBy devs table cnt) (hD : D.refcount = 1) :
    CountedBy (devs.alloc D).2
      { table with nodes := Function.update table.nodes devs.brk (some ⟨none, 0⟩) }
      (Function.update cnt devs.brk (cnt devs.brk + 1)) := by
  have hzero : cnt devs.brk = 0 := hc.gone _ (Heap.get_brk devs)
  have hone : 1 < uintMod := by decide
  refine ⟨fun d X hX => ?_, fun d hX => ?_, fun d => ?_⟩
  · rw [Heap.get_alloc] at hX
    split at hX
    · next hd =>
      cases hX
      rw [hd, Function.update_self, hzero, hD]
      exact ⟨rfl, Nat.one_pos, hone⟩
    · next hd =>
      rw [Function.update_of_ne hd]
      exact hc.live d X hX
  · rw [Heap.get_alloc] at hX
    split at hX
    · cases hX
    · next hd =>
      rw [Function.update_of_ne hd]
      exact hc.gone d hX
  · rw [Heap.get_alloc]
    split
    · next hd =>
      rw [hd]
      simp [HTable.keyOf]
    · next hd =>
      simp only [HTable.keyOf, Function.update_of_ne hd]
      exact hc.node d

theorem refsTo_pos_of_linked {st : Store} (hd : d ∈ linked) : 0 < st.refsTo linked d := by
  have hcount := List.count_pos_iff.mpr hd
  unfold Store.refsTo
  omega

theorem refsTo_pos_of_handle {st : Store} {h : HsHandle} (hm : h ∈ st.handles) :
    0 < st.refsTo linked h.dev := by
  have hcount : 0 < st.handles.countP fun g => g.dev = h.dev :=
    List.countP_pos_iff.mpr ⟨h, hm, decide_eq_true rfl⟩
  unfold Store.refsTo
  omega

theorem refsTo_pos_of_busy {st : Store} (hd : d ∈ st.busy) : 0 < st.refsTo linked d := by
  have hcount := List.count_pos_iff.mpr hd
  unfold Store.refsTo
  omega

theorem setDev_some (w : World) (D' : HsDevice) (hd : w.devs.get d = some D) :
    ∃ devs', w.setDev d D' = some { w with devs := devs' } ∧ devs'.brk = w.devs.brk ∧
      ∀ x, devs'.get x = if x = d then some D' else w.devs.get x := by
  obtain ⟨devs', e, hb, hg⟩ := Heap.set_some D' hd
  exact ⟨devs', by simp [World.setDev, e], hb, hg⟩

theorem freeDev_some (w : World) (hd : w.devs.get d = some D) :
    ∃ devs', w.freeDev d = some { w with
        devs := devs'
        table := { w.table with nodes := Function.update w.table.nodes d none } } ∧
      devs'.brk = w.devs.brk ∧ ∀ x, devs'.get x = if x = d then none else w.devs.get x := by
  obtain ⟨devs', e, hb, hg⟩ := Heap.free_some hd
  exact ⟨devs', by simp [World.freeDev, e], hb, hg⟩

/-- Overwriting a device with a counter for its new number of references. -/
theorem CountedBy.write {devs' : Heap HsDevice} {D' : HsDevice}
    (hc : CountedBy w.devs w.table cnt) (hd : w.devs.get d = some D)
    (hg : ∀ x, devs'.get x = if x = d then some D' else w.devs.get x)
    (hn : D'.refcount = cnt' d) (hpos : 0 < cnt' d) (hlt : cnt' d < uintMod)
    (hother : ∀ x, x ≠ d → cnt' x = cnt x) : CountedBy devs' w.table cnt' := by
  refine ⟨fun x X hx => ?_, fun x hx => ?_, fun x => ?_⟩
  · rw [hg] at hx
    split at hx
    · next hxd => subst hxd; cases hx; exact ⟨hn, hpos, hlt⟩
    · next hxd => rw [hother x hxd]; exact hc.live x X hx
  · rw [hg] at hx
    split at hx
    · exact absurd hx (Option.some_ne_none _)
    · next hxd => rw [hother x hxd]; exact hc.gone x hx
  · rw [hc.node x, hg]
    split
    · next hxd => subst hxd; simp [hd]
    · rfl

theorem untouched_setDev {devs' : Heap HsDevice} {n : Nat} (hd : w.devs.get d = some D)
    (hb : devs'.brk = w.devs.brk)
    (hg : ∀ x, devs'.get x = if x = d then some { D with refcount := n } else w.devs.get x) :
    Untouched w { w with devs := devs' } := by
  refine ⟨rfl, rfl, rfl, hb, fun x X hx => ?_, fun _ _ _ => rfl⟩
  simp only [hg] at hx
  split at hx
  · next hxd => subst hxd; cases hx; exact ⟨D, n, hd, rfl⟩
  · exact ⟨X, X.refcount, hx, rfl⟩

/-- `hs_device_ref` takes one reference more. -/
theorem deviceRef_spec (hc : CountedBy w.devs w.table cnt) (hd : w.devs.get d = some D)
    (hb : D.refcount + 1 < uintMod) :
    ∃ devs', hsDeviceRef w d = some { w with devs := devs' } ∧
      Untouched w { w with devs := devs' } ∧ (∃ n, devs'.get d = some { D with refcount := n }) ∧
      CountedBy devs' w.table (Function.update cnt d (cnt d + 1)) := by
  obtain ⟨hr, hpos, hlt⟩ := hc.live d D hd
  have hmod : (D.refcount + 1) % uintMod = D.refcount + 1 := Nat.mod_eq_of_lt hb
  obtain ⟨devs', e, hbrk, hg⟩ := setDev_some w { D with refcount := D.refcount + 1 } hd
  refine ⟨devs', by simp [hsDeviceRef, hd, hmod, e], untouched_setDev hd hbrk hg, ?_, ?_⟩
  · exact ⟨_, by rw [hg, if_pos rfl]⟩
  · refine hc.write hd hg ?_ ?_ ?_ ?_
    · rw [Function.update_self, hr]
    · rw [Function.update_self]; omega
    · rw [Function.update_self, ← hr]; exact hb
    · intro x hx
      rw [Function.update_of_ne hx]

/-- `hs_device_unref` drops one reference, and frees the device with the last one. -/
theorem deviceUnref_spec (hc : CountedBy w.devs w.table cnt) (hd : 0 < cnt d) :
    ∃ w', hsDeviceUnref w (some d) = some w' ∧ Untouched w w' ∧
      w' = { w with devs := w'.devs, table := w'.table } ∧
      CountedBy w'.devs w'.table (Function.update cnt d (cnt d - 1)) := by
  obtain ⟨D, hD⟩ := hc.exists_of_pos hd
  obtain ⟨hr, -, hlt⟩ := hc.live d D hD
  -- the device goes with its last reference, and its node with it
  by_cases hone : D.refcount > 1
  · obtain ⟨devs', e, hbrk, hg⟩ := setDev_some w { D with refcount := D.refcount - 1 } hD
    refine ⟨_, by simp only [hsDeviceUnref, hD, Option.bind_eq_bind, Option.bind_some, hone,
      ↓reduceIte, e], untouched_setDev hD hbrk hg, rfl, ?_⟩
    refine hc.write hD hg ?_ ?_ ?_ ?_
    · rw [Function.update_self, hr]
    · rw [Function.update_self]; omega
    · rw [Function.update_self]; omega
    · intro x hx
      rw [Function.update_of_ne hx]
  · obtain ⟨devs', e, hbrk, hg⟩ := freeDev_some w hD
    have hzero : cnt d - 1 = 0 := by omega
    refine ⟨{ w with
        devs := devs'
        table := { w.table with nodes := Function.update w.table.nodes d none } },
      by simp only [hsDeviceUnref, hD, Option.bind_eq_bind, Option.bind_some, hone, ↓reduceIte, e],
      ⟨rfl, rfl, rfl, hbrk, fun x X hx => ?_, fun x X hx => ?_⟩,
      rfl, ⟨fun x X hx => ?_, fun x hx => ?_, fun x => ?_⟩⟩
    · simp only [hg] at hx
      split at hx
      · cases hx
      · exact ⟨X, X.refcount, hx, rfl⟩
    · simp only [hg] at hx
      split at hx
      · cases hx
      · next hxd => exact Function.update_of_ne hxd ..
    · simp only [hg] at hx
      split at hx
      · cases hx
      · next hxd => rw [Function.update_of_ne hxd]; exact hc.live x X hx
    · simp only [hg] at hx
      split at hx
      · next hxd => subst hxd; rw [Function.update_self, hzero]
      · next hxd => rw [Function.update_of_ne hxd]; exact hc.gone x hx
    · simp only [hg, HTable.keyOf]
      split
      · next hxd => subst hxd; simp
      · next hxd => rw [Function.update_of_ne hxd]; exact hc.node x

/-! ## Handles -/

/-- The handle with the id of `h` is `h` alone. -/
theorem countP_close {hs : List HsHandle} {h : HsHandle} (p : HsHandle → Bool)
    (hn : (hs.map HsHandle.id).Nodup) (hm : h ∈ hs) :
    hs.countP p = (hs.filter fun g => g.id ≠ h.id).countP p + if p h then 1 else 0 := by
  induction hs with
  | nil => exact absurd hm List.not_mem_nil
  | cons g hs ih =>
    simp only [List.map_cons, List.nodup_cons, List.mem_map, not_exists, not_and] at hn
    by_cases hg : g = h
    · subst hg
      have hrest : (hs.filter fun x => x.id ≠ g.id) = hs := by
        refine List.filter_eq_self.mpr fun x hx => ?_
        simpa using hn.1 x hx
      rw [List.countP_cons, List.filter_cons_of_neg (by simp), hrest]
    · have hm' : h ∈ hs := (List.mem_cons.mp hm).resolve_left (Ne.symm hg)
      have hid : g.id ≠ h.id := fun he => hn.1 h hm' he.symm
      rw [List.filter_cons_of_pos (by simpa using hid), List.countP_cons, List.countP_cons,
        ih hn.2 hm']
      omega

theorem find_handle {hs : List HsHandle} {h : HsHandle} (hn : (hs.map HsHandle.id).Nodup)
    (hm : h ∈ hs) : (hs.find? fun g => g.id = h.id) = some h := by
  induction hs with
  | nil => exact absurd hm List.not_mem_nil
  | cons g hs ih =>
    simp only [List.map_cons, List.nodup_cons, List.mem_map, not_exists, not_and] at hn
    by_cases hg : g = h
    · subst hg
      simp
    · have hm' : h ∈ hs := (List.mem_cons.mp hm).resolve_left (Ne.symm hg)
      have hid : g.id ≠ h.id := fun he => hn.1 h hm' he.symm
      rw [List.find?_cons_of_neg (by simpa using hid)]
      exact ih hn.2 hm'

/-- Closing handles keeps what the others rely on, as long as no device changes its driver. -/
theorem HandlesOk.mono {st st' : Store} (hh : HandlesOk st) (hsub : st'.handles.Sublist st.handles)
    (hnext : st'.nextHandle = st.nextHandle)
    (hsame : ∀ d D', st'.devs.get d = some D' →
      ∃ D, st.devs.get d = some D ∧ D'.vtable = D.vtable) : HandlesOk st' where
  ids := hh.ids.sublist (hsub.map _)
  next h hm := by
    rw [hnext]
    exact hh.next h (hsub.subset hm)
  served h hm D' hD' := by
    obtain ⟨D, hD, hv⟩ := hsame _ _ hD'
    rw [hv]
    exact hh.served h (hsub.subset hm) D hD

theorem Untouched.vtable {w' : World} (hu : Untouched w w') (d : Nat) (D' : HsDevice)
    (h : w'.devs.get d = some D') : ∃ D, w.devs.get d = some D ∧ D'.vtable = D.vtable := by
  obtain ⟨D, n, hD, rfl⟩ := hu.same d D' h
  exact ⟨D, hD, rfl⟩

/-- The device of an open handle has a reference. -/
theorem Counted.refsTo_pos {h : HsHandle} (hc : Counted w.toStore linked) (hm : h ∈ w.handles) :
    0 < w.toStore.refsTo linked h.dev := by
  have hcount := countP_close (fun g => g.dev = h.dev) hc.handles.ids hm
  simp only [decide_true, ↓reduceIte] at hcount
  simp only [Store.refsTo]
  omega

/-- Closing a handle drops its reference. -/
theorem closePosixDevice_spec {h : HsHandle} (hc : Counted w.toStore linked) (hm : h ∈ w.handles) :
    ∃ w', closePosixDevice w h = some w' ∧ Untouched w w' ∧ Counted w'.toStore linked ∧
      w'.userRefs = w.userRefs := by
  have hpos := hc.refsTo_pos hm
  obtain ⟨w₁, e, hu, hf, hcb⟩ := deviceUnref_spec hc.counts hpos
  refine ⟨w₁.freeHandle h, by simp [closePosixDevice, e], ?_, ⟨?_, ?_⟩, by rw [hf]; rfl⟩
  · refine ⟨?_, hu.size, hu.heads, hu.brk, hu.same, hu.nodes⟩
    rw [hf]
    rfl
  · refine hcb.congr fun x => ?_
    have hx := countP_close (fun g => g.dev = x) hc.handles.ids hm
    rw [hf]
    by_cases hxd : x = h.dev
    · subst hxd
      simp only [decide_true, ↓reduceIte] at hx
      simp only [Function.update_self, Store.refsTo, World.freeHandle]
      omega
    · have hne : ¬ h.dev = x := fun he => hxd he.symm
      simp only [decide_eq_true_eq, hne, ↓reduceIte, Nat.add_zero] at hx
      simp only [Function.update_of_ne hxd, Store.refsTo, World.freeHandle]
      omega
  · refine hc.handles.mono ?_ ?_ hu.vtable
    · rw [hf]
      exact List.filter_sublist
    · rw [hf]
      rfl

/-- `hs_handle_close` works on every open handle. -/
theorem handleClose_spec {h : HsHandle} (hc : Counted w.toStore linked) (hm : h ∈ w.handles) :
    ∃ w', hsHandleClose w (some h.id) = some w' ∧ Untouched w w' ∧ Counted w'.toStore linked ∧
      w'.userRefs = w.userRefs := by
  have hpos := hc.refsTo_pos hm
  obtain ⟨D, hD⟩ := hc.counts.exists_of_pos hpos
  obtain ⟨w', e, hw'⟩ := closePosixDevice_spec hc hm
  refine ⟨w', ?_, hw'⟩
  have hfind : (w.handles.find? fun g => g.id = h.id) = some h := find_handle hc.handles.ids hm
  rcases hc.handles.served h hm D hD with hv | hv
  · simp only [hsHandleClose, hfind, hD, hv, Option.bind_eq_bind, Option.bind_some, e]
  · simp only [hsHandleClose, hfind, hD, hv, Option.bind_eq_bind, Option.bind_some]
    exact e

/-- A new handle on `d`, before its file is opened. -/
theorem beginOpen_spec (hc : Counted w.toStore linked) (hd : w.devs.get d = some D)
    (hb : D.refcount + 1 < uintMod) (hv : D.vtable = some .posix ∨ D.vtable = some .linuxHid) :
    ∃ w₁, hsDeviceRef w d = some w₁ ∧ Untouched w (w₁.allocHandle d).2 ∧
      Counted (w₁.allocHandle d).2.toStore linked ∧
      (w₁.allocHandle d).2.userRefs = w.userRefs := by
  obtain ⟨devs', e, hu, ⟨n, hn⟩, hcb⟩ := deviceRef_spec hc.counts hd hb
  refine ⟨_, e, ⟨rfl, rfl, rfl, hu.brk, hu.same, hu.nodes⟩, ⟨?_, ?_, ?_, ?_⟩, rfl⟩
  · refine hcb.congr fun x => ?_
    by_cases hx : x = d
    · subst hx
      simp only [Function.update_self, Store.refsTo, World.allocHandle, List.countP_cons,
        decide_true, ↓reduceIte]
      omega
    · have hne : ¬ d = x := fun he => hx he.symm
      simp only [Function.update_of_ne hx, Store.refsTo, World.allocHandle, List.countP_cons,
        decide_eq_true_eq, hne, ↓reduceIte, Nat.add_zero]
  · refine List.nodup_cons.mpr ⟨fun hm => ?_, hc.handles.ids⟩
    obtain ⟨g, hg, hid⟩ := List.mem_map.mp hm
    exact absurd hid (Nat.ne_of_lt (hc.handles.next g hg))
  · intro g hg
    rcases List.mem_cons.mp hg with rfl | hg
    · exact Nat.lt_succ_self _
    · exact Nat.lt_succ_of_lt (hc.handles.next g hg)
  · intro g hg D' hD'
    rcases List.mem_cons.mp hg with rfl | hg
    · have hD' : devs'.get d = some D' := hD'
      rw [hn] at hD'
      cases hD'
      exact hv
    · obtain ⟨D₀, m, hD₀, rfl⟩ := hu.same _ _ hD'
      exact hc.handles.served g hg D₀ hD₀

/-- Writing to the fields of a handle, other than its device. -/
theorem setHandle_spec {h : HsHandle} (hc : Counted w.toStore linked)
    (hm : ∀ g ∈ w.handles, g.id = h.id → g.dev = h.dev) :
    Untouched w (w.setHandle h) ∧ Counted (w.setHandle h).toStore linked := by
  have hdev : ∀ g ∈ w.handles, (if g.id = h.id then h else g).dev = g.dev := by
    intro g hg
    split
    · next hid => exact (hm g hg hid).symm
    · rfl
  have hid : ∀ g, (if g.id = h.id then h else g).id = g.id := by
    intro g
    split
    · next hid => exact hid.symm
    · rfl
  refine ⟨⟨rfl, rfl, rfl, rfl, fun x X hx => ⟨X, X.refcount, hx, rfl⟩, fun _ _ _ => rfl⟩,
    ⟨?_, ?_, ?_, ?_⟩⟩
  · refine hc.counts.congr fun x => ?_
    have hcount : (w.setHandle h).handles.countP (fun g => g.dev = x) =
        w.handles.countP (fun g => g.dev = x) := by
      rw [World.setHandle, List.countP_map]
      refine List.countP_congr fun g hg => ?_
      simp only [Function.comp, hdev g hg]
    simp only [Store.refsTo, hcount]
    rfl
  · have hmap : (w.setHandle h).handles.map HsHandle.id = w.handles.map HsHandle.id := by
      rw [World.setHandle, List.map_map]
      exact List.map_congr_left fun g _ => hid g
    rw [hmap]
    exact hc.handles.ids
  · intro g hg
    obtain ⟨g₀, hg₀, rfl⟩ := List.mem_map.mp hg
    rw [hid]
    exact hc.handles.next g₀ hg₀
  · intro g hg D' hD'
    obtain ⟨g₀, hg₀, rfl⟩ := List.mem_map.mp hg
    rw [hdev g₀ hg₀] at hD'
    exact hc.handles.served g₀ hg₀ D' hD'

/-- What an operation on devices owes: it changes counters only, and they stay right. -/
def Settles (linked : List Nat) (w w' : World) : Prop :=
  Untouched w w' ∧ Counted w'.toStore linked ∧ w'.userRefs = w.userRefs

theorem Settles.trans {w₁ w₂ w₃ : World} (h₁ : Settles linked w₁ w₂) (h₂ : Settles linked w₂ w₃) :
    Settles linked w₁ w₃ :=
  ⟨h₁.1.trans h₂.1, h₂.2.1, h₂.2.2.trans h₁.2.2⟩

/-- Closing the handle that an open function just made. -/
theorem closeNew_spec {w₁ : World} (hs : Settles linked w (w₁.allocHandle d).2) :
    ∃ w', hsHandleClose (w₁.allocHandle d).2 (some (w₁.allocHandle d).1.id) = some w' ∧
      Settles linked w w' := by
  obtain ⟨w', e, hu, hc, hr⟩ := handleClose_spec hs.2.1 (h := (w₁.allocHandle d).1)
    List.mem_cons_self
  exact ⟨w', e, hs.trans ⟨hu, hc, hr⟩⟩

/-- Filling in the handle that an open function just made. -/
theorem setNew_spec {w₁ : World} (hs : Settles linked w (w₁.allocHandle d).2) (fd : Int)
    (hid : HidInfo) :
    Settles linked w
      ((w₁.allocHandle d).2.setHandle { (w₁.allocHandle d).1 with fd := fd, hid := hid }) := by
  have hm : ∀ g ∈ (w₁.allocHandle d).2.handles, g.id = (w₁.allocHandle d).1.id →
      g.dev = (w₁.allocHandle d).1.dev := by
    intro g hg he
    have := List.inj_on_of_nodup_map hs.2.1.handles.ids hg
      (show (w₁.allocHandle d).1 ∈ _ from List.mem_cons_self) he
    rw [this]
  obtain ⟨hu, hc⟩ := setHandle_spec
    (h := { (w₁.allocHandle d).1 with fd := fd, hid := hid }) hs.2.1 hm
  exact hs.trans ⟨hu, hc, rfl⟩

theorem openPosixDevice_spec (os : OpenOs) (hc : Counted w.toStore linked)
    (hd : w.devs.get d = some D) (hb : D.refcount + 1 < uintMod)
    (hv : D.vtable = some .posix ∨ D.vtable = some .linuxHid) :
    ∃ o w', openPosixDevice os w d = some (o, w') ∧ Settles linked w w' := by
  by_cases hcalloc : os.callocOk
  · obtain ⟨w₁, e, hs⟩ := beginOpen_spec hc hd hb hv
    simp only [openPosixDevice, hcalloc, ↓reduceIte, e, Option.bind_eq_bind, Option.bind_some]
    cases openRestart os.fd os.eintr with
    | error err =>
      obtain ⟨w', e', hs'⟩ := closeNew_spec hs
      exact ⟨⟨openError err, none⟩, w', by simp only [e', Option.bind_some], hs'⟩
    | ok fd => exact ⟨_, _, rfl, setNew_spec hs fd _⟩
  · exact ⟨⟨hsError .memory none, none⟩, w, by simp only [openPosixDevice, hcalloc, ↓reduceIte, Bool.false_eq_true],
      Untouched.refl w, hc, rfl⟩

theorem openHidrawDevice_spec (os : OpenOs) (hc : Counted w.toStore linked)
    (hd : w.devs.get d = some D) (hb : D.refcount + 1 < uintMod)
    (hv : D.vtable = some .posix ∨ D.vtable = some .linuxHid) :
    ∃ o w', openHidrawDevice os w d = some (o, w') ∧ Settles linked w w' := by
  by_cases hcalloc : os.callocOk
  · obtain ⟨w₁, e, hs⟩ := beginOpen_spec hc hd hb hv
    obtain ⟨w', e', hs'⟩ := closeNew_spec hs
    simp only [openHidrawDevice, hcalloc, ↓reduceIte, e, Option.bind_eq_bind, Option.bind_some, e']
    cases openRestart os.fd os.eintr with
    | error err => exact ⟨_, w', rfl, hs'⟩
    | ok fd =>
      cases os.descSizeOk with
      | false => exact ⟨_, w', rfl, hs'⟩
      | true =>
        cases os.desc with
        | none => exact ⟨_, w', rfl, hs'⟩
        | some report =>
          obtain ⟨hid, hp⟩ := parseDescriptor_some (w₁.allocHandle d).1.hid report
          exact ⟨_, _, by simp only [↓reduceIte, hp, Option.bind_some]; rfl, setNew_spec hs fd hid⟩
  · exact ⟨⟨hsError .memory none, none⟩, w, by simp only [openHidrawDevice, hcalloc, ↓reduceIte, Bool.false_eq_true],
      Untouched.refl w, hc, rfl⟩

/-- `hs_device_open`, whatever it returns. -/
theorem deviceOpen_spec (os : OpenOs) (hc : Counted w.toStore linked)
    (hd : w.devs.get d = some D) (hb : D.refcount + 1 < uintMod)
    (hv : D.vtable = some .posix ∨ D.vtable = some .linuxHid) :
    ∃ o w', hsDeviceOpen os w d = some (o, w') ∧ Settles linked w w' := by
  by_cases hon : D.state = .online
  · have hsome := openPosixDevice_spec os hc hd hb hv
    have hsome' := openHidrawDevice_spec os hc hd hb hv
    rcases hv with hv | hv
    · simpa only [hsDeviceOpen, hsDeviceOpenWith, hd, Option.bind_eq_bind, Option.bind_some, hon,
        ne_eq, not_true_eq_false, ↓reduceIte, hv, linuxDrivers] using hsome
    · simpa only [hsDeviceOpen, hsDeviceOpenWith, hd, Option.bind_eq_bind, Option.bind_some, hon,
        ne_eq, not_true_eq_false, ↓reduceIte, hv, linuxDrivers] using hsome'
  · exact ⟨⟨hsError .notFound (some "Device '%s' is not connected"), none⟩, w, by
      simp only [hsDeviceOpen, hsDeviceOpenWith, hd, Option.bind_eq_bind,
      Option.bind_some, hon, ne_eq, not_false_eq_true, ↓reduceIte], Untouched.refl w, hc, rfl⟩

/-! ## The user -/

/-- Nothing a user does with devices fails, and the counters stay right. -/
theorem userAct_spec {limit : Nat} (hlim : limit ≤ uintMod) (a : UserAct)
    (hc : Counted w.toStore linked) :
    ∃ w', userAct limit w a = some w' ∧ Untouched w w' ∧ Counted w'.toStore linked := by
  cases a with
  | ref d =>
    by_cases hm : mayRef limit w d = true
    · cases hd : w.devs.get d with
      | none => simp [mayRef, hd] at hm
      | some D =>
        simp only [mayRef, hd, decide_eq_true_eq] at hm
        obtain ⟨devs', e, hu, -, hcb⟩ := deviceRef_spec hc.counts hd (by omega)
        refine ⟨{ w with
            devs := devs'
            userRefs := Function.update w.userRefs d (w.userRefs d + 1) }, ?_, ?_, ?_, ?_⟩
        · simp [userAct, mayRef, hd, hm, e]
        · exact ⟨rfl, rfl, rfl, hu.brk, hu.same, hu.nodes⟩
        · refine hcb.congr fun x => ?_
          by_cases hx : x = d
          · subst hx
            simp only [Function.update_self, Store.refsTo]
            omega
          · simp only [Function.update_of_ne hx, Store.refsTo]
        · exact hc.handles.mono (List.Sublist.refl _) rfl hu.vtable
    · exact ⟨w, by simp [userAct, hm], Untouched.refl w, hc⟩
  | unref d =>
    by_cases hr : 0 < w.userRefs d
    · have hpos : 0 < w.toStore.refsTo linked d := by
        simp only [Store.refsTo]
        omega
      obtain ⟨w₁, e, hu, hf, hcb⟩ := deviceUnref_spec hc.counts hpos
      refine ⟨{ w₁ with userRefs := Function.update w₁.userRefs d (w₁.userRefs d - 1) },
        by simp [userAct, hr, e], ⟨?_, hu.size, hu.heads, hu.brk, hu.same, hu.nodes⟩, ?_, ?_⟩
      · rw [hf]
      · refine hcb.congr fun x => ?_
        rw [hf]
        by_cases hx : x = d
        · subst hx
          simp only [Function.update_self, Store.refsTo]
          omega
        · simp only [Function.update_of_ne hx, Store.refsTo]
      · refine hc.handles.mono ?_ ?_ hu.vtable
        · rw [hf]
        · rw [hf]
    · exact ⟨w, by simp [userAct, hr], Untouched.refl w, hc⟩
  | «open» d os =>
    by_cases hm : (mayRef limit w d && servedByPosix w d) = true
    · cases hd : w.devs.get d with
      | none => simp [mayRef, hd] at hm
      | some D =>
        have hm' := hm
        simp only [mayRef, servedByPosix, hd, Bool.and_eq_true, decide_eq_true_eq] at hm'
        obtain ⟨o, w', e, hu, hc', -⟩ := deviceOpen_spec os hc hd (by omega) hm'.2
        exact ⟨w', by simp [userAct, hm, e], hu, hc'⟩
    · exact ⟨w, by simp [userAct, hm], Untouched.refl w, hc⟩
  | close id =>
    by_cases hm : (w.handles.any fun g => g.id = id) = true
    · obtain ⟨h, hh, hid⟩ := List.any_eq_true.mp hm
      simp only [decide_eq_true_eq] at hid
      subst hid
      obtain ⟨w', e, hu, hc', -⟩ := handleClose_spec hc hh
      exact ⟨w', by simp [userAct, hm, e], hu, hc'⟩
    · exact ⟨w, by simp [userAct, hm], Untouched.refl w, hc⟩

theorem userActs_spec {limit : Nat} (hlim : limit ≤ uintMod) (acts : List UserAct)
    (hc : Counted w.toStore linked) :
    ∃ w', userActs limit w acts = some w' ∧ Untouched w w' ∧ Counted w'.toStore linked := by
  induction acts generalizing w with
  | nil => exact ⟨w, rfl, Untouched.refl w, hc⟩
  | cons a acts ih =>
    obtain ⟨w₁, e₁, hu₁, hc₁⟩ := userAct_spec hlim a hc
    obtain ⟨w', e, hu, hc'⟩ := ih hc₁
    exact ⟨w', by simp [userActs, e₁, e], hu₁.trans hu, hc'⟩

end Libhs
