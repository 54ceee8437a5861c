import Libhs.Refs
import Libhs.Lib.Run

/-!
# Opening and closing, and the counter of the device

`OpenAtomic` is what an open function owes: 0, a handle and one reference more, or an
error and nothing changed. `recount` is the device objects with another number of
references to one of them.

`Handles` is the state of a back-end whose handles live in a heap of their own, and
`openHandle` the way its open functions go. The rest of the program works on devices
in between (`World.elsewhere`); each counter is the number of references
(`Handles.Counted`).
-/

namespace Libhs
open Pointer

/-- The counter of a device object, 0 when it does not exist. -/
def World.refs (w : World) (d : Nat) : Nat := (w.devs.get d).elim 0 HsDevice.refcount

/-- The device objects with `n` references to `d`, which does not exist without any. -/
def recount (devs : Nat → Option HsDevice) (d n : Nat) : Nat → Option HsDevice :=
  Function.update devs d (if n = 0 then none else (devs d).map fun D => { D with refcount := n })

/-- What `hs_device_open` on `d` returns, and does to the device objects. `P` holds of the
handles of `d` afterwards. -/
def OpenAtomic (w w' : World) (P : Nat → Prop) (d : Nat) (o : Opened) : Prop :=
  (o.r = 0 ∧ (∃ id, o.rh = some id ∧ P id) ∧
      w'.devs.get = recount w.devs.get d (w.refs d + 1)) ∨
    (o.r < 0 ∧ o.rh = none ∧ w'.devs.get = w.devs.get)

/-- One reference to `d` less. -/
def Lowered (w w' : World) (d : Nat) : Prop :=
  0 < w.refs d ∧ w'.devs.get = recount w.devs.get d (w.refs d - 1)

variable {w w' : World} {d : Nat} {D : HsDevice} {P : Nat → Prop}

theorem refs_eq (hd : w.devs.get d = some D) : w.refs d = D.refcount := by
  rw [World.refs, hd]
  rfl

theorem recount_recount (devs : Nat → Option HsDevice) (d m : Nat) (hd : devs d = some D)
    (hpos : 0 < D.refcount) : recount (recount devs d (m + 1)) d D.refcount = devs := by
  funext x
  by_cases hx : x = d
  · subst hx
    simp [recount, hd, Nat.ne_of_gt hpos]
  · simp [recount, hx]

theorem deviceRef_recount (hd : w.devs.get d = some D) (hb : D.refcount + 1 < uintMod) :
    ∃ devs', hsDeviceRef w d = some { w with devs := devs' } ∧ devs'.brk = w.devs.brk ∧
      devs'.get = recount w.devs.get d (D.refcount + 1) := by
  have hmod : (D.refcount + 1) % uintMod = D.refcount + 1 := Nat.mod_eq_of_lt hb
  obtain ⟨devs', e, hbrk, hg⟩ := setDev_some w { D with refcount := D.refcount + 1 } hd
  refine ⟨devs', by simp [hsDeviceRef, hd, hmod, e], hbrk, ?_⟩
  funext x
  rw [hg, recount, Function.update_apply, if_neg (Nat.succ_ne_zero _), hd]
  rfl

theorem deviceUnref_recount (hd : w.devs.get d = some D) :
    ∃ w', hsDeviceUnref w (some d) = some w' ∧
      w' = { w with devs := w'.devs, table := w'.table } ∧
      w'.devs.get = recount w.devs.get d (D.refcount - 1) := by
  by_cases hone : D.refcount > 1
  · obtain ⟨devs', e, -, hg⟩ := setDev_some w { D with refcount := D.refcount - 1 } hd
    refine ⟨{ w with devs := devs' }, by simp only [hsDeviceUnref, hd, Option.bind_eq_bind,
      Option.bind_some, hone, ↓reduceIte, e], rfl, ?_⟩
    funext x
    rw [hg, recount, Function.update_apply, if_neg (Nat.sub_ne_zero_of_lt hone), hd]
    rfl
  · obtain ⟨devs', e, -, hg⟩ := freeDev_some w hd
    refine ⟨{ w with
        devs := devs'
        table := { w.table with nodes := Function.update w.table.nodes d none } },
      by simp only [hsDeviceUnref, hd, Option.bind_eq_bind, Option.bind_some, hone, ↓reduceIte, e],
      rfl, ?_⟩
    funext x
    rw [recount, Function.update_apply, if_pos (Nat.sub_eq_zero_of_le (Nat.not_lt.mp hone))]
    exact hg x

/-- A reference that is taken and dropped again. -/
theorem ref_unref (hd : w.devs.get d = some D) (hpos : 0 < D.refcount) {devs' : Heap HsDevice}
    (hg : devs'.get = recount w.devs.get d (D.refcount + 1)) {a : World}
    (hw : a.devs = devs') : ∃ w', hsDeviceUnref a (some d) = some w' ∧
      w' = { a with devs := w'.devs, table := w'.table } ∧ w'.devs.get = w.devs.get := by
  have hd₁ : a.devs.get d = some { D with refcount := D.refcount + 1 } := by
    rw [hw, hg, recount, Function.update_self, if_neg (Nat.succ_ne_zero _), hd]
    rfl
  obtain ⟨w', e, hw', hg'⟩ := deviceUnref_recount hd₁
  refine ⟨w', e, hw', hg'.trans ?_⟩
  rw [hw, hg]
  exact recount_recount _ _ _ hd hpos

/-! ## The POSIX drivers -/

/-- `id` is the handle of an open file of `d`. -/
def World.IsOpen (w : World) (d id : Nat) : Prop :=
  ∃ h, (w.handles.find? fun g => g.id = id) = some h ∧ h.dev = d

theorem isOpen_setHandle (w : World) (d : Nat) (fd : Int) (hid : HidInfo) :
    ((w.allocHandle d).2.setHandle { (w.allocHandle d).1 with fd := fd, hid := hid }).IsOpen d
      (w.allocHandle d).1.id :=
  ⟨{ (w.allocHandle d).1 with fd := fd, hid := hid },
    by simp [World.setHandle, World.allocHandle], rfl⟩

theorem closePosixDevice_lowers {h : HsHandle} (hd : w.devs.get h.dev = some D)
    (hpos : 0 < D.refcount) :
    ∃ w', closePosixDevice w h = some w' ∧ Lowered w w' h.dev := by
  obtain ⟨w', e, -, hg⟩ := deviceUnref_recount hd
  have hlow : Lowered w (w'.freeHandle h) h.dev := by
    rw [Lowered, refs_eq hd]
    exact ⟨hpos, hg⟩
  exact ⟨w'.freeHandle h, by simp [closePosixDevice, e], hlow⟩

/-- The `goto error` of an open function. -/
theorem closeNew_restores (hd : w.devs.get d = some D) (hpos : 0 < D.refcount)
    (hv : D.vtable = some .posix ∨ D.vtable = some .linuxHid) {devs' : Heap HsDevice}
    (hg : devs'.get = recount w.devs.get d (D.refcount + 1)) :
    ∃ w', hsHandleClose ({ w with devs := devs' }.allocHandle d).2
        (some ({ w with devs := devs' }.allocHandle d).1.id) = some w' ∧
      w'.devs.get = w.devs.get := by
  set w₁ := ({ w with devs := devs' }.allocHandle d).2 with hw₁
  obtain ⟨w', e, -, hg'⟩ := ref_unref (a := w₁) hd hpos hg rfl
  have hd₁ : w₁.devs.get d = some { D with refcount := D.refcount + 1 } := by
    show devs'.get d = _
    rw [hg, recount, Function.update_self, if_neg (Nat.succ_ne_zero _), hd]
    rfl
  have hfind : (w₁.handles.find? fun g => g.id = w.nextHandle) = some ⟨w.nextHandle, d, 0, .zero⟩ := by
    simp [hw₁, World.allocHandle]
  refine ⟨w'.freeHandle ⟨w.nextHandle, d, 0, .zero⟩, ?_, hg'⟩
  show hsHandleClose w₁ (some w.nextHandle) = _
  rcases hv with hv | hv
  · simp [hsHandleClose, hfind, hd₁, hv, closePosixDevice, e]
  · simp [hsHandleClose, hfind, hd₁, hv, closeHidrawDevice, e]

/-- A counter that a handle may be added to: of a device that exists, and below its bound. -/
structure Countable (w : World) (d : Nat) (D : HsDevice) : Prop where
  live : w.devs.get d = some D
  pos : 0 < D.refcount
  bound : D.refcount + 1 < uintMod

theorem openAtomic_failed {r : Int} (hneg : r < 0) (hg : w'.devs.get = w.devs.get) :
    OpenAtomic w w' P d ⟨r, none⟩ := Or.inr ⟨hneg, rfl, hg⟩

theorem openAtomic_opened (hd : w.devs.get d = some D) {id : Nat} (hid : P id)
    (hg : w'.devs.get = recount w.devs.get d (D.refcount + 1)) :
    OpenAtomic w w' P d ⟨0, some id⟩ :=
  Or.inl ⟨rfl, ⟨id, rfl, hid⟩, by rw [refs_eq hd]; exact hg⟩

theorem openError_neg (e : Errno) : openError e < 0 := by
  cases e <;> simp [openError, hsError_neg]

theorem openPosixDevice_atomic (os : OpenOs) (hd : Countable w d D)
    (hv : D.vtable = some .posix ∨ D.vtable = some .linuxHid) :
    ∃ o w', openPosixDevice os w d = some (o, w') ∧ OpenAtomic w w' (w'.IsOpen d) d o := by
  unfold openPosixDevice
  cases os.callocOk with
  | false => exact ⟨_, w, rfl, openAtomic_failed (hsError_neg _ _) rfl⟩
  | true =>
    obtain ⟨devs', e, -, hg⟩ := deviceRef_recount hd.live hd.bound
    simp only [↓reduceIte, e, Option.bind_eq_bind, Option.bind_some]
    cases openRestart os.fd os.eintr with
    | error err =>
      obtain ⟨w', e', hg'⟩ := closeNew_restores hd.live hd.pos hv hg
      exact ⟨_, w', by rw [e']; rfl, openAtomic_failed (openError_neg err) hg'⟩
    | ok fd => exact ⟨_, _, rfl, openAtomic_opened hd.live (isOpen_setHandle _ d fd _) hg⟩

theorem openHidrawDevice_atomic (os : OpenOs) (hd : Countable w d D)
    (hv : D.vtable = some .posix ∨ D.vtable = some .linuxHid) :
    ∃ o w', openHidrawDevice os w d = some (o, w') ∧ OpenAtomic w w' (w'.IsOpen d) d o := by
  unfold openHidrawDevice
  cases os.callocOk with
  | false => exact ⟨_, w, rfl, openAtomic_failed (hsError_neg _ _) rfl⟩
  | true =>
    obtain ⟨devs', e, -, hg⟩ := deviceRef_recount hd.live hd.bound
    obtain ⟨w', e', hg'⟩ := closeNew_restores hd.live hd.pos hv hg
    simp only [↓reduceIte, e, Option.bind_eq_bind, Option.bind_some, e']
    cases openRestart os.fd os.eintr with
    | error err => exact ⟨_, w', rfl, openAtomic_failed (openError_neg err) hg'⟩
    | ok fd =>
      cases os.descSizeOk with
      | false => exact ⟨_, w', rfl, openAtomic_failed (hsError_neg _ _) hg'⟩
      | true =>
        cases os.desc with
        | none => exact ⟨_, w', rfl, openAtomic_failed (hsError_neg _ _) hg'⟩
        | some report =>
          obtain ⟨hid, hp⟩ := parseDescriptor_some
            ({ w with devs := devs' }.allocHandle d).1.hid report
          exact ⟨_, _, by simp only [↓reduceIte, hp, Option.bind_some],
            openAtomic_opened hd.live (isOpen_setHandle { w with devs := devs' } d fd hid) hg⟩

theorem handleClose_lowers {h : HsHandle} (hf : (w.handles.find? fun g => g.id = h.id) = some h)
    (hd : w.devs.get h.dev = some D) (hpos : 0 < D.refcount)
    (hv : D.vtable = some .posix ∨ D.vtable = some .linuxHid) :
    ∃ w', hsHandleClose w (some h.id) = some w' ∧ Lowered w w' h.dev := by
  obtain ⟨w', e, hlow⟩ := closePosixDevice_lowers hd hpos
  refine ⟨w', ?_, hlow⟩
  rcases hv with hv | hv
  · simp only [hsHandleClose, hf, hd, hv, Option.bind_eq_bind, Option.bind_some, e]
  · simp only [hsHandleClose, hf, hd, hv, Option.bind_eq_bind, Option.bind_some]
    exact e

/-! ## Handles in a heap -/

/-- A type of handles: `h->dev`, and the driver that made the handle. -/
class HandleType (H : Type) where
  dev : H → Option Nat
  vtable : H → Vtable

/-- Devices and handles. The `userRefs` of the world are all references but those of the handles.
`cleaners` are the threads that have to finish the close of a handle. -/
structure Handles (H : Type) where
  world : World
  handles : Heap H
  cleaners : List Nat

def Handles.start (H : Type) : Handles H := ⟨.start, Heap.empty, []⟩

variable {H : Type} [HandleType H]

/-- `id` is an open handle of `d`. -/
def Handles.IsOpen (s : Handles H) (d id : Nat) : Prop :=
  ∃ h, s.handles.get id = some h ∧ HandleType.dev h = some d

/-- How an open function goes: `new` is the handle with its reference to `d`, `fill` does the rest and
gives the value of `r`, and `close` is what `hs_handle_close` comes to. -/
def openHandle (close : Handles H → Nat → Option (Handles H)) (callocOk : Bool) (new : H)
    (fill : H → Int × H) (s : Handles H) (d : Nat) : Option (Opened × Handles H) :=
  if callocOk then do
    let w ← hsDeviceRef s.world d
    let (r, h) := fill new
    let (id, handles) := s.handles.alloc h
    let s := { s with world := w, handles := handles }
    if r < 0 then do
      let s ← close s id
      some (⟨r, none⟩, s)
    else some (⟨0, some id⟩, s)
  else some (⟨hsError .memory none, none⟩, s)

/-- `hs_device_open`. -/
def deviceOpen (drivers : Vtable → Handles H → Nat → Option (Opened × Handles H)) (s : Handles H)
    (d : Nat) : Option (Opened × Handles H) := do
  let D ← s.world.devs.get d
  if D.state ≠ .online then
    some (⟨hsError .notFound (some "Device '%s' is not connected"), none⟩, s)
  else do
    let vtable ← D.vtable
    drivers vtable s d

/-- `hs_handle_close`, for the handle at `id`. -/
def handleClose (close : Vtable → Handles H → Nat → Option (Handles H)) (s : Handles H)
    (id : Nat) : Option (Handles H) := do
  let h ← s.handles.get id
  let d ← HandleType.dev h
  let D ← s.world.devs.get d
  let vtable ← D.vtable
  close vtable s id

/-- What the rest of the program does with devices: make one, change its status, take a reference or
drop one. -/
inductive Elsewhere
  | found (dev : HsDevice)
  | status (d : Nat) (status : HsDeviceStatus)
  | ref (d : Nat)
  | unref (d : Nat)

def World.elsewhere (w : World) : Elsewhere → Option World
  | .found dev =>
    let (d, w) := w.allocDev { dev with refcount := 1 }
    some { w with userRefs := Function.update w.userRefs d (w.userRefs d + 1) }
  | .status d status => do
    let D ← w.devs.get d
    w.setDev d { D with state := status }
  | .ref d => userAct uintMod w (.ref d)
  | .unref d => userAct uintMod w (.unref d)

/-- The references to `d`. -/
def Handles.refsTo (s : Handles H) (d : Nat) : Nat :=
  s.world.userRefs d + s.handles.count fun h => decide (HandleType.dev h = some d)

/-- The counters are the numbers of references, and a handle belongs to the driver of its device. -/
structure Handles.Counted (s : Handles H) : Prop where
  counts : CountedBy s.world.devs s.world.table s.refsTo
  served : ∀ id h d D, s.handles.get id = some h → HandleType.dev h = some d →
    s.world.devs.get d = some D → D.vtable = some (HandleType.vtable h)

/-! ## The counters stay right -/

variable {s s' : Handles H} {id : Nat} {h : H}

theorem counted_start (H : Type) [HandleType H] : (Handles.start H).Counted where
  counts := ⟨fun _ _ hD => (nomatch hD), fun _ _ => rfl, fun _ => iff_of_true rfl rfl⟩
  served _ _ _ _ hg := nomatch hg

theorem refsTo_pos (hg : s.handles.get id = some h)
    (hd : HandleType.dev h = some d) : 0 < s.refsTo d := by
  have hone : 0 < s.handles.count fun h => decide (HandleType.dev h = some d) :=
    Heap.count_pos hg (decide_eq_true hd)
  exact Nat.lt_of_lt_of_le hone (Nat.le_add_left _ _)

/-- The device of an open handle exists, and is served by the driver of the handle. -/
theorem Handles.Counted.device (hs : s.Counted) (hg : s.handles.get id = some h)
    (hd : HandleType.dev h = some d) :
    ∃ D, s.world.devs.get d = some D ∧ 0 < D.refcount ∧
      D.vtable = some (HandleType.vtable h) := by
  obtain ⟨D, hD⟩ := hs.counts.exists_of_pos (refsTo_pos hg hd)
  have hc := hs.counts.live d D hD
  exact ⟨D, hD, hc.1 ▸ hc.2.1, hs.served id h d D hg hd hD⟩

/-- A step that keeps the drivers of the devices, and the handles. -/
theorem Handles.Counted.frame (hs : s.Counted)
    (hc : CountedBy w'.devs w'.table fun d =>
      w'.userRefs d + s.handles.count fun h => decide (HandleType.dev h = some d))
    (hsame : ∀ d D', w'.devs.get d = some D' → s.world.devs.get d = none ∨
      ∃ D, s.world.devs.get d = some D ∧ D'.vtable = D.vtable) :
    { s with world := w' }.Counted where
  counts := hc
  served id h d D' hg hd hD' := by
    rcases hsame d D' hD' with hnone | ⟨D, hD, hv⟩
    · exact absurd (hs.counts.gone d hnone) (Nat.ne_of_gt (refsTo_pos hg hd))
    · rw [hv]
      exact hs.served id h d D hg hd hD

/-- When the user comes to hold `n` references to `d`, those of the handles stay. -/
theorem refsTo_update (s : Handles H) {d n k : Nat}
    (hk : k = n + s.handles.count fun h => decide (HandleType.dev h = some d)) (x : Nat) :
    Function.update s.world.userRefs d n x +
        (s.handles.count fun h => decide (HandleType.dev h = some x)) =
      Function.update s.refsTo d k x := by
  by_cases hx : x = d
  · rw [hx, Function.update_self, Function.update_self, hk]
  · rw [Function.update_of_ne hx, Function.update_of_ne hx, Handles.refsTo]

theorem elsewhere_counted (hs : s.Counted) {e : Elsewhere}
    (h : s.world.elsewhere e = some w') : { s with world := w' }.Counted := by
  cases e with
  | found dev =>
    cases h
    refine hs.frame ((hs.counts.alloc rfl).congr fun x => ?_) fun x X hX => ?_
    · exact refsTo_update s (Nat.add_right_comm ..) x
    · have hX : ((s.world.devs.alloc { dev with refcount := 1 }).2).get x = some X := hX
      rw [Heap.get_alloc] at hX
      split at hX
      · next hx =>
        rw [hx]
        exact Or.inl (Heap.get_brk _)
      · exact Or.inr ⟨X, hX, rfl⟩
  | status d status =>
    obtain ⟨D, hD, h⟩ := Option.bind_eq_some_iff.mp h
    obtain ⟨devs', e, hb, hg⟩ := setDev_some s.world { D with state := status } hD
    rw [e] at h
    cases h
    have hc := hs.counts.live d D hD
    refine hs.frame (hs.counts.write hD hg hc.1 hc.2.1 hc.2.2 fun _ _ => rfl) fun x X hX => ?_
    have hX : devs'.get x = some X := hX
    rw [hg] at hX
    split at hX
    · next hx =>
      subst hx
      cases hX
      exact Or.inr ⟨D, hD, rfl⟩
    · exact Or.inr ⟨X, hX, rfl⟩
  | ref d =>
    simp only [World.elsewhere, userAct] at h
    split at h
    · next hm =>
      cases hd : s.world.devs.get d with
      | none => simp [mayRef, hd] at hm
      | some D =>
        simp only [mayRef, hd, decide_eq_true_eq] at hm
        obtain ⟨devs', e, hu, -, hc⟩ := deviceRef_spec hs.counts hd hm
        simp only [e, Option.bind_eq_bind, Option.bind_some, Option.some.injEq] at h
        subst h
        exact hs.frame (hc.congr (refsTo_update s (Nat.add_right_comm ..))) fun x X hX =>
          Or.inr (hu.vtable x X hX)
    · cases h
      exact hs
  | unref d =>
    simp only [World.elsewhere, userAct] at h
    split at h
    · next hr =>
      obtain ⟨w₁, e, hu, hf, hc⟩ := deviceUnref_spec hs.counts (d := d)
        (Nat.lt_of_lt_of_le hr (Nat.le_add_right _ _))
      simp only [e, Option.bind_eq_bind, Option.bind_some, Option.some.injEq] at h
      subst h
      refine hs.frame (hc.congr fun x => ?_) fun x X hX => Or.inr (hu.vtable x X hX)
      rw [hf]
      exact refsTo_update s (Nat.sub_add_comm hr) x
    · cases h
      exact hs

/-- A close drops the reference of the handle at `id`, of which `b` is left. -/
theorem drop_spec (hs : s.Counted) (hg : s.handles.get id = some h)
    (hd : HandleType.dev h = some d) :
    ∃ w', hsDeviceUnref s.world (some d) = some w' ∧ Lowered s.world w' d ∧
      ∀ {handles' : Heap H} {b : Option H} {cleaners : List Nat}, handles'.brk = s.handles.brk →
        (∀ x, handles'.get x = if x = id then b else s.handles.get x) →
        (∀ h', b = some h' → HandleType.dev h' = none) →
        Handles.Counted ⟨w', handles', cleaners⟩ := by
  obtain ⟨D, hD, hpos, -⟩ := hs.device hg hd
  obtain ⟨w', e, hu, hf, hc⟩ := deviceUnref_spec hs.counts (refsTo_pos hg hd)
  obtain ⟨w₁, e₁, -, hg₁⟩ := deviceUnref_recount hD
  rw [e] at e₁
  cases e₁
  refine ⟨w', e, ⟨by rwa [refs_eq hD], by rw [refs_eq hD]; exact hg₁⟩, ?_⟩
  intro handles' b cleaners hb hget hnone
  have hcount := fun x => Heap.count_change (fun h => decide (HandleType.dev h = some x)) hg hb hget
  have hzero : ∀ x, (b.any fun h => decide (HandleType.dev h = some x)) = false := by
    intro x
    cases b with
    | none => rfl
    | some h' => simp [hnone h' rfl]
  refine ⟨hc.congr fun x => ?_, fun a g y Y hg' hy hY => ?_⟩
  · have hx := hcount x
    rw [hzero x] at hx
    rw [hf]
    by_cases hxd : x = d
    · subst hxd
      rw [decide_eq_true hd] at hx
      simp only [Bool.toNat_true, Bool.toNat_false] at hx
      simp only [Function.update_self, Handles.refsTo]
      omega
    · have hne : ¬ HandleType.dev h = some x := by
        rw [hd]
        exact fun he => hxd (Option.some.inj he).symm
      rw [decide_eq_false hne] at hx
      simp only [Bool.toNat_false] at hx
      simp only [Function.update_of_ne hxd, Handles.refsTo]
      omega
  · rw [hget] at hg'
    split at hg'
    · rw [hnone g hg'] at hy
      cases hy
    · obtain ⟨Y', hY', hv⟩ := hu.vtable y Y hY
      rw [hv]
      exact hs.served a g y Y' hg' hy hY'

/-- A new handle with its reference. -/
theorem take_spec (hs : s.Counted) (hD : s.world.devs.get d = some D)
    (hb : D.refcount + 1 < uintMod) (hd : HandleType.dev h = some d)
    (hv : D.vtable = some (HandleType.vtable h)) :
    ∃ devs', hsDeviceRef s.world d = some { s.world with devs := devs' } ∧
      devs'.get = recount s.world.devs.get d (D.refcount + 1) ∧
      { s with
        world := { s.world with devs := devs' }
        handles := (s.handles.alloc h).2 }.Counted := by
  obtain ⟨devs', e, hu, ⟨n, hn⟩, hc⟩ := deviceRef_spec hs.counts hD hb
  obtain ⟨devs₁, e₁, -, hg₁⟩ := deviceRef_recount hD hb
  rw [e] at e₁
  cases e₁
  refine ⟨devs', e, hg₁, hc.congr fun x => ?_, fun a g y Y hg' hy hY => ?_⟩
  · have hx := Heap.count_alloc s.handles h fun h => decide (HandleType.dev h = some x)
    by_cases hxd : x = d
    · subst hxd
      rw [decide_eq_true hd] at hx
      simp only [Bool.toNat_true] at hx
      simp only [Function.update_self, Handles.refsTo, hx]
      omega
    · have hne : ¬ HandleType.dev h = some x := by
        rw [hd]
        exact fun he => hxd (Option.some.inj he).symm
      rw [decide_eq_false hne] at hx
      simp only [Bool.toNat_false] at hx
      simp only [Function.update_of_ne hxd, Handles.refsTo, hx]
      omega
  · rw [Heap.get_alloc] at hg'
    split at hg'
    · cases hg'
      rw [hd] at hy
      cases hy
      have hY : devs'.get d = some Y := hY
      rw [hn] at hY
      cases hY
      exact hv
    · obtain ⟨Y', hY', hvt⟩ := hu.vtable y Y hY
      rw [hvt]
      exact hs.served a g y Y' hg' hy hY'

/-- Nothing is changed but the handle at `id`. -/
structure Handles.Apart (s s' : Handles H) (id : Nat) : Prop where
  cleaners : s'.cleaners = s.cleaners
  others : ∀ x, x ≠ id → s'.handles.get x = s.handles.get x

theorem openHandle_spec (close : Handles H → Nat → Option (Handles H)) (callocOk : Bool) {new : H}
    {fill : H → Int × H} (hs : s.Counted) (hD : s.world.devs.get d = some D)
    (hb : D.refcount + 1 < uintMod) (hd : HandleType.dev (fill new).2 = some d)
    (hv : D.vtable = some (HandleType.vtable (fill new).2))
    (hclose : (fill new).1 < 0 → ∀ {s₁ : Handles H} {id : Nat}, s₁.Counted →
      s₁.handles.get id = some (fill new).2 →
      ∃ s₂, close s₁ id = some s₂ ∧ s₂.Counted ∧ Lowered s₁.world s₂.world d ∧ s₁.Apart s₂ id) :
    ∃ o s', openHandle close callocOk new fill s d = some (o, s') ∧ s'.Counted ∧
      s.Apart s' s.handles.brk ∧ OpenAtomic s.world s'.world (s'.IsOpen d) d o := by
  unfold openHandle
  cases callocOk with
  | false => exact ⟨_, s, rfl, hs, ⟨rfl, fun _ _ => rfl⟩, openAtomic_failed (hsError_neg _ _) rfl⟩
  | true =>
    obtain ⟨devs', e, hg, hs₁⟩ := take_spec hs hD hb hd hv
    have hnew : (s.handles.alloc (fill new).2).2.get s.handles.brk = some (fill new).2 := by
      rw [Heap.get_alloc, if_pos rfl]
    have hold : ∀ x, x ≠ s.handles.brk →
        (s.handles.alloc (fill new).2).2.get x = s.handles.get x := fun x hx => by
      rw [Heap.get_alloc, if_neg hx]
    simp only [↓reduceIte, e, Option.bind_eq_bind, Option.bind_some]
    split
    · next hneg =>
      obtain ⟨s₂, e₂, hs₂, ⟨-, hlow⟩, hapart⟩ := hclose hneg hs₁ hnew
      refine ⟨⟨(fill new).1, none⟩, s₂, ?_, hs₂, ⟨hapart.cleaners, fun x hx =>
        (hapart.others x hx).trans (hold x hx)⟩, openAtomic_failed hneg ?_⟩
      · simp only [Heap.alloc_fst, e₂, Option.bind_some]
      · have hD₁ : devs'.get d = some { D with refcount := D.refcount + 1 } := by
          rw [hg, recount, Function.update_self, if_neg (Nat.succ_ne_zero _), hD]
          rfl
        rw [refs_eq (w := { s.world with devs := devs' }) hD₁] at hlow
        refine hlow.trans ?_
        show recount devs'.get d D.refcount = _
        rw [hg]
        exact recount_recount _ _ _ hD (hs.counts.live d D hD |>.1 ▸ (hs.counts.live d D hD).2.1)
    · exact ⟨⟨0, some s.handles.brk⟩, _, rfl, hs₁, ⟨rfl, hold⟩, openAtomic_opened hD ⟨_, hnew, hd⟩ hg⟩

omit [HandleType H] in
theorem deviceOpen_eq {drivers : Vtable → Handles H → Nat → Option (Opened × Handles H)}
    {vtable : Vtable} (hD : s.world.devs.get d = some D) (hon : D.state = .online)
    (hv : D.vtable = some vtable) : deviceOpen drivers s d = drivers vtable s d := by
  simp [deviceOpen, hD, hon, hv]

omit [HandleType H] in
/-- `hs_device_open` fails at once, or opens the device by a driver. -/
theorem deviceOpen_cases {drivers : Vtable → Handles H → Nat → Option (Opened × Handles H)}
    {o : Opened} (h : deviceOpen drivers s d = some (o, s')) :
    s' = s ∨ ∃ D vtable, s.world.devs.get d = some D ∧ D.state = .online ∧
      D.vtable = some vtable ∧ drivers vtable s d = some (o, s') := by
  obtain ⟨D, hD, h⟩ := Option.bind_eq_some_iff.mp h
  split at h
  · cases h
    exact Or.inl rfl
  · next hon =>
    obtain ⟨vtable, hv, h⟩ := Option.bind_eq_some_iff.mp h
    exact Or.inr ⟨D, vtable, hD, not_not.mp hon, hv, h⟩

theorem handleClose_eq {close : Vtable → Handles H → Nat → Option (Handles H)} (hs : s.Counted)
    (hg : s.handles.get id = some h) (hd : HandleType.dev h = some d) :
    handleClose close s id = close (HandleType.vtable h) s id := by
  obtain ⟨D, hD, -, hv⟩ := hs.device hg hd
  simp [handleClose, hg, hd, hD, hv]

/-- Work on the handle at `id` that keeps its device and its driver. -/
theorem set_spec (hs : s.Counted) (hg : s.handles.get id = some h) (h' : H)
    (hd : HandleType.dev h' = HandleType.dev h)
    (hv : HandleType.vtable h' = HandleType.vtable h) :
    ∃ handles', s.handles.set id h' = some handles' ∧
      (∀ x, handles'.get x = if x = id then some h' else s.handles.get x) ∧
      { s with handles := handles' }.Counted := by
  obtain ⟨handles', e, hb, hget⟩ := Heap.set_some h' hg
  refine ⟨handles', e, hget, hs.counts.congr fun x => ?_, fun a g y Y hg' hy hY => ?_⟩
  · have hx := Heap.count_change (fun h => decide (HandleType.dev h = some x)) hg hb hget
    simp only [Option.any_some, hd] at hx
    simp only [Handles.refsTo]
    omega
  · have hg' : handles'.get a = some g := hg'
    rw [hget] at hg'
    split at hg'
    · cases hg'
      rw [hv]
      exact hs.served id h y Y hg (hd ▸ hy) hY
    · exact hs.served a g y Y hg' hy hY

/-- `free` of a handle that is closed. -/
theorem free_spec (hs : s.Counted) (hg : s.handles.get id = some h)
    (hd : HandleType.dev h = none) :
    ∃ handles', s.handles.free id = some handles' ∧
      (∀ x, handles'.get x = if x = id then none else s.handles.get x) ∧
      { s with handles := handles' }.Counted := by
  obtain ⟨handles', e, hb, hget⟩ := Heap.free_some hg
  refine ⟨handles', e, hget, hs.counts.congr fun x => ?_, fun a g y Y hg' hy hY => ?_⟩
  · have hx := Heap.count_change (fun h => decide (HandleType.dev h = some x)) hg hb hget
    simp only [Option.any_none, hd] at hx
    simp only [Handles.refsTo]
    simpa using hx
  · have hg' : handles'.get a = some g := hg'
    rw [hget] at hg'
    split at hg'
    · cases hg'
    · exact hs.served a g y Y hg' hy hY

end Libhs
