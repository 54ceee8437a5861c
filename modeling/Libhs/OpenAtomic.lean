import Libhs.Conservation
import Libhs.Darwin.Device
import Libhs.Win32.Device

/-!
# Opening a device is atomic

On every back-end `hs_device_open` takes one reference and hands out a handle, or
fails and leaves the device as it was, and closing the handle drops the reference,
once (`deviceOpen_atomic`). On Windows that goes for a close that a thread has to
finish as well: the thread touches no device.

The counter has 32 bits, so one reference more than `2^32 - 1` is none, and a failed
open frees the device (`deviceOpen_wraps`).
-/

namespace Libhs
open Pointer Run

variable {u : User}

/-- Linux: in every state between the calls of a run. -/
def LinuxOpensAtomic (u : User) : Prop :=
  ∀ ops w, runLinux u .start ops = some w →
    (∀ d D os, w.devs.get d = some D → D.state = .online →
      (D.vtable = some .posix ∨ D.vtable = some .linuxHid) → D.refcount + 1 < uintMod →
      ∃ o w', hsDeviceOpen os w d = some (o, w') ∧ OpenAtomic w w' (w'.IsOpen d) d o) ∧
    ∀ d id, w.IsOpen d id → ∃ w', hsHandleClose w (some id) = some w' ∧ Lowered w w' d

/-- macOS: in every state of a run of user, devices and device threads. -/
def DarwinOpensAtomic : Prop :=
  ∀ actions s, run Darwin.Device.handleStep (.start Darwin.Device.Handle) actions = some s →
    (∀ d D os, s.world.devs.get d = some D → D.state = .online →
      (D.vtable = some .posix ∨ D.vtable = some .darwinHid) → D.refcount + 1 < uintMod →
      ∃ o s', Darwin.Device.hsDeviceOpen os s d = some (o, s') ∧
        OpenAtomic s.world s'.world (s'.IsOpen d) d o) ∧
    ∀ d id, s.IsOpen d id →
      ∃ s', Darwin.Device.hsHandleClose s id = some s' ∧ Lowered s.world s'.world d

/-- Windows, with or without `CancelIoEx`: in every state of a run of user, devices and the threads
that finish a close. -/
def Win32OpensAtomic (cancelIoEx : Bool) : Prop :=
  ∀ actions s, run (Win32.Device.step cancelIoEx) (.start Win32.Device.Handle) actions = some s →
    (∀ d D os, s.world.devs.get d = some D → D.state = .online → D.vtable = some .win32 →
      D.refcount + 1 < uintMod →
      ∃ o s', Win32.Device.hsDeviceOpen cancelIoEx os s d = some (o, s') ∧
        OpenAtomic s.world s'.world (s'.IsOpen d) d o) ∧
    (∀ d id thread threadOk, s.IsOpen d id →
      ∃ s', Win32.Device.hsHandleClose ⟨cancelIoEx, thread, threadOk⟩ s id = some s' ∧
        Lowered s.world s'.world d ∧ ∀ d', ¬ s'.IsOpen d' id) ∧
    ∀ id ∈ s.cleaners, ∀ thread arrival,
      ∃ s', Win32.Device.overlappedCleanupThread ⟨cancelIoEx, thread, true⟩ arrival s id = some s' ∧
        s'.world = s.world

theorem linux_opensAtomic (hu : u.limit ≤ uintMod) : LinuxOpensAtomic u := by
  intro ops w h
  obtain ⟨w₁, mon, R, e, hs⟩ := runLinux_spec hu settled_start ops
  rw [h] at e
  cases e
  have hc := hs.bound.held.counted
  refine ⟨fun d D os hD hon hv hb => ?_, fun d id ⟨g, hf, hd⟩ => ?_⟩
  · have hcount : Countable w d D := ⟨hD, (hc.counts.live d D hD).1 ▸ (hc.counts.live d D hD).2.1, hb⟩
    have hposix := openPosixDevice_atomic os hcount hv
    have hhidraw := openHidrawDevice_atomic os hcount hv
    rcases hv with hv | hv
    · simpa only [hsDeviceOpen, hsDeviceOpenWith, hD, Option.bind_eq_bind, Option.bind_some, hon,
        ne_eq, not_true_eq_false, ↓reduceIte, hv, linuxDrivers] using hposix
    · simpa only [hsDeviceOpen, hsDeviceOpenWith, hD, Option.bind_eq_bind, Option.bind_some, hon,
        ne_eq, not_true_eq_false, ↓reduceIte, hv, linuxDrivers] using hhidraw
  · have hid : g.id = id := by simpa using List.find?_some hf
    subst hid hd
    have hm := List.mem_of_find?_eq_some hf
    have hpos : 0 < w.toStore.refsTo R.devs g.dev := refsTo_pos_of_handle hm
    obtain ⟨D, hD⟩ := hc.counts.exists_of_pos hpos
    exact handleClose_lowers hf hD ((hc.counts.live _ D hD).1 ▸ hpos) (hc.handles.served g hm D hD)

theorem darwin_opensAtomic : DarwinOpensAtomic := by
  intro actions s h
  have hs := Darwin.Device.run_counted h
  refine ⟨fun d D os hD hon hv hb => ?_, fun d id ⟨g, hg, hd⟩ => ?_⟩
  · obtain ⟨o, s', e, -, hatomic⟩ := Darwin.Device.open_spec hs hD hon hv hb os
    exact ⟨o, s', e, hatomic⟩
  · obtain ⟨s', e, -, hlow, -⟩ := Darwin.Device.close_spec hs hg
    cases hd
    exact ⟨s', e, hlow⟩

theorem win32_opensAtomic (cancelIoEx : Bool) : Win32OpensAtomic cancelIoEx := by
  intro actions s h
  have hs := Win32.Device.run_sound h
  refine ⟨fun d D os hD hon hv hb => ?_, fun d id thread threadOk ⟨g, hg, hd⟩ => ?_, ?_⟩
  · obtain ⟨o, s', e, -, hatomic⟩ := Win32.Device.open_spec hs hD hon hv hb os
    exact ⟨o, s', e, hatomic⟩
  · obtain ⟨s', e, -, hlow, hclosed⟩ := Win32.Device.close_spec
      ⟨cancelIoEx, thread, threadOk⟩ hs hg hd
    exact ⟨s', (handleClose_eq hs.counted hg hd).trans e, hlow, hclosed⟩
  · intro id hm thread arrival
    obtain ⟨s', e, -, hw⟩ := Win32.Device.cleanup_spec ⟨cancelIoEx, thread, true⟩
      arrival hs hm
    exact ⟨s', e, hw⟩

/-- On every back-end an open takes one reference or leaves everything as it was, and a close drops
one reference. The user does not raise a counter past `2^32 - 1`. -/
theorem deviceOpen_atomic (react : List Event → Nat → Notice → Reaction) :
    LinuxOpensAtomic (.careful react) ∧ DarwinOpensAtomic ∧ ∀ cancelIoEx, Win32OpensAtomic cancelIoEx :=
  ⟨linux_opensAtomic (Nat.le_refl uintMod), darwin_opensAtomic, win32_opensAtomic⟩

/-! ### The counter runs over -/

/-- The answers to an attempt to open a device whose file is gone. -/
def noFile : OpenOs := ⟨true, 0, .error .enoent, nofun, true, some []⟩

/-- At the bound of its counter, a device does not survive a failed open. -/
theorem openPosixDevice_frees {w : World} {d : Nat} {D : HsDevice} (hD : w.devs.get d = some D)
    (hwrap : D.refcount + 1 = uintMod) (hv : D.vtable = some .posix) :
    ∃ w', openPosixDevice noFile w d = some (⟨openError .enoent, none⟩, w') ∧
      w'.devs.get d = none := by
  have hmod : (D.refcount + 1) % uintMod = 0 := by rw [hwrap, Nat.mod_self]
  obtain ⟨devs', e, -, hg⟩ := setDev_some w { D with refcount := 0 } hD
  set w₁ := ({ w with devs := devs' }.allocHandle d).2 with hw₁
  have hD₁ : w₁.devs.get d = some { D with refcount := 0 } := by
    show devs'.get d = _
    rw [hg, if_pos rfl]
  have hfind : (w₁.handles.find? fun g => g.id = w.nextHandle) = some ⟨w.nextHandle, d, 0, .zero⟩ := by
    simp [hw₁, World.allocHandle]
  obtain ⟨w', e', -, hg'⟩ := deviceUnref_recount hD₁
  refine ⟨w'.freeHandle ⟨w.nextHandle, d, 0, .zero⟩, ?_, ?_⟩
  · have hclose : hsHandleClose ({ w with devs := devs' }.allocHandle d).2
        (some ({ w with devs := devs' }.allocHandle d).1.id) =
        some (w'.freeHandle ⟨w.nextHandle, d, 0, .zero⟩) := by
      show hsHandleClose w₁ (some w.nextHandle) = _
      simp [hsHandleClose, hfind, hD₁, hv, closePosixDevice, e']
    simp only [openPosixDevice, noFile, hsDeviceRef, hD, hmod, e, openRestart, ↓reduceIte,
      Option.bind_eq_bind, Option.bind_some]
    rw [hclose]
    rfl
  · show w'.devs.get d = none
    rw [hg', recount, Function.update_self]
    rfl

theorem deviceOpen_wraps_of {n : Nat} (hn : n + 2 = uintMod) : ∃ w D o w', runLinux reckless .start
      (.newMonitor serialStartUp :: List.replicate n (.user (.ref 0))) = some w ∧
    w.devs.get 0 = some D ∧ D.state = .online ∧ D.refcount = n + 1 ∧
    hsDeviceOpen noFile w 0 = some (o, w') ∧ o.r < 0 ∧ w'.devs.get 0 = none ∧
    ¬ OpenAtomic w w' (w'.IsOpen 0) 0 o := by
  obtain ⟨D, hD, hfields⟩ := Option.map_eq_some_iff.mp serialStartUp_dev
  obtain ⟨hone, hon, hv⟩ : D.refcount = 1 ∧ D.state = .online ∧ D.vtable = some .posix := by
    simpa using hfields
  obtain ⟨w₀, e₀, hD⟩ := Option.bind_eq_some_iff.mp hD
  obtain ⟨w, e, hw, -⟩ := refs_wrap (u := reckless) (2 ^ 33) (by decide) n hD
    (by rw [hone]; decide)
  have hcount : (D.refcount + n) % uintMod = n + 1 := by
    rw [hone, Nat.mod_eq_of_lt (by omega), Nat.add_comm]
  rw [hcount] at hw
  obtain ⟨w', e', hgone⟩ := openPosixDevice_frees hw hn hv
  have hopen : hsDeviceOpen noFile w 0 = some (⟨openError .enoent, none⟩, w') := by
    simp [hsDeviceOpen, hsDeviceOpenWith, hw, hon, hv, linuxDrivers, e']
  refine ⟨w, _, _, w', ?_, hw, hon, rfl, hopen, openError_neg .enoent, hgone, ?_⟩
  · simp only [runLinux, e₀, Option.bind_eq_bind, Option.bind_some]
    exact e
  · rintro (⟨hr, -⟩ | ⟨-, -, hsame⟩)
    · exact absurd hr (by decide)
    · have hsame₀ := congrFun hsame 0
      rw [hgone, hw] at hsame₀
      cases hsame₀

/-- The user holds `2^32 - 2` references to a device of the table, whose file is gone. A failed open
frees the device. -/
theorem deviceOpen_wraps : ∃ w D o w', runLinux reckless .start
      (.newMonitor serialStartUp :: List.replicate (2 ^ 32 - 2) (.user (.ref 0))) = some w ∧
    w.devs.get 0 = some D ∧ D.state = .online ∧ D.refcount = 2 ^ 32 - 2 + 1 ∧
    hsDeviceOpen noFile w 0 = some (o, w') ∧ o.r < 0 ∧ w'.devs.get 0 = none ∧
    ¬ OpenAtomic w w' (w'.IsOpen 0) 0 o :=
  deviceOpen_wraps_of rfl

end Libhs
