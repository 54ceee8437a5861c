import Libhs.Win32.Enumerate
import Libhs.HandOver

/-!
# Reading devices of the Windows device tree

What `process_win32_device` makes (`processWin32Device_makes`), and that a plain
enumeration leaves the monitor alone (`enumerate_spec`).
-/

namespace Libhs.Win32

/-! ## Reading a device -/

/-- What reading a device gives, when `id` is its key if the caller knows it. -/
def ReadOs.read (os : ReadOs) (id : Option CStr) : Except Int HsDevice :=
  makeResult os.callocOk (fillWin32Device os id)

/-- The fields of a device that was read. -/
structure ReadDevice (os : ReadOs) (id : Option CStr) (k : CStr) (dev : HsDevice) : Prop
    extends Made k dev where
  known : id.or os.deviceId = some k

theorem orCleanup_yields {α : Type} (x : Outcome α) : Yields x.orCleanup fun _ => True := by
  cases x with
  | found a => trivial
  | ignored => exact Int.le_refl 0
  | failed err => exact hsError_nonpos err none

theorem findDeviceNode_yields (os : ReadOs) (key : CStr) :
    Yields (findDeviceNode os key) fun _ => True := by
  unfold findDeviceNode
  split
  · exact (orCleanup_yields os.comport).bind fun _ _ => trivial
  · split
    · cases os.devicePath with
      | none => exact hsError_nonpos .memory none
      | some path => trivial
    · exact Int.le_refl 0

theorem fillWin32Device_yields (os : ReadOs) (id : Option CStr) :
    Yields (fillWin32Device os id blankDevice) fun D => ∃ key, ReadDevice os id key D := by
  have hmem := hsError_nonpos .memory none
  refine (someOrReturn_yields (id.or os.deviceId)).bind fun key hkey => ?_
  refine (orReturn_yields hmem os.keyOk).bind fun _ _ => ?_
  refine (orReturn_yields (Int.le_refl 0) _).bind fun _ _ => ?_
  refine (findDeviceNode_yields os key).bind fun _ _ => ?_
  refine (orCleanup_yields os.ports).bind fun ports _ => ?_
  refine (orCleanup_yields (os.properties _)).bind fun _ _ => ?_
  refine (orReturn_yields hmem os.locationOk).bind fun _ _ => ?_
  exact ⟨key, ⟨rfl, rfl, rfl, Option.some_ne_none _⟩, hkey⟩

theorem processWin32Device_makes (os : ReadOs) (id : Option CStr) :
    Makes (processWin32Device os id) (os.read id) := by
  refine makes_of_fill ?_
  have hy := fillWin32Device_yields os id
  cases hfill : fillWin32Device os id blankDevice with
  | error e =>
    rw [hfill] at hy
    exact hy
  | ok D =>
    rw [hfill] at hy
    obtain ⟨key, hD⟩ := hy
    exact ⟨key, hD.toMade⟩

theorem read_ok {os : ReadOs} {id : Option CStr} {D : HsDevice} (h : os.read id = .ok D) :
    ∃ key, ReadDevice os id key D := by
  have hy := fillWin32Device_yields os id
  unfold ReadOs.read makeResult at h
  split at h
  · rwa [h] at hy
  · cases h

/-! ## Plain enumeration -/

variable {u : User} {w w' : World} {mon : Option Nat} {R R' : Roster} {f : Nat}

theorem enumerateSet_eq (f : EnumCallback) (set : List ReadOs) (w : World) :
    enumerateSet f set w = handEach f (set.map fun os => processWin32Device os none) w := by
  induction set generalizing w with
  | nil => rfl
  | cons os set ih => simp only [enumerateSet, enumerateDevice, List.map_cons, handEach, ih]

/-- Reading the devices of a class, and what that gives. A set that cannot be had ends the
enumeration. -/
def EnumOs.made (os : EnumOs) (c : DeviceClass) :
    List ((World → Option ((Int × Option Nat) × World)) × Except Int HsDevice) :=
  match os.set c with
  | none => [(fun w => some ((hsError .system (some "SetupDiGetClassDevs() failed: %s"), none), w),
      .error (hsError .system (some "SetupDiGetClassDevs() failed: %s")))]
  | some set => set.map fun x => (processWin32Device x none, x.read none)

theorem made_makes (os : EnumOs) (c : DeviceClass) : ∀ z ∈ os.made c, Makes z.1 z.2 := by
  intro z hz
  unfold EnumOs.made at hz
  split at hz
  · rw [List.mem_singleton.mp hz]
    exact makes_nothing (hsError_nonpos _ _)
  · obtain ⟨x, -, rfl⟩ := List.mem_map.mp hz
    exact processWin32Device_makes x none

theorem enumerateClass_eq (f : EnumCallback) (os : EnumOs) (c : DeviceClass) (w : World) :
    enumerateClass f (os.set c) w = handEach f ((os.made c).map Prod.fst) w := by
  unfold EnumOs.made
  cases os.set c with
  | none =>
    have hneg := hsError_neg .system (some "SetupDiGetClassDevs() failed: %s")
    simp [enumerateClass, handEach, handOver, Int.le_of_lt hneg, hneg.ne]
  | some set => simp [enumerateClass, enumerateSet_eq, List.map_map, Function.comp_def]

theorem enumerateClasses_eq (f : EnumCallback) (os : EnumOs) (classes : List DeviceClass)
    (w : World) : enumerateClasses f os classes w =
      handEach f ((classes.flatMap os.made).map Prod.fst) w := by
  induction classes generalizing w with
  | nil => rfl
  | cons c classes ih =>
    rw [List.flatMap_cons, List.map_append, handEach_append]
    simp only [enumerateClasses, enumerateClass_eq, ih]
    rfl

/-- A plain enumeration gets to no device that it can read. -/
def EnumOs.findsNone (os : EnumOs) : Prop :=
  os.controllers = none → FindsNone ((deviceClasses.flatMap os.made).map Prod.snd)

/-- `hs_enumerate` with a callback of the user leaves the monitor alone. -/
theorem enumerate_spec (hu : u.limit ≤ uintMod) (hb : Bound mon w R) (f : Nat) (os : EnumOs) :
    ∃ r w' R', hsEnumerate (userEnumerate u f) os w = some (r, w') ∧ Bound mon w' R' ∧
      w'.busy = w.busy ∧ R.Keeps R' ∧ (os.findsNone → R'.log = R.log) := by
  refine classes_user_spec (f := f) hu hb (made_makes os) (fun err hc => ?_) fun hc => ?_
  · simp only [hsEnumerate, hc]
  · simp only [hsEnumerate, hc, enumerateClasses_eq]

end Libhs.Win32
