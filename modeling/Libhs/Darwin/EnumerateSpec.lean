import Libhs.Darwin.Enumerate
import Libhs.HandOver

/-!
# Reading services of IOKit

What `process_darwin_device` makes (`processDarwinDevice_makes`), and that a plain
enumeration leaves the monitor alone (`enumerate_spec`).
-/

namespace Libhs.Darwin

/-! ## Reading a device -/

/-- What reading a service gives. -/
def ReadOs.read (os : ReadOs) : Except Int HsDevice :=
  if os.iface && os.device then makeResult os.callocOk (fillDarwinDevice os) else .error 0

/-- The fields of a device that was read. -/
structure ReadDevice (os : ReadOs) (session : UInt64) (dev : HsDevice) : Prop
    extends Made (sessionKey session) dev where
  session : os.sessionID = some session
  iface : os.interfaceNumber = some dev.iface

theorem getPropertyString_yields (s : StringProperty) :
    Yields (getPropertyString s) fun _ => True := by
  cases s with
  | ok s => trivial
  | error err => exact hsError_nonpos err none

theorem resolveDeviceLocation_yields (os : ReadOs) :
    Yields (resolveDeviceLocation os) fun _ => True := by
  have hz := Int.le_refl 0
  refine (orReturn_yields hz _).bind fun _ _ => ?_
  refine (orReturn_yields hz _).bind fun _ _ => ?_
  refine (orReturn_yields hz _).bind fun _ _ => ?_
  exact (orReturn_yields (hsError_nonpos .memory none) os.locationOk).bind fun _ _ => trivial

theorem findDeviceNode_yields (node : Node) : Yields (findDeviceNode node) fun _ => True := by
  cases node with
  | serial calloutDevice =>
    refine (getPropertyString_yields calloutDevice).bind fun path _ => ?_
    exact (someOrReturn_yields path).bind fun _ _ => trivial
  | hid path =>
    cases path with
    | ok path => trivial
    | error err => exact hsError_nonpos err none
  | other => exact Int.le_refl 0

theorem fillDarwinDevice_yields (os : ReadOs) :
    Yields (fillDarwinDevice os blankDevice) fun D => ∃ session, ReadDevice os session D := by
  refine (someOrReturn_yields os.sessionID).bind fun session hsession => ?_
  refine (someOrReturn_yields os.idVendor).bind fun vid _ => ?_
  refine (someOrReturn_yields os.idProduct).bind fun pid _ => ?_
  refine (someOrReturn_yields os.interfaceNumber).bind fun iface hiface => ?_
  refine (orReturn_yields (hsError_nonpos .memory none) os.keyOk).bind fun _ _ => ?_
  refine (getPropertyString_yields os.vendorName).bind fun _ _ => ?_
  refine (getPropertyString_yields os.productName).bind fun _ _ => ?_
  refine (getPropertyString_yields os.serialNumber).bind fun _ _ => ?_
  refine (resolveDeviceLocation_yields os).bind fun _ _ => ?_
  refine (findDeviceNode_yields os.node).bind fun _ _ => ?_
  exact ⟨session, ⟨rfl, rfl, rfl, Option.some_ne_none _⟩, hsession, hiface⟩

theorem read_ok {os : ReadOs} {D : HsDevice} (h : os.read = .ok D) :
    ∃ session, ReadDevice os session D := by
  have hy := fillDarwinDevice_yields os
  unfold ReadOs.read makeResult at h
  split at h
  · split at h
    · rwa [h] at hy
    · cases h
  · cases h

theorem processDarwinDevice_makes (os : ReadOs) : Makes (processDarwinDevice os) os.read := by
  unfold processDarwinDevice ReadOs.read
  cases os.iface && os.device with
  | false => exact makes_nothing (Int.le_refl 0)
  | true =>
    refine makes_of_fill ?_
    have hy := fillDarwinDevice_yields os
    cases hfill : fillDarwinDevice os blankDevice with
    | error e =>
      rw [hfill] at hy
      exact hy
    | ok D =>
      rw [hfill] at hy
      obtain ⟨session, hD⟩ := hy
      exact ⟨sessionKey session, hD.toMade⟩

/-! ## Plain enumeration -/

variable {u : User} {w w' : World} {mon : Option Nat} {R R' : Roster} {f : Nat}

theorem processIteratorDevices_eq (f : EnumCallback) (it : List ReadOs) (w : World) :
    processIteratorDevices f it w = handEach f (it.map processDarwinDevice) w := by
  induction it generalizing w with
  | nil => rfl
  | cons os it ih =>
    simp only [processIteratorDevices, processService, List.map_cons, handEach, ih]

/-- Reading the services of a class, and what that gives. An iterator that cannot be had ends the
enumeration. -/
def EnumOs.made (os : EnumOs) (c : DeviceClass) :
    List ((World → Option ((Int × Option Nat) × World)) × Except Int HsDevice) :=
  match os.matching c with
  | none => [(fun w =>
        some ((hsError .system (some "IOServiceGetMatchingServices('%s') failed"), none), w),
      .error (hsError .system (some "IOServiceGetMatchingServices('%s') failed")))]
  | some it => it.map fun x => (processDarwinDevice x, x.read)

theorem made_makes (os : EnumOs) (c : DeviceClass) : ∀ z ∈ os.made c, Makes z.1 z.2 := by
  intro z hz
  unfold EnumOs.made at hz
  split at hz
  · rw [List.mem_singleton.mp hz]
    exact makes_nothing (hsError_nonpos _ _)
  · obtain ⟨x, -, rfl⟩ := List.mem_map.mp hz
    exact processDarwinDevice_makes x

theorem enumerateClasses_eq (f : EnumCallback) (os : EnumOs) (classes : List DeviceClass)
    (w : World) : enumerateClasses f os classes w =
      handEach f ((classes.flatMap os.made).map Prod.fst) w := by
  induction classes generalizing w with
  | nil => rfl
  | cons c classes ih =>
    rw [List.flatMap_cons, List.map_append, handEach_append]
    unfold EnumOs.made
    cases hm : os.matching c with
    | none =>
      have hneg := hsError_neg .system (some "IOServiceGetMatchingServices('%s') failed")
      simp [enumerateClasses, hm, handEach, handOver, Int.le_of_lt hneg, hneg.ne]
    | some it =>
      simp only [enumerateClasses, hm, processIteratorDevices_eq, ih, List.map_map]
      rfl

/-- A plain enumeration gets to no device that it can read. -/
def EnumOs.findsNone (os : EnumOs) : Prop :=
  os.controllers = none → FindsNone ((deviceClasses.flatMap os.made).map Prod.snd)

/-- `hs_enumerate` with a callback of the user leaves the monitor alone. -/
theorem enumerate_spec (hu : u.limit ≤ uintMod) (hb : Bound mon w R) (f : Nat) (os : EnumOs) :
    ∃ r w' R', hsEnumerate (userEnumerate u f) os w = some (r, w') ∧ Bound mon w' R' ∧
      w'.busy = w.busy ∧ R.Keeps R' ∧ (os.findsNone → R'.log = R.log) := by
  refine classes_user_spec (f := f) hu hb (made_makes os) (fun err hc => ?_) fun hc => ?_
  · simp only [hsEnumerate, hc]
  · simp only [hsEnumerate, hc, enumerateClasses_eq]

end Libhs.Darwin
