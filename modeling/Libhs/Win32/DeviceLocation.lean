import Libhs.Lib.Cells
import Libhs.Controllers
import Libhs.Location
import Libhs.Win32.HubPorts
import Libhs.Win32.Enumerate

/-!
# `resolve_device_location` of `monitor_win32.c`

The function climbs from the device to the root hub and notes the port number of each node on the
way in an array of eight.

Results:
1. `resolveDeviceLocation_bounds_iff`: the array is full before the controller is put behind the
   ports if the eighth port is found on the node below the root hub.
2. `resolveDeviceLocation_tells_iff`: a chain that ends before any root hub leaves the loop like a
   chain that reached one, and the ports found so far are taken for a location.
-/

namespace Libhs.Win32

/-! ## Definitions -/

/-- What the system answers about a device node: `deviceId` to `CM_Get_Device_ID`, `location` and
`driver` to `CM_Get_DevNode_Registry_Property`, and `hub` when the node is asked as a hub. -/
structure NodeOs where
  deviceId : Option CStr
  location : Option CStr
  driver : Option CStr
  hub : HubOs

/-- `isspace`. -/
def isSpace (b : UInt8) : Bool := b = 0x20 || (0x09 ≤ b && b ≤ 0x0D)

/-- `%04hhu`: at most four characters behind the white space, modulo 256. -/
def scanHhu (s : List UInt8) : Option UInt8 :=
  let s := (s.dropWhile isSpace).take 4
  let number := if s.head? = some 0x2D ∨ s.head? = some 0x2B then s.tail else s
  let digits := number.takeWhile fun b => 0x30 ≤ b && b ≤ 0x39
  if digits = [] then none
  else some (if s.head? = some 0x2D then -decimalValue digits else decimalValue digits)

/-- `find_device_port_vista`. -/
def findDevicePortVista (inst : NodeOs) : UInt8 :=
  match inst.location with
  | none => 0
  | some buf =>
    if (ascii "Port_#").isPrefixOf buf.bytes then (scanHhu (buf.bytes.drop 6)).getD 0 else 0

/-- The port number of `inst` below `parent`, or what the function returns instead; no value when
the search does not end. -/
def findDevicePort (vista : Bool) (inst parent : NodeOs) : Option (Except Int UInt8) :=
  if vista then some (.ok (findDevicePortVista inst))
  else
    match inst.driver with
    | none => some (.error 0)
    | some childKey =>
      (findDevicePortXp parent.hub childKey 256).map fun r =>
        if r < 0 then .error r else .ok (UInt8.ofNat r.toNat)

/-- `MAX_USB_DEPTH`. -/
def maxUsbDepth : Nat := 8

/-- How `resolve_device_location` ends: with a result and the array, with a write behind the array,
or not at all. -/
inductive Resolution
  | returned (r : Int) (ports : Vector UInt8 maxUsbDepth)
  | overrun
  | hangs
deriving DecidableEq

/-- `if (r) ports[depth++] = r;` -/
def notePort (port : UInt8) (depth : Nat) (ports : Vector UInt8 maxUsbDepth) :
    Option (Nat × Vector UInt8 maxUsbDepth) :=
  if port = 0 then some (depth, ports)
  else (Cells.put ports depth port).map fun ports => (depth + 1, ports)

/-- The end of the function, behind the loop. -/
def reversePorts (depth : Nat) (ports : Vector UInt8 maxUsbDepth) : Resolution :=
  match Cells.reverseFirst depth ports with
  | none => .overrun
  | some ports => .returned depth ports

/-- `strstr(id, "\\ROOT_HUB")`. -/
def isRootHub (id : CStr) : Bool := (strstr (ascii "\\ROOT_HUB") id.bytes).isSome

/-- The branch of the loop for the root hub. -/
def addRootHub (controllers : List UsbController) (id : CStr) (depth : Nat)
    (ports : Vector UInt8 maxUsbDepth) : Resolution :=
  if depth = 0 then .returned 0 ports
  else
    match Cells.put ports depth (findController controllers id) with
    | none => .overrun
    | some ports =>
      if findController controllers id = 0 then .returned 0 ports
      else reversePorts (depth + 1) ports

/-- The first loop: the USB node and its ancestors, unless the function returns 0. -/
def skipToUsb : NodeOs → List NodeOs → Option (NodeOs × List NodeOs)
  | _, [] => none
  | inst, parent :: above =>
    match inst.deviceId with
    | none => none
    | some id =>
      if (ascii "USB\\").isPrefixOf id.bytes then some (inst, parent :: above)
      else skipToUsb parent above

/-- The second loop; `CM_Get_Parent` fails where the list of ancestors ends. -/
def climb (vista : Bool) (controllers : List UsbController) :
    NodeOs → List NodeOs → Nat → Vector UInt8 maxUsbDepth → Resolution
  | _, [], depth, ports => reversePorts depth ports
  | inst, parent :: above, depth, ports =>
    if depth = maxUsbDepth then .returned 0 ports
    else
      match parent.deviceId with
      | none => .returned 0 ports
      | some id =>
        match findDevicePort vista inst parent with
        | none => .hangs
        | some (.error r) => .returned r ports
        | some (.ok port) =>
          match notePort port depth ports with
          | none => .overrun
          | some (depth, ports) =>
            if isRootHub id then addRootHub controllers id depth ports
            else climb vista controllers parent above depth ports

/-- `resolve_device_location`, on the node of the device and its ancestors. -/
def resolveDeviceLocation (vista : Bool) (controllers : List UsbController) (inst : NodeOs)
    (above : List NodeOs) (ports : Vector UInt8 maxUsbDepth) : Resolution :=
  match skipToUsb inst above with
  | none => .returned 0 ports
  | some (inst, above) => climb vista controllers inst above 0 ports

/-! ## The chain -/

/-- How a chain of ancestors ends: with the root hub, given the port of the node below it and its
id, without one, with a call that makes the function return, or with a search that does not end. -/
inductive Ending
  | rootHub (port : UInt8) (id : CStr)
  | top
  | stopped (r : Int)
  | hangs

/-- A port number, unless it is 0. -/
def nonzero (port : UInt8) : List UInt8 := if port = 0 then [] else [port]

/-- The non-zero port numbers of the chain from the USB node up, without the node below the root
hub, and how the chain ends. -/
def survey (vista : Bool) : NodeOs → List NodeOs → List UInt8 × Ending
  | _, [] => ([], .top)
  | inst, parent :: above =>
    match parent.deviceId with
    | none => ([], .stopped 0)
    | some id =>
      match findDevicePort vista inst parent with
      | none => ([], .hangs)
      | some (.error r) => ([], .stopped r)
      | some (.ok port) =>
        if isRootHub id then ([], .rootHub port id)
        else (nonzero port ++ (survey vista parent above).1, (survey vista parent above).2)

/-- All non-zero port numbers of the chain. -/
def portsOf : List UInt8 × Ending → List UInt8
  | (ports, .rootHub port _) => ports ++ nonzero port
  | (ports, _) => ports

/-- The location that the chain gives the device: the index of the controller and the ports down to
the device. -/
def locate (controllers : List UsbController) : List UInt8 × Ending → Option (List UInt8)
  | (ports, .rootHub port id) =>
    if ports ++ nonzero port ≠ [] ∧ findController controllers id ≠ 0 then
      some (findController controllers id :: (ports ++ nonzero port).reverse)
    else none
  | (_, _) => none

/-- The result tells the location: the ports if there is one, and a value that is not positive if
there is none. -/
def Tells (result : Resolution) : Option (List UInt8) → Prop
  | some ports => ∃ array, result = .returned ports.length array ∧
      array.toList.take ports.length = ports
  | none => ∃ r array, result = .returned r array ∧ r ≤ 0

/-! ## One iteration -/

section Step
variable {vista : Bool} {controllers : List UsbController} {inst parent : NodeOs}
  {above : List NodeOs} {found : List UInt8} {ports : Vector UInt8 maxUsbDepth} {port : UInt8}
  {id : CStr}

open Cells

theorem findDevicePort_nonpos {r : Int} (h : findDevicePort vista inst parent = some (.error r)) :
    r ≤ 0 := by
  unfold findDevicePort at h
  split at h
  · cases h
  · cases hd : inst.driver with
    | none =>
      rw [hd] at h
      cases h
      exact Int.le_refl 0
    | some childKey =>
      rw [hd] at h
      obtain ⟨a, _, ha⟩ := Option.map_eq_some_iff.mp h
      split at ha
      · next hneg =>
        cases ha
        exact Int.le_of_lt hneg
      · cases ha

theorem notePort_spec (port : UInt8) (hf : Fills ports found) (hlt : found.length < maxUsbDepth) :
    ∃ ports', notePort port found.length ports =
        some ((found ++ nonzero port).length, ports') ∧
      Fills ports' (found ++ nonzero port) := by
  by_cases h : port = 0
  · exact ⟨ports, by simp [notePort, nonzero, h], by simpa [nonzero, h] using hf⟩
  · obtain ⟨ports', hp⟩ := put_of_lt ports port hlt
    exact ⟨ports', by simp [notePort, nonzero, h, hp], by simpa [nonzero, h] using hf.put hp⟩

theorem reversePorts_spec (hf : Fills ports found) :
    ∃ array, reversePorts found.length ports = .returned found.length array ∧
      Fills array found.reverse := by
  obtain ⟨array, ha, hr⟩ := reverseFirst_spec hf
  exact ⟨array, by rw [reversePorts, ha], hr⟩

/-- With room for the controller, the root hub gives the location or 0. -/
theorem addRootHub_spec (controllers : List UsbController) (id : CStr) (hf : Fills ports found)
    (hlt : found.length < maxUsbDepth) :
    Tells (addRootHub controllers id found.length ports)
      (if found ≠ [] ∧ findController controllers id ≠ 0 then
        some (findController controllers id :: found.reverse) else none) := by
  by_cases h0 : found = []
  · rw [if_neg fun h => h.1 h0]
    exact ⟨0, ports, by simp [addRootHub, h0], Int.le_refl 0⟩
  have hlen : found.length ≠ 0 := fun h => h0 (List.length_eq_zero_iff.mp h)
  obtain ⟨ports', hp⟩ := put_of_lt ports (findController controllers id) hlt
  by_cases hc : findController controllers id = 0
  · rw [if_neg fun h => h.2 hc]
    refine ⟨0, ports', ?_, Int.le_refl 0⟩
    rw [addRootHub, if_neg hlen, hp]
    exact if_pos hc
  · rw [if_pos ⟨h0, hc⟩]
    obtain ⟨array, ha, hr⟩ := reversePorts_spec (hf.put hp)
    rw [List.reverse_append, List.reverse_singleton, List.singleton_append] at hr
    refine ⟨array, ?_, hr.take⟩
    rw [addRootHub, if_neg hlen, hp]
    refine (if_neg hc).trans ?_
    simpa using ha

/-- Without room for the controller, it is written behind the array. -/
theorem addRootHub_overrun (hlen : found.length = maxUsbDepth) :
    addRootHub controllers id found.length ports = .overrun := by
  have hp : put ports found.length (findController controllers id) = none :=
    put_none_iff.mpr (Nat.le_of_eq hlen.symm)
  rw [addRootHub, if_neg (by rw [hlen]; decide), hp]

theorem climb_full : climb vista controllers inst (parent :: above) maxUsbDepth ports =
    .returned 0 ports := by
  rw [climb, if_pos rfl]

end Step

/-! ## Bounds -/

section Climb
variable {vista : Bool} {controllers : List UsbController} {inst : NodeOs} {above : List NodeOs}
  {found : List UInt8} {ports : Vector UInt8 maxUsbDepth}

open Cells

/-- Seven ports are found below the node under the root hub, and an eighth one on that node. -/
def Overfull (chain : List UInt8 × Ending) : Prop :=
  chain.1.length = 7 ∧ ∃ port id, chain.2 = .rootHub port id ∧ port ≠ 0

theorem not_overfull {chain : List UInt8 × Ending}
    (h : ∀ port id, chain.2 = .rootHub port id → port = 0) : ¬ Overfull chain := by
  rintro ⟨_, port, id, he, hne⟩
  exact hne (h port id he)

/-- The function returns, with a value that its caller can index the array with, or does not. -/
def InBounds (result : Resolution) : Prop :=
  result ≠ .overrun ∧ ∀ r array, result = .returned r array → r ≤ maxUsbDepth

theorem inBounds_returned {r : Int} (h : r ≤ maxUsbDepth) : InBounds (.returned r ports) :=
  ⟨nofun, fun _ _ he => by
    cases he
    exact h⟩

theorem Tells.inBounds {result : Resolution} {location : Option (List UInt8)}
    (h : Tells result location) : InBounds result := by
  cases location with
  | none =>
    obtain ⟨r, array, rfl, hr⟩ := h
    exact inBounds_returned (hr.trans (by decide))
  | some ports =>
    obtain ⟨array, rfl, hp⟩ := h
    refine inBounds_returned (Int.ofNat_le.mpr ?_)
    have hlen := congrArg List.length hp
    rw [List.length_take, Vector.length_toList] at hlen
    omega

/-- The second loop stays in bounds exactly if the chain does not overfill the array; `found` is
what it has noted so far. -/
theorem climb_inBounds_iff (hf : Fills ports found) (hlen : found.length ≤ maxUsbDepth) :
    InBounds (climb vista controllers inst above found.length ports) ↔
      ¬ Overfull (found ++ (survey vista inst above).1, (survey vista inst above).2) := by
  induction above generalizing inst found ports with
  | nil =>
    obtain ⟨array, ha, _⟩ := reversePorts_spec hf
    rw [climb, ha]
    exact iff_of_true (inBounds_returned (Int.ofNat_le.mpr hlen)) (not_overfull nofun)
  | cons parent above ih =>
    by_cases hfull : found.length = maxUsbDepth
    · rw [hfull, climb_full]
      refine iff_of_true (inBounds_returned (by decide)) ?_
      rintro ⟨h7, _⟩
      rw [List.length_append, hfull] at h7
      exact absurd h7 (by simp only [maxUsbDepth]; omega)
    have hlt : found.length < maxUsbDepth := Nat.lt_of_le_of_ne hlen hfull
    rw [climb, if_neg hfull, survey]
    cases hid : parent.deviceId with
    | none => exact iff_of_true (inBounds_returned (by decide)) (not_overfull nofun)
    | some id =>
      cases hp : findDevicePort vista inst parent with
      | none => exact iff_of_true ⟨nofun, nofun⟩ (not_overfull nofun)
      | some answer =>
        cases answer with
        | error r =>
          exact iff_of_true (inBounds_returned ((findDevicePort_nonpos hp).trans (by decide)))
            (not_overfull nofun)
        | ok port =>
          obtain ⟨ports', hn, hf'⟩ := notePort_spec port hf hlt
          simp only [hn]
          cases hr : isRootHub id with
          | false =>
            have hlen' : (found ++ nonzero port).length ≤ maxUsbDepth := hf'.length_le
            simpa [List.append_assoc] using ih hf' hlen'
          | true =>
            simp only [if_true, List.append_nil]
            by_cases hroom : (found ++ nonzero port).length < maxUsbDepth
            · refine iff_of_true (addRootHub_spec controllers id hf' hroom).inBounds ?_
              rintro ⟨h7, port', id', he, hne⟩
              cases he
              rw [List.length_append, nonzero, if_neg hne, h7] at hroom
              exact absurd hroom (Nat.lt_irrefl 8)
            · have h8 : (found ++ nonzero port).length = maxUsbDepth :=
                Nat.le_antisymm hf'.length_le (Nat.not_lt.mp hroom)
              rw [addRootHub_overrun h8]
              refine iff_of_false (fun h => h.1 rfl) (not_not.mpr ?_)
              have hne : port ≠ 0 := by
                intro h0
                rw [nonzero, if_pos h0, List.append_nil] at h8
                exact hfull h8
              rw [List.length_append, nonzero, if_neg hne] at h8
              exact ⟨Nat.succ.inj h8, port, id, rfl, hne⟩

theorem portsOf_append (l ports : List UInt8) (e : Ending) :
    portsOf (l ++ ports, e) = l ++ portsOf (ports, e) := by
  cases e with
  | rootHub port id => exact List.append_assoc l ports (nonzero port)
  | top => rfl
  | stopped r => rfl
  | hangs => rfl

/-- The second loop tells the location of a chain with at most seven ports, unless the chain ends
before any root hub with ports found. -/
theorem climb_tells_iff (hf : Fills ports found)
    (hlen : (found ++ portsOf (survey vista inst above)).length ≤ 7)
    (hh : (survey vista inst above).2 ≠ .hangs) :
    Tells (climb vista controllers inst above found.length ports)
        (locate controllers (found ++ (survey vista inst above).1, (survey vista inst above).2)) ↔
      ¬ ((survey vista inst above).2 = .top ∧ found ++ (survey vista inst above).1 ≠ []) := by
  induction above generalizing inst found ports with
  | nil =>
    obtain ⟨array, ha, _⟩ := reversePorts_spec hf
    rw [climb, ha]
    constructor
    · rintro ⟨r, array', he, hr⟩ ⟨_, hne⟩
      cases he
      rw [survey, List.append_nil] at hne
      exact hne (List.length_eq_zero_iff.mp (Nat.le_zero.mp (Int.ofNat_le.mp hr)))
    · intro hno
      have h0 : found = [] := by
        by_contra hne
        exact hno ⟨rfl, by rwa [survey, List.append_nil]⟩
      exact ⟨_, array, rfl, by rw [h0]; exact Int.le_refl 0⟩
  | cons parent above ih =>
    have hlt : found.length < maxUsbDepth := by
      rw [List.length_append] at hlen
      exact Nat.lt_succ_of_le (Nat.le_trans (Nat.le_add_right _ _) hlen)
    have hfull : found.length ≠ maxUsbDepth := Nat.ne_of_lt hlt
    rw [survey] at hlen hh ⊢
    rw [climb, if_neg hfull]
    cases hid : parent.deviceId with
    | none => exact iff_of_true ⟨0, ports, rfl, Int.le_refl 0⟩ (fun h => nomatch h.1)
    | some id =>
      cases hp : findDevicePort vista inst parent with
      | none =>
        rw [hid, hp] at hh
        exact absurd rfl hh
      | some answer =>
        rw [hid, hp] at hlen hh
        cases answer with
        | error r =>
          exact iff_of_true ⟨r, ports, rfl, findDevicePort_nonpos hp⟩ (fun h => nomatch h.1)
        | ok port =>
          obtain ⟨ports', hn, hf'⟩ := notePort_spec port hf hlt
          simp only [hn] at hlen hh ⊢
          cases hr : isRootHub id with
          | false =>
            simp only [hr, if_false, Bool.false_eq_true] at hlen hh ⊢
            rw [portsOf_append, ← List.append_assoc] at hlen
            simpa [List.append_assoc] using ih hf' hlen hh
          | true =>
            simp only [hr, if_true] at hlen hh ⊢
            refine iff_of_true ?_ (fun h => nomatch h.1)
            have hroom : (found ++ nonzero port).length < maxUsbDepth := Nat.lt_succ_of_le hlen
            simpa [locate] using addRootHub_spec controllers id hf' hroom

end Climb

/-! ## The function -/

/-- What the chain of ancestors of the device holds from its USB node up. -/
def chain (vista : Bool) (inst : NodeOs) (above : List NodeOs) : List UInt8 × Ending :=
  match skipToUsb inst above with
  | none => ([], .stopped 0)
  | some (inst, above) => survey vista inst above

/-- For every chain, the function writes and returns within the bounds of the array exactly if the
chain does not overfill it. -/
theorem resolveDeviceLocation_bounds_iff (vista : Bool) (controllers : List UsbController)
    (inst : NodeOs) (above : List NodeOs) (ports : Vector UInt8 maxUsbDepth) :
    InBounds (resolveDeviceLocation vista controllers inst above ports) ↔
      ¬ Overfull (chain vista inst above) := by
  unfold resolveDeviceLocation chain
  cases skipToUsb inst above with
  | none => exact iff_of_true (inBounds_returned (by decide)) (not_overfull nofun)
  | some usb =>
    have hf : Cells.Fills ports [] := Cells.fills_nil
    exact climb_inBounds_iff hf (Nat.zero_le _)

/-- With at most seven ports, the function tells the location exactly if the chain does not end
before any root hub with ports found. -/
theorem resolveDeviceLocation_tells_iff (vista : Bool) (controllers : List UsbController)
    (inst : NodeOs) (above : List NodeOs) (ports : Vector UInt8 maxUsbDepth)
    (hlen : (portsOf (chain vista inst above)).length ≤ 7)
    (hh : (chain vista inst above).2 ≠ .hangs) :
    Tells (resolveDeviceLocation vista controllers inst above ports)
        (locate controllers (chain vista inst above)) ↔
      ¬ ((chain vista inst above).2 = .top ∧ (chain vista inst above).1 ≠ []) := by
  unfold resolveDeviceLocation
  unfold chain at hlen hh ⊢
  cases hs : skipToUsb inst above with
  | none => exact iff_of_true ⟨0, ports, rfl, Int.le_refl 0⟩ (fun h => h.2 rfl)
  | some usb =>
    rw [hs] at hlen hh
    have hf : Cells.Fills ports [] := Cells.fills_nil
    exact climb_tells_iff hf hlen hh

/-- A node of the USB tree with port 1. -/
def usbNode : NodeOs :=
  ⟨some (.lit "USB\\VID_1"), some (.lit "Port_#0001.Hub_#0002"), none,
    ⟨true, true, none, fun _ => unconnected⟩⟩

/-- A root hub. -/
def rootHubNode : NodeOs :=
  ⟨some (.lit "USB\\ROOT_HUB\\1"), none, none, ⟨true, true, none, fun _ => unconnected⟩⟩

theorem resolveDeviceLocation_tells_usbNode :
    Tells (resolveDeviceLocation true [⟨3, .lit "USB\\ROOT_HUB\\1"⟩] usbNode [rootHubNode]
      (Vector.replicate 8 0))
      (locate [⟨3, .lit "USB\\ROOT_HUB\\1"⟩] (chain true usbNode [rootHubNode])) ∧
    locate [⟨3, .lit "USB\\ROOT_HUB\\1"⟩] (chain true usbNode [rootHubNode]) = some [3, 1] :=
  ⟨(resolveDeviceLocation_tells_iff true [⟨3, .lit "USB\\ROOT_HUB\\1"⟩] usbNode [rootHubNode]
    (Vector.replicate 8 0) (by decide) nofun).mpr (fun h => nomatch h.1), by decide⟩

/-- Eight nodes with a port each below the root hub: the controller is the ninth entry. -/
theorem resolveDeviceLocation_overrun :
    ¬ InBounds (resolveDeviceLocation true [] usbNode (List.replicate 7 usbNode ++ [rootHubNode])
      (Vector.replicate 8 0)) :=
  fun h => h.1 (by decide)

/-- The chain ends above one hub: the port is taken for a location. -/
theorem resolveDeviceLocation_top :
    resolveDeviceLocation true [] usbNode [usbNode] (Vector.replicate 8 0) =
        .returned 1 (Vector.mk #[1, 0, 0, 0, 0, 0, 0, 0] rfl) ∧
      ¬ Tells (resolveDeviceLocation true [] usbNode [usbNode] (Vector.replicate 8 0))
        (locate [] (chain true usbNode [usbNode])) := by
  have he : resolveDeviceLocation true [] usbNode [usbNode] (Vector.replicate 8 0) =
      .returned 1 (Vector.mk #[1, 0, 0, 0, 0, 0, 0, 0] rfl) := by decide
  refine ⟨he, fun ht => ?_⟩
  obtain ⟨r, array, hr, hle⟩ : ∃ r array, resolveDeviceLocation true [] usbNode [usbNode]
      (Vector.replicate 8 0) = .returned r array ∧ r ≤ 0 := ht
  rw [he] at hr
  cases hr
  exact absurd hle (by decide)

/-! ## The caller -/

/-- What the function's caller goes on with: the first ports of the array, or a value to return. -/
def Resolution.answer : Resolution → Option (Except Int (List UInt8))
  | .returned r array => some (if r ≤ 0 then .error r else .ok (array.toList.take r.toNat))
  | _ => none

/-- `process_win32_device` gives a device the location that the result tells, and makes none
without it. -/
theorem fillWin32Device_location {os : ReadOs} {id : Option CStr} {dev dev' : HsDevice}
    {result : Resolution} {location : Option (List UInt8)} (ht : Tells result location)
    (hos : result.answer = some (os.ports.orCleanup.map Ports.list))
    (h : fillWin32Device os id dev = .ok dev') :
    ∃ ports, location = some ports ∧ dev'.location = some (locationString ports) := by
  unfold fillWin32Device at h
  obtain ⟨key, -, h⟩ := ok_of_bind h
  obtain ⟨-, -, h⟩ := ok_of_bind h
  obtain ⟨-, -, h⟩ := ok_of_bind h
  obtain ⟨node, -, h⟩ := ok_of_bind h
  obtain ⟨p, hp, h⟩ := ok_of_bind h
  obtain ⟨properties, -, h⟩ := ok_of_bind h
  obtain ⟨-, -, h⟩ := ok_of_bind h
  cases h
  rw [hp] at hos
  cases location with
  | none =>
    obtain ⟨r, array, rfl, hr⟩ := ht
    rw [Resolution.answer, if_pos hr] at hos
    cases hos
  | some ports =>
    obtain ⟨array, rfl, ha⟩ := ht
    rw [Resolution.answer] at hos
    split at hos
    · cases hos
    · rw [Int.toNat_natCast, ha] at hos
      cases hos
      exact ⟨_, rfl, rfl⟩

end Libhs.Win32
