import Libhs.Lib.Cells
import Libhs.Controllers
import Libhs.Location
import Libhs.Darwin.EnumerateSpec

/-!
# `resolve_device_location` of `monitor_darwin.c`

The function climbs from the device to the host controller and notes the port number of each
service on the way in an array of sixteen. `resolveDeviceLocation_spec` gives its result for every
chain of services, and `resolveDeviceLocation_reads` shows that this is the result that
`process_darwin_device` was modelled with.
-/

namespace Libhs.Darwin.IORegistry

/-! ## Definitions -/

/-- What the system answers about a service: its property `port` (data, new stack) or `PortNum` (a
number, old stack), its path, and whether it is a host controller. -/
structure Service where
  port : Option (List UInt8)
  portNum : Option Int
  path : Option CStr
  hostController : Bool

/-- How `resolve_device_location` ends: with a result and what it sets `*rlocation` to, or with a
write behind the array. -/
inductive Resolution
  | returned (r : Int) (location : Option CStr)
  | overrun
deriving DecidableEq

/-- `!!get_ioregistry_value_data(..., &ports[depth], 1)`. -/
def getIoregistryValueData (data : Option (List UInt8)) (depth : Nat) (ports : Vector UInt8 16) :
    Option (Nat × Vector UInt8 16) :=
  match data with
  | none => some (0, ports)
  | some [] => some (0, ports)
  | some (b :: _) => (Cells.put ports depth b).map fun ports => (1, ports)

/-- `get_ioregistry_value_number(..., kCFNumberSInt8Type, &ports[depth])`. -/
def getIoregistryValueNumber (number : Option Int) (depth : Nat) (ports : Vector UInt8 16) :
    Option (Nat × Vector UInt8 16) :=
  match number with
  | none => some (0, ports)
  | some n => (Cells.put ports depth (UInt8.ofInt n)).map fun ports =>
      (if -128 ≤ n ∧ n ≤ 127 then 1 else 0, ports)

/-- The property that the USB stack has. -/
def readPort (newStack : Bool) (service : Service) (depth : Nat) (ports : Vector UInt8 16) :
    Option (Nat × Vector UInt8 16) :=
  if newStack then getIoregistryValueData service.port depth ports
  else getIoregistryValueNumber service.portNum depth ports

/-- `find_controller`; there is no path of no service. -/
def findController (controllers : List UsbController) (service : Option Service) : UInt8 :=
  match service.bind Service.path with
  | none => 0
  | some path => Libhs.findController controllers path

/-- The function behind the loop, which ends on `service`. -/
def finishLocation (controllers : List UsbController) (buf : CharBuf 256) (strdupOk : Bool)
    (service : Option Service) (depth : Nat) (ports : Vector UInt8 16) : Resolution :=
  if depth = 0 then .returned 0 none
  else
    match Cells.put ports depth (findController controllers service) with
    | none => .overrun
    | some ports =>
      if findController controllers service = 0 then .returned 0 none
      else
        match Cells.reverseFirst (depth + 1) ports with
        | none => .overrun
        | some ports =>
          match buildLocationString buf strdupOk (ports.toList.take (depth + 1)) with
          | none => .overrun
          | some (.error r) => .returned r none
          | some (.ok location) => .returned 1 (some location)

/-- The loop of the function; there is no parent where the list of ancestors ends. -/
def climb (newStack : Bool) (controllers : List UsbController) (buf : CharBuf 256)
    (strdupOk : Bool) : Service → List Service → Nat → Vector UInt8 16 → Resolution
  | service, above, depth, ports =>
    match readPort newStack service depth ports with
    | none => .overrun
    | some (n, ports) =>
      if depth + n = 16 then .returned 0 none
      else
        match above with
        | [] => finishLocation controllers buf strdupOk none (depth + n) ports
        | parent :: above =>
          if parent.hostController then
            finishLocation controllers buf strdupOk (some parent) (depth + n) ports
          else climb newStack controllers buf strdupOk parent above (depth + n) ports

/-- `resolve_device_location`, on the service of the device and its ancestors; `ports` and `buf` are
the arrays on the stack. -/
def resolveDeviceLocation (newStack : Bool) (controllers : List UsbController) (buf : CharBuf 256)
    (strdupOk : Bool) (service : Service) (above : List Service) (ports : Vector UInt8 16) :
    Resolution :=
  climb newStack controllers buf strdupOk service above 0 ports

/-! ## The chain -/

/-- The port number of the service, if it has one. -/
def portOf (newStack : Bool) (service : Service) : List UInt8 :=
  if newStack then (service.port.getD []).take 1
  else
    match service.portNum with
    | none => []
    | some n => if -128 ≤ n ∧ n ≤ 127 then [UInt8.ofInt n] else []

/-- The port numbers of the chain from the device up, and the host controller above them. -/
def survey (newStack : Bool) : Service → List Service → List UInt8 × Option Service
  | service, [] => (portOf newStack service, none)
  | service, parent :: above =>
    if parent.hostController then (portOf newStack service, some parent)
    else (portOf newStack service ++ (survey newStack parent above).1,
      (survey newStack parent above).2)

/-- The chain has a location: fewer than sixteen ports, at least one, and a controller that is
known. -/
def HasLocation (controllers : List UsbController) (chain : List UInt8 × Option Service) : Prop :=
  chain.1.length < 16 ∧ chain.1 ≠ [] ∧ findController controllers chain.2 ≠ 0

instance (controllers : List UsbController) (chain : List UInt8 × Option Service) :
    Decidable (HasLocation controllers chain) := inferInstanceAs (Decidable (_ ∧ _))

/-- That location. -/
def locationOf (controllers : List UsbController) (chain : List UInt8 × Option Service) : CStr :=
  locationString (findController controllers chain.2 :: chain.1.reverse)

/-- What the function returns for the chain. -/
def resultOf (controllers : List UsbController) (strdupOk : Bool)
    (chain : List UInt8 × Option Service) : Resolution :=
  if HasLocation controllers chain then
    if strdupOk then .returned 1 (some (locationOf controllers chain))
    else .returned (hsError .memory none) none
  else .returned 0 none

/-! ## One service -/

section Step
variable {newStack strdupOk : Bool} {controllers : List UsbController} {buf : CharBuf 256}
  {service : Service} {found : List UInt8} {ports : Vector UInt8 16}

open Cells

theorem readPort_spec (newStack : Bool) (service : Service) (hf : Fills ports found)
    (hlt : found.length < 16) :
    ∃ ports', readPort newStack service found.length ports =
        some ((portOf newStack service).length, ports') ∧
      Fills ports' (found ++ portOf newStack service) := by
  unfold readPort portOf
  cases newStack with
  | true =>
    cases hd : service.port with
    | none => exact ⟨ports, rfl, by simpa using hf⟩
    | some data =>
      cases data with
      | nil => exact ⟨ports, rfl, by simpa using hf⟩
      | cons b data =>
        obtain ⟨ports', hp⟩ := put_of_lt ports b hlt
        exact ⟨ports', by simp [getIoregistryValueData, hp], by simpa using hf.put hp⟩
  | false =>
    cases hn : service.portNum with
    | none => exact ⟨ports, rfl, by simpa using hf⟩
    | some n =>
      obtain ⟨ports', hp⟩ := put_of_lt ports (UInt8.ofInt n) hlt
      by_cases hr : -128 ≤ n ∧ n ≤ 127
      · exact ⟨ports', by simp [getIoregistryValueNumber, hp, hr], by simpa [hr] using hf.put hp⟩
      · exact ⟨ports', by simp [getIoregistryValueNumber, hp, hr],
          by simpa [hr] using hf.put_behind hp⟩

/-- The end of the function, with room for the controller. -/
theorem finishLocation_spec (hf : Fills ports found) (hlt : found.length < 16)
    (last : Option Service) :
    finishLocation controllers buf strdupOk last found.length ports =
      resultOf controllers strdupOk (found, last) := by
  by_cases h0 : found = []
  · have hno : ¬ HasLocation controllers (found, last) := fun h => h.2.1 h0
    rw [resultOf, if_neg hno, finishLocation, if_pos (by rw [h0]; rfl)]
  have hlen : found.length ≠ 0 := fun h => h0 (List.length_eq_zero_iff.mp h)
  obtain ⟨ports', hp⟩ := put_of_lt ports (findController controllers last) hlt
  simp only [finishLocation, if_neg hlen, hp]
  by_cases hc : findController controllers last = 0
  · have hno : ¬ HasLocation controllers (found, last) := fun h => h.2.2 hc
    rw [resultOf, if_neg hno, if_pos hc]
  · obtain ⟨array, ha, hr⟩ := reverseFirst_spec (hf.put hp)
    rw [List.length_append, List.length_singleton] at ha
    rw [List.reverse_append, List.reverse_singleton, List.singleton_append] at hr
    have htake := hr.take
    rw [List.length_cons, List.length_reverse] at htake
    have hyes : HasLocation controllers (found, last) := ⟨hlt, h0, hc⟩
    have hroom : (locationOf controllers (found, last)).bytes.length < 256 := by
      have hb := portBytes_length (findController controllers last :: found.reverse)
      rw [List.length_cons, List.length_reverse] at hb
      have husb : (ascii "usb").length = 3 := rfl
      rw [locationOf, locationString_bytes, List.length_append, husb]
      exact Nat.lt_of_le_of_lt (Nat.add_le_add_left hb 3) (by omega)
    simp only [if_neg hc, ha, htake]
    rw [buildLocationString_spec, resultOf, if_pos hyes]
    rw [locationOf] at hroom ⊢
    rw [if_pos hroom]
    cases strdupOk with
    | true => rfl
    | false => rfl

end Step

/-! ## The function -/

section Climb
variable {newStack strdupOk : Bool} {controllers : List UsbController} {buf : CharBuf 256}
  {service : Service} {above : List Service} {found : List UInt8} {ports : Vector UInt8 16}

open Cells

theorem survey_starts (newStack : Bool) (service : Service) (above : List Service) :
    portOf newStack service <+: (survey newStack service above).1 := by
  cases above with
  | nil => exact List.prefix_refl _
  | cons parent above =>
    rw [survey]
    split
    · exact List.prefix_refl _
    · exact List.prefix_append _ _

/-- With sixteen ports there is no location. -/
theorem resultOf_full (hfull : (found ++ portOf newStack service).length = 16) :
    resultOf controllers strdupOk
      (found ++ (survey newStack service above).1, (survey newStack service above).2) =
        .returned 0 none := by
  have hle := (survey_starts newStack service above).length_le
  have hno : ¬ HasLocation controllers
      (found ++ (survey newStack service above).1, (survey newStack service above).2) := by
    intro h
    have h16 := h.1
    rw [List.length_append] at hfull h16
    omega
  rw [resultOf, if_neg hno]

/-- The loop, behind the ports `found`. -/
theorem climb_spec (hf : Fills ports found) (hlt : found.length < 16) :
    climb newStack controllers buf strdupOk service above found.length ports =
      resultOf controllers strdupOk
        (found ++ (survey newStack service above).1, (survey newStack service above).2) := by
  induction above generalizing service found ports with
  | nil =>
    obtain ⟨ports', hr, hf'⟩ := readPort_spec newStack service hf hlt
    rw [climb, hr]
    simp only [← List.length_append]
    split
    · next hfull => exact (resultOf_full hfull).symm
    · next hroom => exact finishLocation_spec hf' (Nat.lt_of_le_of_ne hf'.length_le hroom) none
  | cons parent above ih =>
    obtain ⟨ports', hr, hf'⟩ := readPort_spec newStack service hf hlt
    rw [climb, hr]
    simp only [← List.length_append]
    split
    · next hfull => exact (resultOf_full hfull).symm
    · next hroom =>
      have hlt' := Nat.lt_of_le_of_ne hf'.length_le hroom
      rw [survey]
      split
      · exact finishLocation_spec hf' hlt' (some parent)
      · rw [ih hf' hlt', List.append_assoc]

/-- The result for every chain, which never comes with a write behind the array. -/
theorem resolveDeviceLocation_spec (newStack : Bool) (controllers : List UsbController)
    (buf : CharBuf 256) (strdupOk : Bool) (service : Service) (above : List Service)
    (ports : Vector UInt8 16) :
    resolveDeviceLocation newStack controllers buf strdupOk service above ports =
      resultOf controllers strdupOk (survey newStack service above) := by
  have hf : Fills ports [] := fills_nil
  exact climb_spec hf (Nat.zero_lt_succ _)

/-- The ports and the controller of the model of `process_darwin_device` are those of the chain. -/
theorem resolveDeviceLocation_reads (newStack : Bool) (controllers : List UsbController)
    (buf : CharBuf 256) (service : Service) (above : List Service) (ports : Vector UInt8 16)
    (os : ReadOs) (hports : os.ports = (survey newStack service above).1)
    (hc : os.controller = findController controllers (survey newStack service above).2) :
    resolveDeviceLocation newStack controllers buf os.locationOk service above ports =
      match Darwin.resolveDeviceLocation os with
      | .ok location => .returned 1 (some location)
      | .error r => .returned r none := by
  rw [resolveDeviceLocation_spec]
  simp only [resultOf, HasLocation, locationOf, ← hports, ← hc, Darwin.resolveDeviceLocation]
  by_cases hlt : os.ports.length < 16
  · by_cases hne : os.ports = []
    · simp [hne, orReturn, bind, Except.bind]
    · by_cases h0 : os.controller = 0
      · simp [hlt, hne, h0, orReturn, bind, Except.bind]
      · cases hl : os.locationOk with
        | true => simp [hlt, hne, h0, orReturn, bind, Except.bind, pure, Except.pure]
        | false => simp [hlt, hne, h0, orReturn, bind, Except.bind]
  · simp [hlt, orReturn, bind, Except.bind]

end Climb

theorem findController_ne_zero_iff {controllers : List UsbController} {service : Option Service}
    (hidx : ∀ c ∈ controllers, c.index ≠ 0) :
    findController controllers service ≠ 0 ↔
      ∃ c ∈ controllers, service.bind Service.path = some c.name := by
  unfold findController
  cases service.bind Service.path with
  | none => exact iff_of_false (fun h => h rfl) (by simp)
  | some path => simpa using Libhs.findController_ne_zero_iff hidx

/-- In a list that `populate_controllers` made, whatever its calls were answered. -/
theorem findController_populated_iff {controllers : List UsbController} {mac : List (Option CStr)}
    {calls : List PopulateOs}
    (h : Run.run (populateStep (Darwin.populateControllers mac)) [] calls = some controllers)
    (service : Option Service) :
    findController controllers service ≠ 0 ↔
      ∃ c ∈ controllers, service.bind Service.path = some c.name :=
  findController_ne_zero_iff (populateControllers_nonzero h)

/-- For every chain, on either stack, the function stays in its array and returns 1 with the
location if there are ports, fewer than sixteen, and a host controller of the list above them; it
returns 0 without one in every other case. -/
theorem resolveDeviceLocation_complete (newStack : Bool) (controllers : List UsbController)
    (buf : CharBuf 256) (service : Service) (above : List Service) (ports : Vector UInt8 16)
    (hidx : ∀ c ∈ controllers, c.index ≠ 0) :
    ∃ r location,
      resolveDeviceLocation newStack controllers buf true service above ports =
        .returned r location ∧
      (r = 1 ↔ (survey newStack service above).1.length < 16 ∧
        (survey newStack service above).1 ≠ [] ∧
        ∃ c ∈ controllers, (survey newStack service above).2.bind Service.path = some c.name) ∧
      (r = 1 → location = some (locationString
        (findController controllers (survey newStack service above).2 ::
          (survey newStack service above).1.reverse))) ∧
      (r ≠ 1 → r ≤ 0 ∧ location = none) := by
  rw [resolveDeviceLocation_spec, ← findController_ne_zero_iff hidx, resultOf, if_pos rfl]
  by_cases h : HasLocation controllers (survey newStack service above)
  · rw [if_pos h]
    exact ⟨1, _, rfl, iff_of_true rfl h, fun _ => rfl, fun hne => absurd rfl hne⟩
  · rw [if_neg h]
    exact ⟨0, none, rfl, iff_of_false (by decide) h, fun h1 => absurd h1 (by decide),
      fun _ => ⟨Int.le_refl 0, rfl⟩⟩

/-- A hub port below a hub port below the host controller 2. -/
theorem resolveDeviceLocation_complete_two :
    ∃ r location,
      resolveDeviceLocation true [⟨2, .lit "/xhci"⟩]
          ⟨List.replicate 256 0, List.length_replicate⟩ true ⟨some [4, 0, 0, 0], none, none, false⟩
          [⟨none, none, none, false⟩, ⟨some [1, 0, 0, 0], none, none, false⟩,
            ⟨none, none, some (.lit "/xhci"), true⟩] (Vector.replicate 16 0) =
        .returned r location ∧ r = 1 ∧ location = some (.lit "usb-2-1-4") := by
  obtain ⟨r, location, he, h1, hloc, -⟩ := resolveDeviceLocation_complete true
    [⟨2, .lit "/xhci"⟩] ⟨List.replicate 256 0, List.length_replicate⟩
    ⟨some [4, 0, 0, 0], none, none, false⟩
    [⟨none, none, none, false⟩, ⟨some [1, 0, 0, 0], none, none, false⟩,
      ⟨none, none, some (.lit "/xhci"), true⟩] (Vector.replicate 16 0) (by decide)
  have hr : r = 1 := h1.mpr (by decide)
  exact ⟨r, location, he, hr, (hloc hr).trans (by decide)⟩

end Libhs.Darwin.IORegistry
