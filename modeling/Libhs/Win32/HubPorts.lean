import Mathlib.Order.WellFounded
import Libhs.Bound

/-!
# Windows XP: asking a hub for the port of a device

`find_device_port_xp` reads the driver key of one port of the hub after another and compares it
with the one of the device.

Results:
1. `findDevicePortXp_exact_iff`: the variable `r` that is returned still holds what the last port
   answered, so a hub that does not have the device answers 0 only if its last port has no key.
2. `portLoop_ends_iff`: the port number is an 8-bit counter, so on a hub that declares 255 ports
   the loop passes the last one and starts again at 0; `portLoop_hangs`: it may never end.
-/

namespace Libhs.Win32

/-! ## Definitions -/

/-- What the system answers to `wide_to_cstring`. -/
structure WideOs where
  tmpOk : Bool
  lenOk : Bool
  sOk : Bool
  text : Option CStr

/-- `wide_to_cstring`. -/
def wideToCstring (os : WideOs) : Except Int CStr := do
  orReturn (hsError .memory none) os.tmpOk
  orReturn (hsError .system (some "Failed to convert UTF-16 string to local codepage: %s")) os.lenOk
  orReturn (hsError .memory none) os.sOk
  someOrReturn (hsError .system (some "Failed to convert UTF-16 string to local codepage: %s"))
    os.text

/-- What the system answers about one port: `connection` to
`IOCTL_USB_GET_NODE_CONNECTION_INFORMATION_EX` (whether a device is connected), `lengthOk` and
`nameOk` to the two `IOCTL_USB_GET_NODE_CONNECTION_DRIVERKEY_NAME`. -/
structure PortOs where
  nodeOk : Bool
  connection : Option Bool
  lengthOk : Bool
  wideOk : Bool
  nameOk : Bool
  driverKeyName : WideOs

/-- `get_port_driverkey`: the key, or the result when it is not 1. -/
def getPortDriverkey (os : PortOs) : Except Int CStr := do
  orReturn (hsError .memory none) os.nodeOk
  let connected ← someOrReturn 0 os.connection
  orReturn 0 connected
  orReturn 0 os.lengthOk
  orReturn (hsError .memory none) os.wideOk
  orReturn 0 os.nameOk
  wideToCstring os.driverKeyName

/-- What `find_device_port_xp` returns from the port; no value when it goes on to the next one. -/
def settle (os : PortOs) (childKey : CStr) (port : UInt8) : Option Int :=
  match getPortDriverkey os with
  | .error r => if r < 0 then some r else none
  | .ok key => if key = childKey then some port.toNat else none

/-- What the port leaves in `r`. -/
def leftInR (os : PortOs) : Int :=
  match getPortDriverkey os with
  | .error r => r
  | .ok _ => 1

/-- The loop of `find_device_port_xp`, for `fuel` iterations at most; no value when there would be
more. -/
def portLoop (hub : UInt8 → PortOs) (childKey : CStr) (count : UInt8) :
    Nat → UInt8 → Int → Option Int
  | 0, port, r => if port ≤ count then none else some r
  | fuel + 1, port, r =>
    if port ≤ count then
      match settle (hub port) childKey port with
      | some r => some r
      | none => portLoop hub childKey count fuel (port + 1) (leftInR (hub port))
    else some r

/-- What the system answers about a hub: `opened` tells that `CreateFile` did not return NULL,
`bNumberOfPorts` is read by `IOCTL_USB_GET_NODE_INFORMATION`. -/
structure HubOs where
  pathOk : Bool
  opened : Bool
  bNumberOfPorts : Option UInt8
  port : UInt8 → PortOs

/-- `find_device_port_xp`. -/
def findDevicePortXp (os : HubOs) (childKey : CStr) (fuel : Nat) : Option Int :=
  if !os.pathOk then some (hsError .memory none)
  else if !os.opened then
    some (hsError .system (some "Failed to open USB hub '%s': %s"))
  else
    match os.bNumberOfPorts with
    | none => some 0
    | some count => portLoop os.port childKey count fuel 1 0

/-- The port has the key of the device, or reading it fails. -/
def Settles (os : PortOs) (childKey : CStr) : Prop :=
  match getPortDriverkey os with
  | .error r => r < 0
  | .ok key => key = childKey

/-- What `find_device_port_xp` is for: the first port that has the key, the code of a failure
before it, or else 0. -/
structure PortFound (hub : UInt8 → PortOs) (childKey : CStr) (count : UInt8) (result : Int) :
    Prop where
  found : ∀ p, 1 ≤ p → p ≤ count → (∀ q, 1 ≤ q → q < p → ¬ Settles (hub q) childKey) →
    getPortDriverkey (hub p) = .ok childKey → result = p.toNat
  failed : ∀ p r, 1 ≤ p → p ≤ count → (∀ q, 1 ≤ q → q < p → ¬ Settles (hub q) childKey) →
    getPortDriverkey (hub p) = .error r → r < 0 → result = r
  absent : (∀ p, 1 ≤ p → p ≤ count → ¬ Settles (hub p) childKey) → result = 0

/-! ## One port -/

section Port
variable {os : PortOs} {childKey : CStr} {port : UInt8}

theorem getPortDriverkey_nonpos {r : Int} (h : getPortDriverkey os = .error r) : r ≤ 0 := by
  have hm : ∀ err fmt, hsError err fmt ≤ 0 := hsError_nonpos
  have hw : Yields (wideToCstring os.driverKeyName) fun _ => True := by
    refine Yields.bind (orReturn_yields (hm _ _) _) fun _ _ => ?_
    refine Yields.bind (orReturn_yields (hm _ _) _) fun _ _ => ?_
    refine Yields.bind (orReturn_yields (hm _ _) _) fun _ _ => ?_
    cases os.driverKeyName.text with
    | none => exact hm _ _
    | some text => trivial
  have hy : Yields (getPortDriverkey os) fun _ => True := by
    refine Yields.bind (orReturn_yields (hm _ _) _) fun _ _ => ?_
    refine Yields.bind (someOrReturn_yields _) fun _ _ => ?_
    refine Yields.bind (orReturn_yields (Int.le_refl 0) _) fun _ _ => ?_
    refine Yields.bind (orReturn_yields (Int.le_refl 0) _) fun _ _ => ?_
    refine Yields.bind (orReturn_yields (hm _ _) _) fun _ _ => ?_
    exact Yields.bind (orReturn_yields (Int.le_refl 0) _) fun _ _ => hw
  rw [h] at hy
  exact hy

theorem settle_none_iff : settle os childKey port = none ↔ ¬ Settles os childKey := by
  unfold settle Settles
  cases getPortDriverkey os with
  | error r => simp
  | ok key => simp

theorem leftInR_zero_iff : leftInR os = 0 ↔ getPortDriverkey os = .error 0 := by
  unfold leftInR
  cases getPortDriverkey os with
  | error r => simp
  | ok key => simp

theorem leftInR_le : leftInR os ≤ 1 := by
  unfold leftInR
  cases h : getPortDriverkey os with
  | error r => exact (getPortDriverkey_nonpos h).trans Int.one_nonneg
  | ok key => exact Int.le_refl 1

theorem settle_lt {a : Int} (h : settle os childKey port = some a) : a < 256 := by
  unfold settle at h
  cases hk : getPortDriverkey os with
  | error r =>
    rw [hk] at h
    have := getPortDriverkey_nonpos hk
    by_cases hr : r < 0
    · cases (if_pos hr).symm.trans h
      omega
    · cases (if_neg hr).symm.trans h
  | ok key =>
    rw [hk] at h
    have := port.toNat_lt
    by_cases he : key = childKey
    · cases (if_pos he).symm.trans h
      omega
    · cases (if_neg he).symm.trans h

end Port

/-! ## The loop -/

section Loop
variable {hub : UInt8 → PortOs} {childKey : CStr} {count p q : UInt8} {fuel : Nat} {r : Int}

theorem portLoop_done (h : ¬ p ≤ count) : portLoop hub childKey count fuel p r = some r := by
  cases fuel with
  | zero => rw [portLoop, if_neg h]
  | succ fuel => rw [portLoop, if_neg h]

theorem portLoop_settles (fuel : Nat) {a : Int} (h : p ≤ count)
    (hs : settle (hub p) childKey p = some a) :
    portLoop hub childKey count (fuel + 1) p r = some a := by
  rw [portLoop, if_pos h, hs]

theorem portLoop_next (h : p ≤ count) (hs : ¬ Settles (hub p) childKey) :
    portLoop hub childKey count (fuel + 1) p r =
      portLoop hub childKey count fuel (p + 1) (leftInR (hub p)) := by
  rw [portLoop, if_pos h, settle_none_iff.mpr hs]

theorem toNat_succ_of_lt (h : p < q) : (p + 1).toNat = p.toNat + 1 := by
  have := UInt8.lt_iff_toNat_lt.mp h
  have := q.toNat_lt
  rw [UInt8.toNat_add, UInt8.toNat_one]
  omega

/-- The result fits the `uint8_t` it is converted to, unless it is an error. -/
theorem portLoop_range {a : Int} (hr : r ≤ 1) (h : portLoop hub childKey count fuel p r = some a) :
    a < 256 := by
  induction fuel generalizing p r with
  | zero =>
    rw [portLoop] at h
    split at h
    · cases h
    · cases h
      omega
  | succ fuel ih =>
    by_cases hle : p ≤ count
    · rw [portLoop, if_pos hle] at h
      cases hs : settle (hub p) childKey p with
      | some b =>
        rw [hs] at h
        cases h
        exact settle_lt hs
      | none =>
        rw [hs] at h
        exact ih leftInR_le h
    · rw [portLoop_done hle] at h
      cases h
      omega

/-- The loop comes to every port with none before it that settles the search. -/
theorem portLoop_reaches (fuel : Nat) (r : Int) (hle : p ≤ q) (hq : q ≤ count)
    (hn : ∀ x, p ≤ x → x < q → ¬ Settles (hub x) childKey) :
    ∃ r', portLoop hub childKey count (fuel + (q.toNat - p.toNat)) p r =
      portLoop hub childKey count fuel q r' := by
  obtain ⟨k, hk⟩ : ∃ k, q.toNat - p.toNat = k := ⟨_, rfl⟩
  rw [hk]
  induction k generalizing p r with
  | zero =>
    have he : p = q := UInt8.le_antisymm hle (UInt8.le_iff_toNat_le.mpr (by omega))
    exact ⟨r, by rw [he, Nat.add_zero]⟩
  | succ k ih =>
    have hlt : p < q := UInt8.lt_iff_toNat_lt.mpr (by omega)
    have hs := toNat_succ_of_lt hlt
    have hle' : p + 1 ≤ q := UInt8.le_iff_toNat_le.mpr (by omega)
    obtain ⟨r', hr'⟩ := ih (p := p + 1) (r := leftInR (hub p)) hle'
      (fun x hx hxq => hn x (UInt8.le_iff_toNat_le.mpr (by
        have := UInt8.le_iff_toNat_le.mp hx
        omega)) hxq) (by omega)
    refine ⟨r', ?_⟩
    rw [← Nat.add_assoc, portLoop_next (UInt8.le_trans hle hq) (hn p (UInt8.le_refl p) hlt), hr']

theorem portLoop_from_one (fuel : Nat) (r : Int) (h1 : 1 ≤ q) (hq : q ≤ count)
    (hn : ∀ x, 1 ≤ x → x < q → ¬ Settles (hub x) childKey) :
    ∃ r', portLoop hub childKey count (fuel + count.toNat) 1 r =
      portLoop hub childKey count (fuel + (count.toNat - q.toNat) + 1) q r' := by
  have h1' : 1 ≤ q.toNat := UInt8.le_iff_toNat_le.mp h1
  have hq' : q.toNat ≤ count.toNat := UInt8.le_iff_toNat_le.mp hq
  obtain ⟨r', hr'⟩ := portLoop_reaches (fuel + (count.toNat - q.toNat) + 1) r h1 hq hn
  have hf : fuel + (count.toNat - q.toNat) + 1 + (q.toNat - (1 : UInt8).toNat) =
      fuel + count.toNat := by
    rw [UInt8.toNat_one]
    omega
  rw [hf] at hr'
  exact ⟨r', hr'⟩

/-- The first port that settles the search gives its result. -/
theorem portLoop_first {a : Int} (h1 : 1 ≤ q) (hq : q ≤ count)
    (hn : ∀ x, 1 ≤ x → x < q → ¬ Settles (hub x) childKey)
    (hs : settle (hub q) childKey q = some a) :
    portLoop hub childKey count (fuel + count.toNat) 1 r = some a := by
  obtain ⟨r', hr'⟩ := portLoop_from_one fuel r h1 hq hn
  rw [hr', portLoop_settles _ hq hs]

/-- When no port settles the search, the loop comes to the number behind the last port. -/
theorem portLoop_last (h1 : 1 ≤ count)
    (hn : ∀ x, 1 ≤ x → x ≤ count → ¬ Settles (hub x) childKey) :
    portLoop hub childKey count (fuel + count.toNat) 1 r =
      portLoop hub childKey count fuel (count + 1) (leftInR (hub count)) := by
  have hle : count ≤ count := UInt8.le_refl count
  obtain ⟨r', hr'⟩ := portLoop_from_one fuel r h1 hle fun x hx hlt => hn x hx (UInt8.le_of_lt hlt)
  rw [hr', Nat.sub_self, Nat.add_zero, portLoop_next hle (hn count h1 hle)]

/-- If some port settles the search, one of them is the first. -/
theorem exists_first (h : ∃ p, 1 ≤ p ∧ p ≤ count ∧ Settles (hub p) childKey) :
    ∃ q, 1 ≤ q ∧ q ≤ count ∧ Settles (hub q) childKey ∧
      ∀ x, 1 ≤ x → x < q → ¬ Settles (hub x) childKey := by
  obtain ⟨q, ⟨h1, hq, hs⟩, hmin⟩ := (measure UInt8.toNat).wf.has_min
    {p | 1 ≤ p ∧ p ≤ count ∧ Settles (hub p) childKey} h
  exact ⟨q, h1, hq, hs, fun x hx hlt hsx =>
    hmin x ⟨hx, UInt8.le_trans (UInt8.le_of_lt hlt) hq, hsx⟩ (UInt8.lt_iff_toNat_lt.mp hlt)⟩

theorem settles_some (h : Settles (hub p) childKey) : ∃ a, settle (hub p) childKey p = some a :=
  Option.ne_none_iff_exists'.mp fun hn => settle_none_iff.mp hn h

theorem le_255 (p : UInt8) : p ≤ 255 :=
  UInt8.le_iff_toNat_le.mpr (Nat.le_of_lt_succ p.toNat_lt)

theorem succ_not_le (hc : count ≠ 255) : ¬ count + 1 ≤ count := by
  have hs := toNat_succ_of_lt (UInt8.lt_of_le_of_ne (le_255 count) hc)
  intro h
  have := UInt8.le_iff_toNat_le.mp h
  omega

end Loop

/-! ## The search -/

section Search
variable {hub : UInt8 → PortOs} {childKey : CStr} {count p q : UInt8} {r : Int}

/-- The result of a search that some port settles. -/
theorem portFound_first (h : ∃ p, 1 ≤ p ∧ p ≤ count ∧ Settles (hub p) childKey) :
    ∃ a, (∀ fuel, portLoop hub childKey count (fuel + count.toNat) 1 r = some a) ∧
      PortFound hub childKey count a := by
  obtain ⟨q, h1, hq, hs, hn⟩ := exists_first h
  obtain ⟨a, ha⟩ := settles_some hs
  -- a port that settles the search behind no other one is the first
  have only : ∀ p, 1 ≤ p → (∀ x, 1 ≤ x → x < p → ¬ Settles (hub x) childKey) →
      Settles (hub p) childKey → p = q := by
    intro p hp1 hpn hps
    have hle : q ≤ p := UInt8.not_lt.mp fun hlt => hn p hp1 hlt hps
    have hge : p ≤ q := UInt8.not_lt.mp fun hlt => hpn q h1 hlt hs
    exact UInt8.le_antisymm hge hle
  refine ⟨a, fun _ => portLoop_first h1 hq hn ha, ?_, ?_, ?_⟩
  · intro p hp1 _ hpn hk
    have hps : Settles (hub p) childKey := by simp [Settles, hk]
    cases only p hp1 hpn hps
    simpa [settle, hk] using ha.symm
  · intro p e hp1 _ hpn hk he
    have hps : Settles (hub p) childKey := by simp [Settles, hk, he]
    cases only p hp1 hpn hps
    simpa [settle, hk, he] using ha.symm
  · intro hno
    exact absurd hs (hno q h1 hq)

/-- The result of a search that no port settles: what the last port left. -/
theorem portFound_last (hc : count ≠ 255) (h1 : 1 ≤ count)
    (hn : ∀ x, 1 ≤ x → x ≤ count → ¬ Settles (hub x) childKey) :
    (∀ fuel, portLoop hub childKey count (fuel + count.toNat) 1 r = some (leftInR (hub count))) ∧
      (PortFound hub childKey count (leftInR (hub count)) ↔
        getPortDriverkey (hub count) = .error 0) := by
  refine ⟨?_, ?_⟩
  · intro fuel
    rw [portLoop_last h1 hn, portLoop_done (succ_not_le hc)]
  · rw [← leftInR_zero_iff]
    refine ⟨fun hf => hf.absent hn, fun hz => ⟨?_, ?_, fun _ => hz⟩⟩
    · intro p hp1 hp _ hk
      exact absurd (by simp [Settles, hk]) (hn p hp1 hp)
    · intro p e hp1 hp _ hk he
      exact absurd (by simp [Settles, hk, he]) (hn p hp1 hp)

end Search

/-- On a hub with at most 254 ports that can be opened and asked, the search returns what it is for
exactly when there is no port, some port settles it, or the last port has no key. -/
theorem findDevicePortXp_exact_iff (os : HubOs) (childKey : CStr) (count : UInt8)
    (hp : os.pathOk = true) (ho : os.opened = true) (hn : os.bNumberOfPorts = some count)
    (hc : count ≠ 255) :
    (∃ r, findDevicePortXp os childKey count.toNat = some r ∧
        PortFound os.port childKey count r) ↔
      count = 0 ∨ (∃ p, 1 ≤ p ∧ p ≤ count ∧ Settles (os.port p) childKey) ∨
        getPortDriverkey (os.port count) = .error 0 := by
  have he : findDevicePortXp os childKey count.toNat =
      portLoop os.port childKey count (0 + count.toNat) 1 0 := by
    simp [findDevicePortXp, hp, ho, hn]
  rw [he]
  by_cases h0 : count = 0
  · have hno : ∀ p : UInt8, 1 ≤ p → ¬ p ≤ count := by
      intro p h1 hle
      have := UInt8.le_trans h1 hle
      rw [h0] at this
      exact absurd this (by decide)
    refine iff_of_true ⟨0, portLoop_done (hno 1 (UInt8.le_refl 1)), ?_⟩ (.inl h0)
    exact ⟨fun p h1 hle => absurd hle (hno p h1), fun p _ h1 hle => absurd hle (hno p h1),
      fun _ => rfl⟩
  have h1 : 1 ≤ count := by
    have : count.toNat ≠ 0 := fun hz => h0 (UInt8.toNat_inj.mp hz)
    exact UInt8.le_iff_toNat_le.mpr (Nat.one_le_iff_ne_zero.mpr this)
  by_cases hs : ∃ p, 1 ≤ p ∧ p ≤ count ∧ Settles (os.port p) childKey
  · obtain ⟨a, ha, hf⟩ := portFound_first (r := 0) hs
    exact iff_of_true ⟨a, ha 0, hf⟩ (.inr (.inl hs))
  have hno : ∀ x, 1 ≤ x → x ≤ count → ¬ Settles (os.port x) childKey :=
    fun x hx hle hsx => hs ⟨x, hx, hle, hsx⟩
  obtain ⟨hl, hf⟩ := portFound_last (r := 0) hc h1 hno
  rw [hl 0]
  refine ⟨?_, ?_⟩
  · rintro ⟨r, hr, hfound⟩
    cases hr
    exact .inr (.inr (hf.mp hfound))
  · rintro (hz | hz | hz)
    · exact absurd hz h0
    · exact absurd hz hs
    · exact ⟨_, rfl, hf.mpr hz⟩

/-- A port with the driver key. -/
def connected (key : CStr) : PortOs :=
  ⟨true, some true, true, true, true, ⟨true, true, true, some key⟩⟩

/-- A port with nothing connected to it. -/
def unconnected : PortOs :=
  ⟨true, some false, true, true, true, ⟨true, true, true, none⟩⟩

theorem findDevicePortXp_exact_two :
    ∃ r, findDevicePortXp
        ⟨true, true, some 4, fun p => if p = 2 then connected (.lit "B") else unconnected⟩
        (.lit "B") 4 = some r ∧
      PortFound (fun p => if p = 2 then connected (.lit "B") else unconnected) (.lit "B") 4 r :=
  (findDevicePortXp_exact_iff
    ⟨true, true, some 4, fun p => if p = 2 then connected (.lit "B") else unconnected⟩ (.lit "B") 4
    rfl rfl rfl (by decide)).mpr (.inr (.inl ⟨2, by decide, by decide, rfl⟩))

/-- One port with the key of another device: the search returns 1. -/
theorem findDevicePortXp_other_key :
    findDevicePortXp ⟨true, true, some 1, fun _ => connected (.lit "A")⟩ (.lit "B") 1 = some 1 ∧
      ¬ PortFound (fun _ => connected (.lit "A")) (.lit "B") 1 1 := by
  refine ⟨by decide, fun hf => ?_⟩
  have habs : (1 : Int) = 0 := hf.absent fun p _ _ hs => absurd hs (by
    show ¬ CStr.lit "A" = CStr.lit "B"
    decide)
  exact absurd habs (by decide)

/-! ## Termination -/

/-- The loop ends after at most as many iterations as the hub has ports, exactly if these are
fewer than 255 or some port settles the search. -/
theorem portLoop_ends_iff (hub : UInt8 → PortOs) (childKey : CStr) (count : UInt8) :
    portLoop hub childKey count count.toNat 1 0 ≠ none ↔
      count ≠ 255 ∨ ∃ p, 1 ≤ p ∧ Settles (hub p) childKey := by
  rw [← Nat.zero_add count.toNat]
  by_cases hs : ∃ p, 1 ≤ p ∧ p ≤ count ∧ Settles (hub p) childKey
  · obtain ⟨a, ha, _⟩ := portFound_first (r := 0) hs
    obtain ⟨p, h1, _, hsp⟩ := hs
    exact iff_of_true (by rw [ha 0]; exact Option.some_ne_none a) (.inr ⟨p, h1, hsp⟩)
  have hno : ∀ x, 1 ≤ x → x ≤ count → ¬ Settles (hub x) childKey :=
    fun x hx hle hsx => hs ⟨x, hx, hle, hsx⟩
  by_cases hc : count = 255
  · subst hc
    refine iff_of_false (not_not.mpr ?_) ?_
    · rw [portLoop_last (by decide) hno]
      rfl
    · rintro (h | ⟨p, h1, hsp⟩)
      · exact h rfl
      · exact hno p h1 (le_255 p) hsp
  · refine iff_of_true ?_ (.inl hc)
    by_cases h1 : 1 ≤ count
    · rw [portLoop_last h1 hno, portLoop_done (succ_not_le hc)]
      exact Option.some_ne_none _
    · rw [portLoop_done h1]
      exact Option.some_ne_none _

/-- On a hub that declares 255 ports, none of which settles the search, the loop never ends. -/
theorem portLoop_hangs (hub : UInt8 → PortOs) (childKey : CStr) (fuel : Nat) (p : UInt8) (r : Int)
    (hn : ∀ x, ¬ Settles (hub x) childKey) : portLoop hub childKey 255 fuel p r = none := by
  have hle : p ≤ 255 := le_255 p
  induction fuel generalizing p r with
  | zero => rw [portLoop, if_pos hle]
  | succ fuel ih =>
    rw [portLoop_next hle (hn p)]
    exact ih _ _ (le_255 _)

theorem portLoop_none {hub : UInt8 → PortOs} {childKey : CStr} {count : UInt8}
    (h : portLoop hub childKey count 256 1 0 = none) :
    count = 255 ∧ ∀ x, ¬ Settles (hub x) childKey := by
  have hle : count.toNat ≤ 255 := Nat.le_of_lt_succ count.toNat_lt
  have hf : 256 = 256 - count.toNat + count.toNat := by omega
  have hno : ∀ x, 1 ≤ x → x ≤ count → ¬ Settles (hub x) childKey := by
    intro x hx hxc hs
    obtain ⟨a, ha, _⟩ := portFound_first (r := 0) ⟨x, hx, hxc, hs⟩
    rw [hf, ha] at h
    cases h
  have h1 : 1 ≤ count := by
    by_contra h1
    rw [portLoop_done h1] at h
    cases h
  rw [hf, portLoop_last h1 hno] at h
  have hc : count = 255 := by
    by_contra hc
    rw [portLoop_done (succ_not_le hc)] at h
    cases h
  subst hc
  -- the counter is back at 0, and there is one more iteration
  refine ⟨rfl, fun x hs => ?_⟩
  by_cases hx : 1 ≤ x
  · exact hno x hx (le_255 x) hs
  · have hx0 : x = 0 := UInt8.toNat_inj.mp (Nat.lt_one_iff.mp (UInt8.lt_iff_toNat_lt.mp
      (UInt8.not_le.mp hx)))
    rw [hx0] at hs
    obtain ⟨a, ha⟩ := settles_some hs
    exact absurd (h.symm.trans (portLoop_settles 0 (le_255 0) ha)) nofun

/-- A search that has not ended when the counter comes back to its start never ends. -/
theorem findDevicePortXp_hangs {os : HubOs} {childKey : CStr}
    (h : findDevicePortXp os childKey 256 = none) (fuel : Nat) :
    findDevicePortXp os childKey fuel = none := by
  unfold findDevicePortXp at h ⊢
  split at h
  · cases h
  · next hp =>
    split at h
    · cases h
    · next ho =>
      rw [if_neg hp, if_neg ho]
      cases hn : os.bNumberOfPorts with
      | none =>
        rw [hn] at h
        cases h
      | some count =>
        rw [hn] at h
        obtain ⟨rfl, hno⟩ := portLoop_none h
        exact portLoop_hangs _ _ _ _ _ hno

/-- An empty hub with 255 ports: no number of iterations is enough. -/
theorem portLoop_empty_hub :
    ¬ ∃ fuel r, portLoop (fun _ => unconnected) (.lit "B") 255 fuel 1 0 = some r := by
  rintro ⟨fuel, r, h⟩
  have hn : ¬ Settles unconnected (.lit "B") := fun hs => absurd hs (Int.lt_irrefl 0)
  rw [portLoop_hangs _ _ fuel 1 0 fun _ => hn] at h
  cases h

end Libhs.Win32
