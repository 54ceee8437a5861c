import Libhs.Linux
import Mathlib.Data.List.TakeWhile

/-!
# USB location strings

Linux formats a location in one go and then rewrites it; Windows and macOS append
one port number after the other to a buffer on the stack, which starts with
whatever was there.
-/

namespace Libhs

/-! ## The buffer -/

/-- A `char` array of `n` bytes. -/
structure CharBuf (n : Nat) where
  mem : List UInt8
  size : mem.length = n

namespace CharBuf
variable {n : Nat}

/-- A store of `s` from index `ptr` on; none is a store past the end. -/
def store (buf : CharBuf n) (ptr : Nat) (s : List UInt8) : Option (CharBuf n) :=
  if h : ptr + s.length ≤ n then
    some ⟨buf.mem.take ptr ++ s ++ buf.mem.drop (ptr + s.length), by simp [buf.size]; omega⟩
  else none

/-- The string at the start; none is a read past the end. -/
def str (buf : CharBuf n) : Option CStr :=
  if 0 ∈ buf.mem then
    some ⟨buf.mem.takeWhile (· ≠ 0), fun hm => by simpa using List.mem_takeWhile_imp hm⟩
  else none

end CharBuf

/-- What `snprintf(ptr, size, ...)` stores of the formatted text. -/
def snprintf (size : Nat) (text : List UInt8) : List UInt8 :=
  if size = 0 then [] else text.take (size - 1) ++ [0]

/-- `strdup`. -/
def strdup (ok : Bool) (s : CStr) : Option CStr := if ok then some s else none

/-! ## `build_location_string` -/

/-- The loop of `build_location_string`; none is also a failed assertion. -/
def appendPorts : List UInt8 → CharBuf 256 → Nat → Nat → Option (CharBuf 256)
  | [], buf, _, _ => some buf
  | port :: ports, buf, ptr, size => do
    let text := 0x2D :: decimal port
    let buf ← buf.store ptr (snprintf size text)
    let r := text.length
    if 2 ≤ r ∧ r < size then appendPorts ports buf (ptr + r) (size - r) else none

/-- `build_location_string` on the first `depth` ports; `buf` is the array before its first store. -/
def buildLocationString (buf : CharBuf 256) (strdupOk : Bool) (ports : List UInt8) :
    Option (Except Int CStr) := do
  let size := 256
  let buf ← buf.store 0 (ascii "usb" ++ [0])
  let start ← buf.str
  let ptr := start.bytes.length
  let buf ← appendPorts ports buf ptr (size - ptr)
  let path ← buf.str
  return someOrReturn (hsError .memory none) (strdup strdupOk path)

/-! ## The string in the buffer -/

/-- The buffer starts with the string `s`. -/
def CharBuf.Starts {n : Nat} (buf : CharBuf n) (s : List UInt8) : Prop := s ++ [0] <+: buf.mem

theorem CharBuf.Starts.length {n : Nat} {buf : CharBuf n} {s : List UInt8} (h : buf.Starts s) :
    s.length < n := by
  have hlen := h.length_le
  rw [buf.size, List.length_append, List.length_singleton] at hlen
  exact hlen

theorem CharBuf.Starts.str {n : Nat} {buf : CharBuf n} {s : CStr} (h : buf.Starts s.bytes) :
    buf.str = some s := by
  obtain ⟨rest, hrest⟩ := h
  have hmem : (0 : UInt8) ∈ buf.mem := by
    rw [← hrest]
    simp
  have htake : buf.mem.takeWhile (· ≠ 0) = s.bytes := by
    rw [← hrest, List.append_assoc, List.takeWhile_append_of_pos]
    · simp
    · intro b hb
      exact decide_eq_true fun h0 => s.noNul (h0 ▸ hb)
  unfold CharBuf.str
  rw [if_pos hmem]
  congr

/-- Text stored over the terminator extends the string, if there is room for all of it. -/
theorem CharBuf.Starts.store {n : Nat} {buf : CharBuf n} {s : List UInt8} (h : buf.Starts s)
    (text : List UInt8) (hroom : s.length + text.length < n) :
    ∃ buf', buf.store s.length (snprintf (n - s.length) text) = some buf' ∧
      buf'.Starts (s ++ text) := by
  have htext : snprintf (n - s.length) text = text ++ [0] := by
    unfold snprintf
    rw [if_neg (by omega), List.take_of_length_le (by omega)]
  have hs : buf.mem.take s.length = s :=
    (List.prefix_iff_eq_take.mp ((List.prefix_append s [0]).trans h)).symm
  unfold CharBuf.store
  rw [htext, dif_pos (by simp; omega)]
  refine ⟨_, rfl, buf.mem.drop (s.length + (text ++ [0]).length), ?_⟩
  simp only [hs, List.append_assoc]

/-- A store cut off by the size stays inside of the buffer. -/
theorem CharBuf.store_isSome {n : Nat} (buf : CharBuf n) {ptr : Nat} (text : List UInt8)
    (h : ptr ≤ n) : (buf.store ptr (snprintf (n - ptr) text)).isSome := by
  have hlen : (snprintf (n - ptr) text).length ≤ n - ptr := by
    unfold snprintf
    split
    · simp
    · simp
      omega
  unfold CharBuf.store
  rw [dif_pos (by omega)]
  rfl

/-! ## One port after the other -/

/-- What the loop appends. -/
def portBytes (ports : List UInt8) : List UInt8 := ports.flatMap fun p => 0x2D :: decimal p

theorem locationString_bytes (ports : List UInt8) :
    (locationString ports).bytes = ascii "usb" ++ portBytes ports := rfl

theorem portBytes_cons (p : UInt8) (ports : List UInt8) :
    portBytes (p :: ports) = (0x2D :: decimal p) ++ portBytes ports := rfl

theorem decimal_length : ∀ p : UInt8, 1 ≤ (decimal p).length ∧ (decimal p).length ≤ 3 :=
  forall_uint8 (by decide +kernel)

theorem portBytes_length (ports : List UInt8) : (portBytes ports).length ≤ 4 * ports.length := by
  induction ports with
  | nil => decide
  | cons p ports ih =>
    have hp := (decimal_length p).2
    rw [portBytes_cons, List.length_append, List.length_cons, List.length_cons]
    omega

/-- The loop appends every port, and no assertion fails, if the buffer has the room. -/
theorem appendPorts_fits : ∀ (ports : List UInt8) {buf : CharBuf 256} {s : List UInt8},
    buf.Starts s → (s ++ portBytes ports).length < 256 →
    ∃ buf', appendPorts ports buf s.length (256 - s.length) = some buf' ∧
      buf'.Starts (s ++ portBytes ports)
  | [], buf, s, h, _ => ⟨buf, rfl, by rwa [show portBytes [] = [] from rfl, List.append_nil]⟩
  | p :: ports, buf, s, h, hroom => by
    have hp := (decimal_length p).1
    rw [portBytes_cons, ← List.append_assoc] at hroom
    have hone : s.length + (0x2D :: decimal p).length < 256 := by
      rw [List.length_append, List.length_append] at hroom
      omega
    obtain ⟨buf₁, e₁, h₁⟩ := h.store _ hone
    obtain ⟨buf₂, e₂, h₂⟩ := appendPorts_fits ports h₁ hroom
    rw [List.length_append, ← Nat.sub_sub] at e₂
    refine ⟨buf₂, ?_, by rwa [portBytes_cons, ← List.append_assoc]⟩
    unfold appendPorts
    simp only [e₁, Option.bind_eq_bind, Option.bind_some]
    rw [if_pos ⟨by rw [List.length_cons]; omega, by omega⟩, e₂]

/-- An assertion fails if the buffer has no room for all ports. -/
theorem appendPorts_cut : ∀ (ports : List UInt8) {buf : CharBuf 256} {s : List UInt8},
    buf.Starts s → 256 ≤ (s ++ portBytes ports).length →
    appendPorts ports buf s.length (256 - s.length) = none
  | [], buf, s, h, hcut => by
    have hlen := h.length
    rw [show portBytes [] = [] from rfl, List.append_nil] at hcut
    omega
  | p :: ports, buf, s, h, hcut => by
    rw [portBytes_cons, ← List.append_assoc] at hcut
    obtain ⟨buf₁, e₁⟩ := Option.isSome_iff_exists.mp
      (buf.store_isSome (0x2D :: decimal p) (Nat.le_of_lt h.length))
    unfold appendPorts
    simp only [e₁, Option.bind_eq_bind, Option.bind_some]
    split
    · next hr =>
      obtain ⟨buf₂, e₂, h₂⟩ := h.store (0x2D :: decimal p) (by omega)
      obtain rfl := Option.some.inj (e₁.symm.trans e₂)
      have e := appendPorts_cut ports h₂ hcut
      rwa [List.length_append, ← Nat.sub_sub] at e
    · rfl

/-- `build_location_string` returns if and only if the buffer has the room, and then its string is
the location of the ports. -/
theorem buildLocationString_spec (buf : CharBuf 256) (strdupOk : Bool) (ports : List UInt8) :
    buildLocationString buf strdupOk ports =
      if (locationString ports).bytes.length < 256 then
        some (someOrReturn (hsError .memory none) (strdup strdupOk (locationString ports)))
      else none := by
  have husb : ∃ buf₀, buf.store 0 (ascii "usb" ++ [0]) = some buf₀ ∧
      buf₀.Starts (ascii "usb") := by
    unfold CharBuf.store
    rw [dif_pos (by decide)]
    exact ⟨_, rfl, _, rfl⟩
  obtain ⟨buf₀, e₀, h₀⟩ := husb
  have hstr : buf₀.str = some (CStr.lit "usb") := CharBuf.Starts.str (s := CStr.lit "usb") h₀
  unfold buildLocationString
  simp only [e₀, hstr, Option.bind_eq_bind, Option.bind_some]
  rw [locationString_bytes]
  split
  · next hroom =>
    obtain ⟨buf₁, e₁, h₁⟩ := appendPorts_fits ports h₀ hroom
    rw [show (CStr.lit "usb").bytes = ascii "usb" from rfl, e₁]
    rw [← locationString_bytes] at h₁
    simp only [Option.bind_some, h₁.str]
    rfl
  · next hcut =>
    rw [show (CStr.lit "usb").bytes = ascii "usb" from rfl, appendPorts_cut ports h₀ (by omega)]
    rfl

/-! ## The Linux string -/

theorem notMem_intercalate {b : UInt8} {sep : List UInt8} (hsep : b ∉ sep) :
    ∀ {ls : List (List UInt8)}, (∀ l ∈ ls, b ∉ l) → b ∉ sep.intercalate ls
  | [], _ => List.not_mem_nil
  | [l], h => by
    rw [List.intercalate_singleton]
    exact h l List.mem_cons_self
  | l :: l' :: ls, h => by
    rw [List.intercalate_cons_cons, List.mem_append, List.mem_append]
    rintro ((hb | hb) | hb)
    · exact h l List.mem_cons_self hb
    · exact hsep hb
    · exact notMem_intercalate hsep (fun m hm => h m (List.mem_cons_of_mem l hm)) hb

/-- `busnum` of a bus. -/
def busnumAttr (c : UInt8) : CStr := ⟨decimal c, decimal_noNul c⟩

/-- `devpath` of a device behind these ports: their numbers, joined by dots. -/
def devpathAttr (ports : List UInt8) : CStr where
  bytes := [0x2E].intercalate (ports.map decimal)
  noNul := notMem_intercalate (by decide) (List.forall_mem_map.mpr fun p _ => decimal_noNul p)

/-- A decimal has no dots to replace. -/
theorem decimal_dotsToDashes : ∀ p : UInt8,
    (decimal p).map (fun b => if b = 0x2E then 0x2D else b) = decimal p :=
  forall_uint8 (by decide +kernel)

theorem dash_notMem_decimal : ∀ p : UInt8, (0x2D : UInt8) ∉ decimal p :=
  forall_uint8 (by decide +kernel)

/-- The numbers joined by dashes, which is what both encoders write after the bus. -/
theorem portBytes_eq_intercalate (p : UInt8) (ports : List UInt8) :
    portBytes (p :: ports) = 0x2D :: [0x2D].intercalate ((p :: ports).map decimal) := by
  induction ports generalizing p with
  | nil => simp [portBytes]
  | cons q ports ih =>
    rw [portBytes_cons, ih q, List.map_cons, List.map_cons, List.map_cons,
      List.intercalate_cons_cons, List.append_assoc]
    rfl

theorem devpathAttr_dashes (p : UInt8) (ports : List UInt8) :
    (devpathAttr (p :: ports)).dotsToDashes.bytes =
      [0x2D].intercalate ((p :: ports).map decimal) := by
  induction ports generalizing p with
  | nil => simpa [devpathAttr, CStr.dotsToDashes] using decimal_dotsToDashes p
  | cons q ports ih =>
    have ih := ih q
    unfold devpathAttr CStr.dotsToDashes at ih ⊢
    simp only [List.map_cons, List.intercalate_cons_cons, List.map_append,
      decimal_dotsToDashes] at ih ⊢
    rw [ih]
    rfl

theorem dotsToDashes_append (s t : CStr) :
    ((s.append t).dotsToDashes).bytes = s.dotsToDashes.bytes ++ t.dotsToDashes.bytes :=
  List.map_append

theorem computeDeviceLocation_spec {os : ReadOs} {dev : UsbAttrs} {c : UInt8} {ports : List UInt8}
    (hos : os.locationOk = true) (hbus : dev.busnum = some (busnumAttr c))
    (hpath : dev.devpath = some (devpathAttr ports)) (hne : ports ≠ []) :
    computeDeviceLocation os dev = .ok (locationString (c :: ports)) := by
  obtain ⟨p, ports, rfl⟩ := List.exists_cons_of_ne_nil hne
  have hbytes : (((CStr.lit "usb-").append ((busnumAttr c).append
      ((CStr.lit "-").append (devpathAttr (p :: ports))))).dotsToDashes).bytes =
      (locationString (c :: p :: ports)).bytes := by
    rw [dotsToDashes_append, dotsToDashes_append, dotsToDashes_append, devpathAttr_dashes,
      locationString_bytes, portBytes_cons, portBytes_eq_intercalate]
    have hc : (busnumAttr c).dotsToDashes.bytes = decimal c := decimal_dotsToDashes c
    rw [hc]
    rfl
  unfold computeDeviceLocation
  rw [hbus, hpath, hos]
  exact congrArg Except.ok (CStr.ext hbytes)

/-! ## Reading a location back -/

/-- The value of decimal digits. -/
def decimalValue (s : List UInt8) : UInt8 := s.foldl (fun v b => v * 10 + (b - 0x30)) 0

theorem decimalValue_decimal : ∀ p : UInt8, decimalValue (decimal p) = p :=
  forall_uint8 (by decide +kernel)

/-- The numbers that a location lists. -/
def locationNumbers (s : CStr) : List UInt8 := ((s.bytes.splitOn 0x2D).map decimalValue).tail

/-- The numbers are the pieces between the dashes, as no decimal contains one. -/
theorem locationNumbers_locationString (p : UInt8) (ports : List UInt8) :
    locationNumbers (locationString (p :: ports)) = p :: ports := by
  have hjoin : (locationString (p :: ports)).bytes =
      [0x2D].intercalate (ascii "usb" :: (p :: ports).map decimal) := by
    rw [locationString_bytes, portBytes_eq_intercalate, List.map_cons, List.intercalate_cons_cons]
    simp
  have hsplit : (locationString (p :: ports)).bytes.splitOn 0x2D =
      ascii "usb" :: (p :: ports).map decimal := by
    rw [hjoin]
    refine List.splitOn_intercalate 0x2D ?_ (List.cons_ne_nil _ _)
    intro l hl
    rcases List.mem_cons.mp hl with rfl | hl
    · decide
    · obtain ⟨q, -, rfl⟩ := List.mem_map.mp hl
      exact dash_notMem_decimal q
  unfold locationNumbers
  rw [hsplit, List.map_cons, List.tail_cons, List.map_map]
  exact List.map_id'' decimalValue_decimal (p :: ports)

/-- Linux, Windows and macOS give a device the same location, which is not that of another device. -/
theorem location_agrees {c : UInt8} {ports : List UInt8} (hne : ports ≠ []) (hlen : ports.length ≤ 15)
    {dev : UsbAttrs} (hbus : dev.busnum = some (busnumAttr c))
    (hpath : dev.devpath = some (devpathAttr ports)) :
    (∀ os : ReadOs, os.locationOk = true →
      computeDeviceLocation os dev = .ok (locationString (c :: ports))) ∧
    (∀ buf, buildLocationString buf true (c :: ports) =
      some (.ok (locationString (c :: ports)))) ∧
    ∀ c' ports', locationString (c' :: ports') = locationString (c :: ports) →
      c' = c ∧ ports' = ports := by
  refine ⟨fun os hos => computeDeviceLocation_spec hos hbus hpath hne, fun buf => ?_,
    fun c' ports' h => ?_⟩
  · have hports := portBytes_length (c :: ports)
    rw [List.length_cons] at hports
    have hroom : (locationString (c :: ports)).bytes.length < 256 := by
      rw [locationString_bytes, List.length_append, show (ascii "usb").length = 3 from rfl]
      omega
    rw [buildLocationString_spec, if_pos hroom]
    rfl
  · have hnumbers := congrArg locationNumbers h
    rw [locationNumbers_locationString, locationNumbers_locationString] at hnumbers
    exact List.cons.inj hnumbers

/-- The device in port 4 of the hub in port 5 of bus 2. -/
def behindHub : UsbAttrs where
  busnum := some (CStr.lit "2")
  devpath := some (CStr.lit "5.4")
  idVendor := none
  idProduct := none
  manufacturer := none
  product := none
  serial := none

theorem location_agrees_behindHub :
    computeDeviceLocation .ok behindHub = .ok (locationString [2, 5, 4]) ∧
    (locationString [2, 5, 4]).is "usb-2-5-4" = true ∧
    ∀ c' ports', locationString (c' :: ports') = locationString [2, 5, 4] →
      c' = 2 ∧ ports' = [5, 4] :=
  have h := location_agrees (List.cons_ne_nil 5 [4]) (by decide) (show behindHub.busnum = _ from rfl)
    (show behindHub.devpath = _ from rfl)
  ⟨h.1 .ok rfl, by decide, h.2.2⟩

end Libhs
