import Mathlib.Data.List.Basic
import Mathlib.Data.List.Induction
import Libhs.HidDescriptor

/-!
# The item grammar of report descriptors

A report descriptor is a sequence of items. A short item is a prefix byte and 0, 1,
2 or 4 bytes of data; a long item is the byte 0xFE, a length, a tag and that many
bytes. `Item` is the grammar, `summary` says what a list of items means to a handle,
and `parseDescriptor_bytes` says that the scan of `hid_linux.c` computes it from the
bytes, whatever is left of a last item that was cut.
-/

namespace Libhs

/-! ## Items -/

/-- How many data bytes follow the prefix byte of a short item. -/
def dataSize (head : UInt8) : Nat :=
  match head.toNat % 4 with
  | 0 => 0
  | 1 => 1
  | 2 => 2
  | _ => 4

/-- The kinds of short items that matter to a handle. -/
inductive ItemKind
  | collection
  | endCollection
  | reportId
  | usagePage
  | usage
  | other
deriving DecidableEq, Repr

/-- The kind is the tag (the high four bits) within the type of the item: 0 for main items,
1 for global items, 2 for local items. -/
def itemKind (head : UInt8) : ItemKind :=
  match head.toNat / 4 % 4, head.toNat / 16 with
  | 0, 0xA => .collection
  | 0, 0xC => .endCollection
  | 1, 0x8 => .reportId
  | 1, 0x0 => .usagePage
  | 2, 0x0 => .usage
  | _, _ => .other

structure ShortItem where
  head : UInt8
  data : List UInt8
  short : head ≠ 0xFE
  sized : data.length = dataSize head

structure LongItem where
  tag : UInt8
  data : List UInt8
  sized : data.length < 256

inductive Item
  | short (s : ShortItem)
  | long (l : LongItem)

namespace Item

def bytes : Item → List UInt8
  | short s => s.head :: s.data
  | long l => 0xFE :: UInt8.ofNat l.data.length :: l.tag :: l.data

def kind : Item → ItemKind
  | short s => itemKind s.head
  | long _ => .other

/-- A little endian number. -/
def little : List UInt8 → Nat
  | [] => 0
  | b :: data => b.toNat + 256 * little data

/-- The low 16 bits of the data. -/
def value : Item → UInt16
  | short s => UInt16.ofNat (little s.data)
  | long l => UInt16.ofNat (little l.data)

end Item

/-- The bytes of a descriptor. -/
def itemBytes (items : List Item) : List UInt8 := items.flatMap Item.bytes

/-! ## What a descriptor means -/

/-- How many collections are open behind the items. -/
def nesting (items : List Item) : Int :=
  (items.countP fun x => x.kind = .collection) - (items.countP fun x => x.kind = .endCollection)

/-- No collection is closed that was not opened. -/
def Balanced (items : List Item) : Prop := ∀ pre, pre <+: items → 0 ≤ nesting pre

/-- The items of a kind that lie outside of every collection. -/
def outside (k : ItemKind) (items : List Item) : List Item :=
  (List.range items.length).filterMap fun n =>
    items[n]?.filter fun x => x.kind = k ∧ nesting (items.take n) = 0

/-- The value of the last item, 0 when there is none. -/
def lastValue (items : List Item) : UInt16 :=
  match items.getLast? with
  | none => 0
  | some x => x.value

/-- What a handle should know about its descriptor. -/
def summary (items : List Item) : HidInfo where
  numberedReports := items.any fun x => x.kind = .reportId
  usagePage := lastValue (outside .usagePage items)
  usage := lastValue (outside .usage items)

/-- A proper part of an item, possibly nothing. -/
def CutItem (tail : List UInt8) : Prop := ∃ x : Item, tail <+: x.bytes ∧ tail ≠ x.bytes

theorem balanced_of_take {items : List Item}
    (h : ∀ n : Fin (items.length + 1), 0 ≤ nesting (items.take n.val)) : Balanced items := by
  intro pre hpre
  have htake := h ⟨pre.length, Nat.lt_succ_of_le hpre.length_le⟩
  rwa [← List.prefix_iff_eq_take.mp hpre] at htake

theorem nesting_append (items items' : List Item) :
    nesting (items ++ items') = nesting items + nesting items' := by
  unfold nesting
  rw [List.countP_append, List.countP_append]
  omega

theorem outside_snoc (k : ItemKind) (items : List Item) (x : Item) :
    outside k (items ++ [x]) =
      outside k items ++ (if x.kind = k ∧ nesting items = 0 then [x] else []) := by
  unfold outside
  rw [List.length_append, List.length_singleton, List.range_succ, List.filterMap_append]
  congr 1
  · refine List.filterMap_congr fun n hn => ?_
    have hlt : n < items.length := List.mem_range.mp hn
    rw [List.getElem?_append_left hlt, List.take_append_of_le_length (Nat.le_of_lt hlt)]
  · rw [List.filterMap_cons, List.filterMap_nil, List.getElem?_concat_length, List.take_left]
    by_cases h : x.kind = k ∧ nesting items = 0 <;> simp [h, Option.filter]

theorem lastValue_append (items : List Item) (x : Item) (p : Prop) [Decidable p] :
    lastValue (items ++ (if p then [x] else [])) = if p then x.value else lastValue items := by
  split
  · unfold lastValue
    rw [List.getLast?_concat]
  · rw [List.append_nil]

theorem summary_snoc (items : List Item) (x : Item) :
    summary (items ++ [x]) =
      { numberedReports := (summary items).numberedReports || x.kind = .reportId
        usagePage := if x.kind = .usagePage ∧ nesting items = 0 then x.value
          else (summary items).usagePage
        usage := if x.kind = .usage ∧ nesting items = 0 then x.value
          else (summary items).usage } := by
  unfold summary
  simp only [List.any_append, List.any_cons, List.any_nil, Bool.or_false, outside_snoc,
    lastValue_append]

/-! ## One item -/

theorem size_eq (b : UInt8) :
    (if b &&& 3 = 3 then 4 else (b &&& 3).toNat) = dataSize b :=
  forall_uint8 (p := fun b => (if b &&& 3 = 3 then 4 else (b &&& 3).toNat) = dataSize b)
    (by decide +kernel) b

theorem kind_eq (b : UInt8) :
    itemKind b =
      if b &&& 0xFC = 0xA0 then .collection
      else if b &&& 0xFC = 0xC0 then .endCollection
      else if b &&& 0xFC = 0x84 then .reportId
      else if b &&& 0xFC = 0x04 then .usagePage
      else if b &&& 0xFC = 0x08 then .usage
      else .other :=
  forall_uint8 (p := fun b => itemKind b =
      if b &&& 0xFC = 0xA0 then .collection
      else if b &&& 0xFC = 0xC0 then .endCollection
      else if b &&& 0xFC = 0x84 then .reportId
      else if b &&& 0xFC = 0x04 then .usagePage
      else if b &&& 0xFC = 0x08 then .usage
      else .other) (by decide +kernel) b

theorem dataSize_cases (b : UInt8) :
    dataSize b = 0 ∨ dataSize b = 1 ∨ dataSize b = 2 ∨ dataSize b = 4 :=
  forall_uint8 (p := fun b => dataSize b = 0 ∨ dataSize b = 1 ∨ dataSize b = 2 ∨ dataSize b = 4)
    (by decide +kernel) b

/-- The source combines bytes with shifts, and the handle keeps the low half. -/
theorem low_two (a b : UInt8) :
    (b.toUInt32 <<< 8 ||| a.toUInt32).toUInt16 = UInt16.ofNat (a.toNat + 256 * b.toNat) := by
  have ha : a.toNat < 2 ^ 8 := a.toNat_lt
  have hb := b.toNat_lt
  have hs : (b.toUInt32 <<< 8 : UInt32).toNat = b.toNat <<< 8 := by
    rw [UInt32.toNat_shiftLeft, Nat.shiftLeft_eq]
    simp
    omega
  have hor : (b.toNat <<< 8 ||| a.toNat) = a.toNat + 256 * b.toNat := by
    rw [← Nat.shiftLeft_add_eq_or_of_lt ha, Nat.shiftLeft_eq]
    omega
  refine UInt16.toNat.inj ?_
  rw [UInt32.toNat_toUInt16, UInt32.toNat_or, hs, UInt8.toNat_toUInt32, hor, UInt16.toNat_ofNat']

theorem low_high {k : UInt32} (hk : k = 16 ∨ k = 24) (c : UInt8) (n : UInt32) :
    (c.toUInt32 <<< k ||| n).toUInt16 = n.toUInt16 := by
  have hc : (c.toUInt32 <<< k).toNat % 2 ^ 16 = 0 := by
    rcases hk with rfl | rfl
    · rw [UInt32.toNat_shiftLeft, Nat.shiftLeft_eq]
      simp
    · rw [UInt32.toNat_shiftLeft, Nat.shiftLeft_eq]
      simp
      omega
  refine UInt16.toNat.inj ?_
  rw [UInt32.toNat_toUInt16, UInt32.toNat_toUInt16, UInt32.toNat_or, Nat.or_mod_two_pow, hc,
    Nat.zero_or]

theorem getElem?_front {α : Type} (front l : List α) (j : Nat) :
    (front ++ l)[front.length + j]? = l[j]? := by
  rw [List.getElem?_append_right (Nat.le_add_right _ _), Nat.add_sub_cancel_left]

/-- The data that the loop reads for a whole short item. -/
theorem itemData_bytes (s : ShortItem) (front rest : List UInt8) :
    ∃ v, itemData (front ++ (s.head :: s.data ++ rest)) front.length (dataSize s.head) = some v ∧
      v.toUInt16 = (Item.short s).value := by
  obtain ⟨head, data, short, sized⟩ := s
  show ∃ v, itemData (front ++ (head :: data ++ rest)) front.length (dataSize head) = some v ∧
    v.toUInt16 = UInt16.ofNat (Item.little data)
  have hget := fun j => getElem?_front front (head :: data ++ rest) j
  rcases dataSize_cases head with h | h | h | h
  · rw [h] at sized ⊢
    obtain rfl := List.length_eq_zero_iff.mp sized
    exact ⟨0, rfl, rfl⟩
  · rw [h] at sized ⊢
    obtain ⟨a, rfl⟩ := List.length_eq_one_iff.mp sized
    refine ⟨a.toUInt32, ?_, ?_⟩
    · simp only [itemData, hget]
      rfl
    · refine UInt16.toNat.inj ?_
      simp [Item.little]
  · rw [h] at sized ⊢
    obtain ⟨a, b, rfl⟩ := List.length_eq_two.mp sized
    refine ⟨b.toUInt32 <<< 8 ||| a.toUInt32, ?_, low_two a b⟩
    simp only [itemData, hget]
    rfl
  · rw [h] at sized ⊢
    match data, sized with
    | [a, b, c, d], _ =>
      refine ⟨d.toUInt32 <<< 24 ||| c.toUInt32 <<< 16 ||| b.toUInt32 <<< 8 ||| a.toUInt32, ?_, ?_⟩
      · simp only [itemData, hget]
        rfl
      · rw [UInt32.or_assoc, UInt32.or_assoc, low_high (.inr rfl), low_high (.inl rfl), low_two]
        refine UInt16.toNat.inj ?_
        simp only [Item.little, UInt16.toNat_ofNat']
        omega

/-- What the loop body does to the nesting depth and to the handle. -/
def Item.scan (x : Item) (depth : UInt32) (h : HidInfo) : UInt32 × HidInfo :=
  match x.kind with
  | .collection => (depth + 1, h)
  | .endCollection => (depth - 1, h)
  | .reportId => (depth, { h with numberedReports := true })
  | .usagePage => (depth, if depth = 0 then { h with usagePage := x.value } else h)
  | .usage => (depth, if depth = 0 then { h with usage := x.value } else h)
  | .other => (depth, h)

/-- The loop goes over a whole item in one round. -/
theorem parseDescriptorLoop_item (x : Item) (front rest : List UInt8) (fuel size : Nat)
    (depth : UInt32) (h : HidInfo) : ∃ size',
    parseDescriptorLoop (front ++ (x.bytes ++ rest)) (fuel + 1) front.length size depth h =
      parseDescriptorLoop (front ++ (x.bytes ++ rest)) fuel (front ++ x.bytes).length size'
        (x.scan depth h).1 (x.scan depth h).2 := by
  cases x with
  | short s =>
    obtain ⟨v, hv, hval⟩ := itemData_bytes s front rest
    have hget : (front ++ (s.head :: s.data ++ rest))[front.length]? = some s.head :=
      getElem?_front front _ 0
    refine ⟨dataSize s.head, ?_⟩
    show parseDescriptorLoop (front ++ (s.head :: s.data ++ rest)) (fuel + 1) front.length size
      depth h = parseDescriptorLoop (front ++ (s.head :: s.data ++ rest)) fuel
        (front ++ s.head :: s.data).length (dataSize s.head) _ _
    have hlen : (front ++ (s.head :: s.data ++ rest)).length =
        front.length + dataSize s.head + 1 + rest.length := by
      simp only [List.length_append, List.length_cons, s.sized]
      omega
    have hnext : (front ++ s.head :: s.data).length = front.length + dataSize s.head + 1 := by
      simp only [List.length_append, List.length_cons, s.sized]
      omega
    have hin : front.length < (front ++ (s.head :: s.data ++ rest)).length := by omega
    have hcut : ¬ front.length + dataSize s.head ≥ (front ++ (s.head :: s.data ++ rest)).length := by
      omega
    rw [hnext]
    conv_lhs => unfold parseDescriptorLoop
    simp only [hin, hget, s.short, size_eq, hcut, hv, ↓reduceIte, Option.bind_eq_bind,
      Option.bind_some, hval]
    unfold Item.scan
    simp only [Item.kind, kind_eq]
    split_ifs <;> rfl
  | long l =>
    have hd : (UInt8.ofNat l.data.length).toNat = l.data.length := UInt8.toNat_ofNat_of_lt l.sized
    have hget : (front ++ ((Item.long l).bytes ++ rest))[front.length]? = some 0xFE :=
      getElem?_front front _ 0
    have hget₁ : (front ++ ((Item.long l).bytes ++ rest))[front.length + 1]? =
        some (UInt8.ofNat l.data.length) := getElem?_front front _ 1
    have hlen : (front ++ ((Item.long l).bytes ++ rest)).length =
        front.length + (l.data.length + 3) + rest.length := by
      simp only [Item.bytes, List.length_append, List.length_cons]
      omega
    have hnext : (front ++ (Item.long l).bytes).length = front.length + (l.data.length + 2) + 1 := by
      simp only [Item.bytes, List.length_append, List.length_cons]
      omega
    have hin : front.length < (front ++ ((Item.long l).bytes ++ rest)).length := by omega
    have hin₁ : front.length + 1 < (front ++ ((Item.long l).bytes ++ rest)).length := by omega
    refine ⟨l.data.length + 2, ?_⟩
    rw [hnext]
    conv_lhs => unfold parseDescriptorLoop
    simp only [hin, hin₁, hget, hget₁, hd, ↓reduceIte, Option.bind_eq_bind, Option.bind_some]
    rfl

/-! ## The cut item -/

theorem parseDescriptorLoop_end {report : List UInt8} {fuel i size : Nat} {depth : UInt32}
    {h : HidInfo} (hi : report.length ≤ i) :
    parseDescriptorLoop report (fuel + 1) i size depth h = some h := by
  unfold parseDescriptorLoop
  rw [if_neg (Nat.not_lt.mpr hi)]

/-- A cut item ends the loop and changes nothing. -/
theorem parseDescriptorLoop_cut {tail : List UInt8} (ht : CutItem tail) (front : List UInt8)
    {fuel : Nat} (hf : tail.length ≤ fuel) (size : Nat) (depth : UInt32) (h : HidInfo) :
    parseDescriptorLoop (front ++ tail) (fuel + 1) front.length size depth h = some h := by
  obtain ⟨x, ⟨missing, happ⟩, hne⟩ := ht
  cases tail with
  | nil =>
    rw [List.append_nil]
    exact parseDescriptorLoop_end (Nat.le_refl _)
  | cons b part =>
    obtain ⟨fuel, rfl⟩ : ∃ n, fuel = n + 1 := Nat.exists_eq_succ_of_ne_zero (by
      rw [List.length_cons] at hf
      omega)
    have hmiss : 0 < missing.length := by
      refine List.length_pos_iff.mpr fun hnil => hne ?_
      rw [← happ, hnil, List.append_nil]
    have hget : (front ++ b :: part)[front.length]? = some b := getElem?_front front _ 0
    have hin : front.length < (front ++ b :: part).length := by simp
    unfold parseDescriptorLoop
    simp only [hin, hget, ↓reduceIte, Option.bind_eq_bind, Option.bind_some]
    cases x with
    | short s =>
      obtain ⟨hb, hdata⟩ := List.cons.inj happ
      have hdata : part ++ missing = s.data := hdata
      have hsize : part.length + missing.length = dataSize b := by
        rw [← List.length_append, hdata, s.sized, hb]
      have hcut : front.length + dataSize b ≥ (front ++ b :: part).length := by
        simp only [List.length_append, List.length_cons]
        omega
      have hshort : b ≠ 0xFE := hb ▸ s.short
      rw [if_neg hshort, size_eq, if_pos hcut]
    | long l =>
      obtain ⟨hb, hdata⟩ := List.cons.inj happ
      rw [if_pos hb]
      cases part with
      | nil =>
        have hlast : ¬ front.length + 1 < (front ++ [b]).length := by simp
        rw [if_neg hlast]
        exact parseDescriptorLoop_end (by
          simp only [List.length_append, List.length_cons, List.length_nil]
          omega)
      | cons n part =>
        obtain ⟨hn, hdata⟩ := List.cons.inj hdata
        have hdata : part ++ missing = l.tag :: l.data := hdata
        have hget₁ : (front ++ b :: n :: part)[front.length + 1]? = some n := getElem?_front front _ 1
        have hin₁ : front.length + 1 < (front ++ b :: n :: part).length := by simp
        have hd : n.toNat = l.data.length := by
          rw [hn]
          exact UInt8.toNat_ofNat_of_lt l.sized
        have hsize : part.length + missing.length = l.data.length + 1 := by
          rw [← List.length_append, hdata, List.length_cons]
        simp only [hin₁, hget₁, hd, ↓reduceIte, Option.bind_some]
        exact parseDescriptorLoop_end (by
          simp only [List.length_append, List.length_cons]
          omega)

/-! ## All items -/

/-- The nesting depth in the loop is that of the items read so far. -/
def DepthOf (items : List Item) (depth : UInt32) : Prop := (depth.toNat : Int) = nesting items

theorem length_le_itemBytes (items : List Item) : items.length ≤ (itemBytes items).length := by
  induction items with
  | nil => exact Nat.le_refl _
  | cons x items ih =>
    have hx : 0 < x.bytes.length := by cases x <;> exact Nat.succ_pos _
    show items.length + 1 ≤ (x.bytes ++ itemBytes items).length
    rw [List.length_append]
    omega

theorem nesting_le (items : List Item) : nesting items ≤ (itemBytes items).length := by
  have hlen := length_le_itemBytes items
  have hcount : items.countP (fun x => x.kind = .collection) ≤ items.length := List.countP_le_length
  unfold nesting
  omega

/-- One item more: the state of the loop is the summary of the items. -/
theorem scan_snoc {items : List Item} {x : Item} {depth : UInt32} (hd : DepthOf items depth)
    (hpos : 0 ≤ nesting (items ++ [x])) (hlt : nesting (items ++ [x]) < 2 ^ 32) :
    DepthOf (items ++ [x]) (x.scan depth (summary items)).1 ∧
      (x.scan depth (summary items)).2 = summary (items ++ [x]) := by
  have hzero : nesting items = 0 ↔ depth = 0 := by
    rw [← hd, ← UInt32.toNat_inj]
    exact Int.natCast_eq_zero
  have hone : nesting [x] = (if x.kind = .collection then 1 else 0) -
      (if x.kind = .endCollection then 1 else 0) := by
    unfold nesting
    simp only [List.countP_cons, List.countP_nil, decide_eq_true_eq]
    split_ifs <;> rfl
  have hd' : (depth.toNat : Int) = nesting items := hd
  have hsum := nesting_append items [x]
  rw [hone] at hsum
  rw [summary_snoc]
  unfold Item.scan DepthOf
  cases hk : x.kind with
  | collection =>
    simp only [hk, reduceCtorEq, ↓reduceIte] at hsum
    refine ⟨?_, by simp⟩
    show ((depth + 1).toNat : Int) = _
    rw [UInt32.toNat_add, UInt32.toNat_one]
    omega
  | endCollection =>
    simp only [hk, reduceCtorEq, ↓reduceIte] at hsum
    refine ⟨?_, by simp⟩
    have hle : (1 : UInt32) ≤ depth := UInt32.le_iff_toNat_le.mpr (by
      rw [UInt32.toNat_one]
      omega)
    show ((depth - 1).toNat : Int) = _
    rw [UInt32.toNat_sub_of_le _ _ hle, UInt32.toNat_one]
    omega
  | reportId =>
    simp only [hk, reduceCtorEq, ↓reduceIte] at hsum
    exact ⟨hd'.trans (by omega), by simp⟩
  | usagePage =>
    simp only [hk, reduceCtorEq, ↓reduceIte] at hsum
    refine ⟨hd'.trans (by omega), ?_⟩
    by_cases hz : depth = 0 <;> simp [hz, hzero]
  | usage =>
    simp only [hk, reduceCtorEq, ↓reduceIte] at hsum
    refine ⟨hd'.trans (by omega), ?_⟩
    by_cases hz : depth = 0 <;> simp [hz, hzero]
  | other =>
    simp only [hk, reduceCtorEq, ↓reduceIte] at hsum
    exact ⟨hd'.trans (by omega), by simp⟩

/-- What the loop makes of its nesting depth and of the handle. -/
def scanItems (items : List Item) (s : UInt32 × HidInfo) : UInt32 × HidInfo :=
  items.foldl (fun s x => x.scan s.1 s.2) s

theorem scanItems_snoc (items : List Item) (x : Item) (s : UInt32 × HidInfo) :
    scanItems (items ++ [x]) s = x.scan (scanItems items s).1 (scanItems items s).2 := by
  unfold scanItems
  rw [List.foldl_append]
  rfl

theorem cutItem_nil : CutItem [] := ⟨.long ⟨0, [], by decide⟩, List.nil_prefix, by decide⟩

/-- The loop from the boundary in front of some items. -/
theorem parseDescriptorLoop_items (items : List Item) {tail : List UInt8} (ht : CutItem tail)
    {fuel : Nat} (hf : tail.length ≤ fuel) :
    ∀ (front : List UInt8) (size : Nat) (depth : UInt32) (h : HidInfo),
      parseDescriptorLoop (front ++ (itemBytes items ++ tail)) (items.length + fuel + 1)
        front.length size depth h = some (scanItems items (depth, h)).2 := by
  induction items with
  | nil =>
    intro front size depth h
    rw [List.length_nil, Nat.zero_add]
    exact parseDescriptorLoop_cut ht _ hf _ _ _
  | cons x items ih =>
    intro front size depth h
    have hrest : itemBytes (x :: items) ++ tail = x.bytes ++ (itemBytes items ++ tail) := by
      unfold itemBytes
      rw [List.flatMap_cons, List.append_assoc]
    have hfuel : (x :: items).length + fuel + 1 = items.length + fuel + 1 + 1 := by
      rw [List.length_cons]
      omega
    obtain ⟨size', hround⟩ := parseDescriptorLoop_item x front (itemBytes items ++ tail)
      (items.length + fuel + 1) size depth h
    rw [hfuel, hrest, hround, ← List.append_assoc]
    exact ih (front ++ x.bytes) size' _ _

/-- The scan goes over the items, whatever they are, and stops at a cut one. -/
theorem parseDescriptor_scan (items : List Item) {tail : List UInt8} (ht : CutItem tail)
    (h : HidInfo) :
    parseDescriptor h (itemBytes items ++ tail) = some (scanItems items (0, h)).2 := by
  have hle := length_le_itemBytes items
  have hfuel : (itemBytes items ++ tail).length + 1 =
      items.length + ((itemBytes items ++ tail).length - items.length) + 1 := by
    rw [List.length_append]
    omega
  have htail : tail.length ≤ (itemBytes items ++ tail).length - items.length := by
    rw [List.length_append]
    omega
  unfold parseDescriptor
  rw [hfuel]
  exact parseDescriptorLoop_items items ht htail [] 0 0 h

theorem length_itemBytes_le {pre items : List Item} (h : pre <+: items) :
    (itemBytes pre).length ≤ (itemBytes items).length := by
  obtain ⟨post, rfl⟩ := h
  unfold itemBytes
  rw [List.flatMap_append, List.length_append]
  exact Nat.le_add_right _ _

/-- In a balanced list the loop keeps the nesting depth, and what the items mean. -/
theorem scanItems_balanced {items : List Item} (hbal : Balanced items)
    (hlen : (itemBytes items).length < 2 ^ 32) :
    DepthOf items (scanItems items (0, .zero)).1 ∧
      (scanItems items (0, .zero)).2 = summary items := by
  induction items using List.reverseRecOn with
  | nil => exact ⟨rfl, rfl⟩
  | append_singleton items x ih =>
    have hpre : items <+: items ++ [x] := List.prefix_append _ _
    obtain ⟨hd, hsum⟩ := ih (fun pre h => hbal pre (h.trans hpre))
      (Nat.lt_of_le_of_lt (length_itemBytes_le hpre) hlen)
    have hnest := nesting_le (items ++ [x])
    rw [scanItems_snoc, hsum]
    exact scan_snoc hd (hbal _ (List.prefix_refl _)) (by omega)

/-- **The scan computes the meaning of the items.** The bytes of a balanced list of items,
followed by a part of one more item, leave in the handle what the items say. -/
theorem parseDescriptor_items {items : List Item} {tail : List UInt8} (hbal : Balanced items)
    (hlen : (itemBytes items).length < 2 ^ 32) (ht : CutItem tail) :
    parseDescriptor HidInfo.zero (itemBytes items ++ tail) = some (summary items) := by
  rw [parseDescriptor_scan items ht, (scanItems_balanced hbal hlen).2]

/-- The fields one by one: numbered reports when some item is a Report ID, usage page and usage
from the last item of that kind outside of every collection, or 0. -/
theorem parseDescriptor_grammar (items : List Item) (tail : List UInt8) (hbal : Balanced items)
    (hlen : (itemBytes items).length < 2 ^ 32) (ht : CutItem tail) :
    ∃ h, parseDescriptor HidInfo.zero (itemBytes items ++ tail) = some h ∧
      (h.numberedReports = true ↔ ∃ x ∈ items, x.kind = .reportId) ∧
      h.usagePage = lastValue (outside .usagePage items) ∧
      h.usage = lastValue (outside .usage items) := by
  refine ⟨summary items, parseDescriptor_items hbal hlen ht, ?_, rfl, rfl⟩
  show (items.any fun x => x.kind = .reportId) = true ↔ _
  rw [List.any_eq_true]
  simp only [decide_eq_true_eq]

def Item.usagePageByte (v : UInt8) : Item := .short ⟨0x05, [v], by decide, rfl⟩

def Item.usageByte (v : UInt8) : Item := .short ⟨0x09, [v], by decide, rfl⟩

def Item.collectionByte (v : UInt8) : Item := .short ⟨0xA1, [v], by decide, rfl⟩

def Item.endOfCollection : Item := .short ⟨0xC0, [], by decide, rfl⟩

/-- A mouse: Usage Page, Usage, a collection with a Usage Page of its own, and a Report ID behind
a long item whose data looks like items. -/
def mouseItems : List Item :=
  [.short ⟨0x05, [0x01], by decide, rfl⟩, .short ⟨0x09, [0x02], by decide, rfl⟩,
    .short ⟨0xA1, [0x01], by decide, rfl⟩, .short ⟨0x05, [0x09], by decide, rfl⟩,
    .long ⟨0x10, [0x09, 0x06], by decide⟩, .short ⟨0x85, [0x01], by decide, rfl⟩,
    .short ⟨0xC0, [], by decide, rfl⟩]

theorem mouseItems_balanced : Balanced mouseItems := balanced_of_take (by decide)

theorem parseDescriptor_grammar_mouse :
    ∃ h, parseDescriptor HidInfo.zero (itemBytes mouseItems ++ [0x27, 0xFF]) = some h ∧
      (h.numberedReports = true ↔ ∃ x ∈ mouseItems, x.kind = .reportId) ∧
      h.usagePage = lastValue (outside .usagePage mouseItems) ∧
      h.usage = lastValue (outside .usage mouseItems) :=
  parseDescriptor_grammar mouseItems [0x27, 0xFF] mouseItems_balanced (by decide)
    ⟨.short ⟨0x27, [0xFF, 0, 0, 0], by decide, rfl⟩, ⟨[0, 0, 0], rfl⟩, by decide⟩

example : summary mouseItems = ⟨true, 1, 2⟩ := by decide

end Libhs
