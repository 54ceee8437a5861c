import Libhs.Lib.Cells
import Libhs.Lib.Run
import Libhs.Waiting

/-!
# Descriptor sets

A descriptor set is a counter and two arrays that are read side by side. `HsDescriptorSet.Holds` says
which list of descriptors and ids it is; every operation edits that list, and POSIX
`hs_poll` answers by the order in it.

An operation that fails an assertion, or leaves an array, has no value.
-/

namespace Libhs

variable {δ : Type}

/-- `hs_descriptor_set`. -/
structure HsDescriptorSet (δ : Type) where
  count : Nat
  desc : Vector δ 64
  id : Vector Int32 64

/-! ## `platform.c` -/

/-- `hs_descriptor_set_clear`. -/
def hsDescriptorSetClear (set : HsDescriptorSet δ) : HsDescriptorSet δ := { set with count := 0 }

/-- `hs_descriptor_set_add`; `valid` is what the platform asserts of a descriptor. -/
def hsDescriptorSetAdd (valid : δ → Bool) (set : HsDescriptorSet δ) (desc : δ) (id : Int32) :
    Option (HsDescriptorSet δ) :=
  if set.count < 64 ∧ valid desc then do
    let descs ← Cells.put set.desc set.count desc
    let ids ← Cells.put set.id set.count id
    some ⟨set.count + 1, descs, ids⟩
  else none

/-- One round of `hs_descriptor_set_remove`; `set.count` is its local `count`. -/
def removeRound (id : Int32) (set : HsDescriptorSet δ) (i : Nat) : Option (HsDescriptorSet δ) := do
  let x ← set.id[i]?
  if x ≠ id then
    let desc ← set.desc[i]?
    let descs ← Cells.put set.desc set.count desc
    let ids ← Cells.put set.id set.count x
    some ⟨set.count + 1, descs, ids⟩
  else some set

/-- `hs_descriptor_set_remove`. -/
def hsDescriptorSetRemove (set : HsDescriptorSet δ) (id : Int32) : Option (HsDescriptorSet δ) :=
  (List.range set.count).foldlM (removeRound id) { set with count := 0 }

/-! ## The set as a list -/

/-- The set holds the list: the counter is its length, and the arrays start with its descriptors and
its ids. -/
structure HsDescriptorSet.Holds (set : HsDescriptorSet δ) (l : List (δ × Int32)) : Prop where
  count : set.count = l.length
  desc : Cells.Fills set.desc (l.map Prod.fst)
  id : Cells.Fills set.id (l.map Prod.snd)

variable {set : HsDescriptorSet δ} {l kept : List (δ × Int32)} {valid : δ → Bool} {desc : δ}
  {id : Int32} {i : Nat}

theorem HsDescriptorSet.Holds.room (h : set.Holds l) : l.length ≤ 64 := by
  have := h.id.length_le
  rwa [List.length_map] at this

/-- A set whose counter is 0, whatever is in its arrays. -/
theorem holds_empty (hz : set.count = 0) : set.Holds [] where
  count := hz
  desc := Cells.fills_nil
  id := Cells.fills_nil

theorem descriptorSetAdd_spec (h : set.Holds l) (hroom : l.length < 64) (hv : valid desc = true) :
    ∃ set', hsDescriptorSetAdd valid set desc id = some set' ∧ set'.Holds (l ++ [(desc, id)]) := by
  have hlt : set.count < 64 := by
    rw [h.count]
    exact hroom
  obtain ⟨descs, hdescs⟩ := Cells.put_of_lt set.desc desc hlt
  obtain ⟨ids, hids⟩ := Cells.put_of_lt set.id id hlt
  refine ⟨⟨set.count + 1, descs, ids⟩, ?_, ?_, ?_, ?_⟩
  · simp only [hsDescriptorSetAdd, hlt, hv, and_self, ↓reduceIte, hdescs, hids, Option.bind_eq_bind,
      Option.bind_some]
  · rw [h.count, List.length_append, List.length_singleton]
  · rw [List.map_append]
    exact h.desc.put (by rw [List.length_map, ← h.count]; exact hdescs)
  · rw [List.map_append]
    exact h.id.put (by rw [List.length_map, ← h.count]; exact hids)

/-! ## Removal -/

/-- Between two rounds of the removal, both arrays are compacted to the same pairs. -/
structure Compacting (set : HsDescriptorSet δ) (l kept : List (δ × Int32)) (i : Nat) : Prop where
  count : set.count = kept.length
  desc : Cells.Compacted set.desc (l.map Prod.fst) (kept.map Prod.fst) i
  id : Cells.Compacted set.id (l.map Prod.snd) (kept.map Prod.snd) i

theorem Compacting.count_le (h : Compacting set l kept i) : set.count ≤ i := by
  have := h.id.le
  rwa [List.length_map, ← h.count] at this

/-- A round keeps the pair it looks at, unless the id is the one to remove. -/
theorem removeRound_spec (id : Int32) (h : Compacting set l kept i) (hroom : l.length ≤ 64)
    (hi : i < l.length) :
    ∃ set', removeRound id set i = some set' ∧
      Compacting set' l (kept ++ [l[i]].filter fun e => e.2 ≠ id) (i + 1) := by
  have hdesc : set.desc[i]? = some l[i].1 := by
    rw [h.desc.back i (Nat.le_refl i) (by rwa [List.length_map]), List.getElem?_map,
      List.getElem?_eq_getElem hi, Option.map_some]
  have hid : set.id[i]? = some l[i].2 := by
    rw [h.id.back i (Nat.le_refl i) (by rwa [List.length_map]), List.getElem?_map,
      List.getElem?_eq_getElem hi, Option.map_some]
  have hlt : set.count < 64 :=
    Nat.lt_of_le_of_lt h.count_le (Nat.lt_of_lt_of_le hi hroom)
  obtain ⟨descs, hdescs⟩ := Cells.put_of_lt set.desc l[i].1 hlt
  obtain ⟨ids, hids⟩ := Cells.put_of_lt set.id l[i].2 hlt
  by_cases hne : l[i].2 ≠ id
  · refine ⟨⟨set.count + 1, descs, ids⟩, ?_, ?_⟩
    · simp only [removeRound, hid, hdesc, hdescs, hids, hne, ne_eq, not_false_eq_true, ↓reduceIte,
        Option.bind_eq_bind, Option.bind_some]
    · rw [List.filter_cons_of_pos (by simpa using hne), List.filter_nil]
      refine ⟨?_, ?_, ?_⟩
      · rw [h.count, List.length_append, List.length_singleton]
      · rw [List.map_append]
        exact h.desc.keep (by rw [List.length_map, ← h.count]; exact hdescs)
      · rw [List.map_append]
        exact h.id.keep (by rw [List.length_map, ← h.count]; exact hids)
  · refine ⟨set, ?_, ?_⟩
    · simp only [removeRound, hid, hne, ↓reduceIte, Option.bind_eq_bind, Option.bind_some]
    · rw [List.filter_cons_of_neg (by simpa using hne), List.filter_nil, List.append_nil]
      exact ⟨h.count, h.desc.skip, h.id.skip⟩

/-- By induction on the rounds. -/
theorem removeRounds_spec (id : Int32) (h : Compacting set l [] 0) (hroom : l.length ≤ 64) :
    ∀ k, k ≤ l.length → ∃ set', (List.range k).foldlM (removeRound id) set = some set' ∧
      Compacting set' l ((l.take k).filter fun e => e.2 ≠ id) k := by
  intro k
  induction k with
  | zero => exact fun _ => ⟨set, rfl, h⟩
  | succ k ih =>
    intro hk
    obtain ⟨set₁, e₁, h₁⟩ := ih (Nat.le_of_succ_le hk)
    obtain ⟨set₂, e₂, h₂⟩ := removeRound_spec id h₁ hroom hk
    refine ⟨set₂, ?_, ?_⟩
    · rw [List.range_succ, List.foldlM_append, e₁]
      simpa using e₂
    · rwa [← List.filter_append, List.take_append_getElem] at h₂

theorem descriptorSetRemove_spec (h : set.Holds l) (id : Int32) :
    ∃ set', hsDescriptorSetRemove set id = some set' ∧
      set'.Holds (l.filter fun e => e.2 ≠ id) := by
  have hstart : Compacting { set with count := 0 } l [] 0 :=
    ⟨rfl, h.desc.compacted, h.id.compacted⟩
  obtain ⟨set', e, h'⟩ := removeRounds_spec id hstart h.room l.length (Nat.le_refl _)
  rw [List.take_length] at h'
  refine ⟨set', ?_, h'.count, h'.desc.front, h'.id.front⟩
  rw [hsDescriptorSetRemove, h.count]
  exact e

/-! ## Sequences of operations -/

/-- An operation on a set. -/
inductive SetOp (δ : Type)
  | clear
  | add (desc : δ) (id : Int32)
  | remove (id : Int32)

/-- The operation on the arrays. -/
def SetOp.exec (valid : δ → Bool) (set : HsDescriptorSet δ) : SetOp δ → Option (HsDescriptorSet δ)
  | .clear => some (hsDescriptorSetClear set)
  | .add desc id => hsDescriptorSetAdd valid set desc id
  | .remove id => hsDescriptorSetRemove set id

/-- The operation on the list. -/
def SetOp.apply (l : List (δ × Int32)) : SetOp δ → List (δ × Int32)
  | .clear => []
  | .add desc id => l ++ [(desc, id)]
  | .remove id => l.filter fun e => e.2 ≠ id

/-- An addition needs room in the set, and a descriptor. -/
def SetOp.Allowed (valid : δ → Bool) (l : List (δ × Int32)) : SetOp δ → Prop
  | .add desc _ => l.length < 64 ∧ valid desc = true
  | _ => True

/-- The list that the operations make of an empty set. -/
def listOf (ops : List (SetOp δ)) : List (δ × Int32) := ops.foldl SetOp.apply []

instance (valid : δ → Bool) (l : List (δ × Int32)) : ∀ op, Decidable (SetOp.Allowed valid l op)
  | .clear => .isTrue trivial
  | .add desc _ => inferInstanceAs (Decidable (l.length < 64 ∧ valid desc = true))
  | .remove _ => .isTrue trivial

/-- The operations are allowed one after the other. -/
def AllAllowed (valid : δ → Bool) : List (δ × Int32) → List (SetOp δ) → Prop :=
  Run.Along (fun l op => some (SetOp.apply l op)) (SetOp.Allowed valid)

variable {op : SetOp δ} {ops : List (SetOp δ)}

theorem setOp_spec (h : set.Holds l) (ha : op.Allowed valid l) :
    ∃ set', SetOp.exec valid set op = some set' ∧ set'.Holds (SetOp.apply l op) := by
  cases op with
  | clear => exact ⟨hsDescriptorSetClear set, rfl, holds_empty rfl⟩
  | add desc id => exact descriptorSetAdd_spec h ha.1 ha.2
  | remove id => exact descriptorSetRemove_spec h id

theorem run_setOps (h : set.Holds l) (ha : AllAllowed valid l ops) :
    ∃ set', Run.run (SetOp.exec valid) set ops = some set' ∧
      set'.Holds (ops.foldl SetOp.apply l) := by
  induction ops generalizing set l with
  | nil => exact ⟨set, rfl, h⟩
  | cons op ops ih =>
    obtain ⟨set₁, e₁, h₁⟩ := setOp_spec h ha.1
    obtain ⟨set', e, h'⟩ := ih h₁ (ha.2 _ rfl)
    refine ⟨set', ?_, h'⟩
    simpa only [Run.run, e₁, Option.bind_eq_bind, Option.bind_some] using e

/-! ## `hs_poll` -/

namespace Posix

/-- `struct pollfd`, as it is passed to `poll`. -/
structure PollFd where
  fd : Int32
  events : UInt16
deriving DecidableEq

/-- What happens in a round: the clock, and `poll` on the array that is passed to it. -/
structure PollRound where
  now : UInt64
  poll : List PollFd → PollReturn

def PollRound.on (pfd : List PollFd) (round : PollRound) : Round := ⟨round.now, round.poll pfd⟩

/-- `desc >= 0`. -/
def isDescriptor (desc : Int32) : Bool := 0 ≤ desc

/-- The entry of the array for `set->desc[i]`, with `POLLIN`. -/
def fillPollFd (set : HsDescriptorSet Int32) (i : Nat) : Option PollFd := do
  let fd ← set.desc[i]?
  some ⟨fd, 0x01⟩

/-- The last loop of `hs_poll`; none behind it is the last assertion. -/
def findReady (set : HsDescriptorSet Int32) (revents : List UInt16) : List Nat → Option Int32
  | [] => none
  | i :: is => do
    let r ← revents[i]?
    if r &&& pollMask ≠ 0 then set.id[i]? else findReady set revents is

/-- `hs_poll` of `platform_posix.c` on the arrays of a set. -/
def hsPollSet (set : HsDescriptorSet Int32) (timeout : Int32) (start : UInt64)
    (rounds : List PollRound) : Waited (Option Int) :=
  if set.count = 0 ∨ 64 < set.count then ⟨[], some none⟩
  else
    match (List.range set.count).mapM (fillPollFd set) with
    | none => ⟨[], some none⟩
    | some pfd =>
      let timeout := if timeout < 0 then -1 else timeout
      let polled := restart timeout start (rounds.map (PollRound.on pfd))
      { waits := polled.waits
        result := polled.result.map fun
          | .timedOut => some 0
          | .ready revents => (findReady set revents (List.range set.count)).map Int32.toInt
          | _ => some (hsError .system (some "poll() failed: %s")) }

/-! ## The answer of `hs_poll` -/

/-- What `poll` is asked about a list. -/
def pollFds (l : List (Int32 × Int32)) : List PollFd := l.map fun e => ⟨e.1, 0x01⟩

/-- The first pair whose descriptor is ready. -/
def firstReadyPair (l : List (Int32 × Int32)) (revents : List UInt16) :
    Option ((Int32 × Int32) × UInt16) :=
  (l.zip revents).find? fun e => e.2 &&& pollMask ≠ 0

/-- What a positive result of `poll` on `n` descriptors comes with: something happened to one of
them, and nothing is reported but what was asked for or cannot be masked. -/
structure Reported (n : Nat) (revents : List UInt16) : Prop where
  length : revents.length = n
  happened : ∃ r ∈ revents, r ≠ 0
  only : ∀ r ∈ revents, r &&& pollMask = r

/-- `poll` keeps its word. -/
def PollRound.Sound (round : PollRound) : Prop :=
  ∀ pfd revents, round.poll pfd = .ready revents → Reported pfd.length revents

variable {set : HsDescriptorSet Int32} {l : List (Int32 × Int32)} {revents : List UInt16}
  {timeout : Int32} {start : UInt64} {rounds : List PollRound}

theorem fillPollFds (h : set.Holds l) :
    (List.range set.count).mapM (fillPollFd set) = some (pollFds l) := by
  have key : ∀ k, k ≤ l.length →
      (List.range k).mapM (fillPollFd set) = some (pollFds (l.take k)) := by
    intro k
    induction k with
    | zero => exact fun _ => rfl
    | succ k ih =>
      intro hk
      have hdesc : set.desc[k]? = some l[k].1 := by
        rw [h.desc k (by rwa [List.length_map]), List.getElem?_map, List.getElem?_eq_getElem hk,
          Option.map_some]
      have hfill : (List.mapM (fillPollFd set) [k]) = some (pollFds [l[k]]) := by
        simp [fillPollFd, hdesc, pollFds]
      rw [List.range_succ, List.mapM_append, ih (Nat.le_of_succ_le hk), hfill,
        ← List.take_append_getElem hk]
      simp only [pollFds, List.map_append]
      rfl
  rw [h.count, key l.length (Nat.le_refl _), List.take_length]

/-- The loop looks at the pairs from number `i` on. -/
theorem findReady_spec (h : set.Holds l) (revents : List UInt16) (n i : Nat)
    (hi : i + n = l.length) :
    findReady set revents (List.range' i n) = firstReady (l.drop i) (revents.drop i) := by
  induction n generalizing i with
  | zero =>
    rw [List.drop_eq_nil_of_le (by omega)]
    rfl
  | succ n ih =>
    have hil : i < l.length := by omega
    have hid : set.id[i]? = some l[i].2 := by
      rw [h.id i (by rwa [List.length_map]), List.getElem?_map, List.getElem?_eq_getElem hil,
        Option.map_some]
    rw [List.range'_succ, List.drop_eq_getElem_cons hil, findReady]
    rcases Nat.lt_or_ge i revents.length with hir | hir
    · rw [List.getElem?_eq_getElem hir, List.drop_eq_getElem_cons hir, firstReady,
        Option.bind_eq_bind, Option.bind_some, hid, ih (i + 1) (by omega)]
    · rw [List.getElem?_eq_none hir, List.drop_eq_nil_of_le hir]
      rfl

/-- On the arrays `hs_poll` does what it does on the list. -/
theorem hsPollSet_refines (h : set.Holds l) (hne : l ≠ []) :
    hsPollSet set timeout start rounds =
      hsPoll ⟨l, h.room⟩ timeout start (rounds.map (PollRound.on (pollFds l))) := by
  have hcount : ¬(set.count = 0 ∨ 64 < set.count) := by
    have hroom := h.room
    have hpos := List.length_pos_iff.mpr hne
    have hc := h.count
    omega
  have hfind (revents : List UInt16) :
      findReady set revents (List.range set.count) = firstReady l revents := by
    rw [h.count, List.range_eq_range', findReady_spec h revents l.length 0 (Nat.zero_add _)]
    rfl
  simp only [hsPollSet, hcount, ↓reduceIte, fillPollFds h, hfind]
  rfl

theorem firstReady_eq (l : List (Int32 × Int32)) (revents : List UInt16) :
    firstReady l revents = (firstReadyPair l revents).map fun e => e.1.2 := by
  induction l generalizing revents with
  | nil => rfl
  | cons e l ih =>
    cases revents with
    | nil => rfl
    | cons r revents =>
      simp only [firstReady, firstReadyPair, List.zip_cons_cons, List.find?_cons]
      split
      · next hready => simp only [hready, ne_eq, not_false_eq_true, decide_true, Option.map_some]
      · next hready =>
        rw [ih]
        simp only [hready, decide_false, firstReadyPair]

/-- Some pair is ready, so the last assertion cannot fail. -/
theorem firstReadyPair_some (hr : Reported l.length revents) :
    ∃ e, firstReadyPair l revents = some e ∧
      (l.zip revents).find? (fun e => e.2 ≠ 0) = some e := by
  have hsame : firstReadyPair l revents = (l.zip revents).find? fun e => e.2 ≠ 0 := by
    rw [firstReadyPair, ← List.head?_filter, ← List.head?_filter]
    refine congrArg List.head? (List.filter_congr fun e he => ?_)
    rw [hr.only e.2 (List.of_mem_zip he).2]
  obtain ⟨r, hmem, hne⟩ := hr.happened
  obtain ⟨j, hj, rfl⟩ := List.mem_iff_getElem.mp hmem
  have hjl : j < l.length := hr.length ▸ hj
  have hjz : j < (l.zip revents).length := by
    rw [List.length_zip]
    exact Nat.lt_min.mpr ⟨hjl, hj⟩
  have hz : (l[j], revents[j]) ∈ l.zip revents := by
    rw [← List.getElem_zip (h := hjz)]
    exact List.getElem_mem _
  have hsome : ((l.zip revents).find? fun e => e.2 ≠ 0).isSome :=
    List.find?_isSome.mpr ⟨_, hz, by simpa using hne⟩
  obtain ⟨e, he⟩ := Option.isSome_iff_exists.mp hsome
  exact ⟨e, hsame.trans he, he⟩

/-- The answer of `poll` that ends the wait of `hs_poll`. -/
def pollAnswer (l : List (Int32 × Int32)) (timeout : Int32) (start : UInt64)
    (rounds : List PollRound) : Option PollReturn :=
  let timeout := if timeout < 0 then -1 else timeout
  (restart timeout start (rounds.map (PollRound.on (pollFds l)))).result

theorem restart_answer {timeout : Int32} {start : UInt64} {rounds : List Round}
    {revents : List UInt16} (h : (restart timeout start rounds).result = some (.ready revents)) :
    ∃ round ∈ rounds, round.ret = .ready revents := by
  induction rounds with
  | nil => cases h
  | cons round rounds ih =>
    unfold restart at h
    cases hret : round.ret with
    | interrupted =>
      simp only [hret] at h
      obtain ⟨round', hmem, hready⟩ := ih h
      exact ⟨round', List.mem_cons_of_mem _ hmem, hready⟩
    | timedOut =>
      simp only [hret] at h
      cases h
    | failed =>
      simp only [hret] at h
      cases h
    | ready revents' =>
      simp only [hret] at h
      cases h
      exact ⟨round, List.mem_cons_self, hret⟩

/-- The answers of a sound `poll` are about the pairs of the list. -/
theorem reported_answer (hs : ∀ round ∈ rounds, round.Sound)
    (hans : pollAnswer l timeout start rounds = some (.ready revents)) :
    Reported l.length revents := by
  obtain ⟨asked, hmem, hready⟩ := restart_answer hans
  obtain ⟨round, hround, rfl⟩ := List.mem_map.mp hmem
  have hr := hs round hround _ _ hready
  rwa [pollFds, List.length_map] at hr

/-- After any operations a set is the list they make, in order, and `hs_poll` returns the id of the
first pair in it that is ready. -/
theorem hsPollSet_order {ops : List (SetOp Int32)} (hzero : set.count = 0)
    (ha : AllAllowed isDescriptor [] ops) :
    ∃ set', Run.run (SetOp.exec isDescriptor) set ops = some set' ∧ set'.Holds (listOf ops) ∧
      ∀ timeout start rounds, (∀ round ∈ rounds, round.Sound) → listOf ops ≠ [] →
        (pollAnswer (listOf ops) timeout start rounds = some .timedOut →
          (hsPollSet set' timeout start rounds).result = some (some 0)) ∧
        ∀ revents, pollAnswer (listOf ops) timeout start rounds = some (.ready revents) →
          ∃ e, ((listOf ops).zip revents).find? (fun e => e.2 ≠ 0) = some e ∧
            (hsPollSet set' timeout start rounds).result = some (some e.1.2.toInt) := by
  obtain ⟨set', e, h⟩ : ∃ set', Run.run (SetOp.exec isDescriptor) set ops = some set' ∧
      set'.Holds (listOf ops) := run_setOps (holds_empty hzero) ha
  refine ⟨set', e, h, fun timeout start rounds hs hne => ⟨fun hans => ?_, fun revents hans => ?_⟩⟩
  · rw [pollAnswer] at hans
    simp only [hsPollSet_refines h hne, hsPoll, hans, Option.map_some]
  · obtain ⟨e, hfirst, hfind⟩ := firstReadyPair_some (reported_answer hs hans)
    refine ⟨e, hfind, ?_⟩
    rw [pollAnswer] at hans
    simp only [hsPollSet_refines h hne, hsPoll, hans, Option.map_some, firstReady_eq, hfirst]

/-- A round in which the last of the descriptors hangs up. -/
def hangUp : PollRound where
  now := 1000
  poll pfd := if pfd.length = 2 then .ready [0, 0x10] else .timedOut

theorem sound_hangUp : hangUp.Sound := by
  intro pfd revents h
  simp only [hangUp] at h
  split at h
  · next hlen =>
    cases h
    refine ⟨hlen.symm, ⟨0x10, List.mem_cons_of_mem _ List.mem_cons_self, by decide⟩, fun r hr => ?_⟩
    rcases List.mem_cons.mp hr with rfl | hr
    · rfl
    · obtain rfl := List.mem_singleton.mp hr
      rfl
  · cases h

/-- Two ids are used twice each; one of them is removed. -/
def twoIds : List (SetOp Int32) := [.add 3 1, .add 4 2, .add 5 1, .add 6 2, .remove 1]

def freshSet : HsDescriptorSet Int32 := ⟨0, .replicate 64 0, .replicate 64 0⟩

theorem hsPollSet_order_removed :
    ∃ set', Run.run (SetOp.exec isDescriptor) freshSet twoIds = some set' ∧
      set'.Holds [(4, 2), (6, 2)] ∧ (hsPollSet set' 50 1000 [hangUp]).result = some (some 2) := by
  have ha : AllAllowed isDescriptor [] twoIds :=
    (Run.along_of_check (c := fun l op => decide (SetOp.Allowed isDescriptor l op))
      (by decide)).mono fun _ _ h => of_decide_eq_true h
  have hzero : freshSet.count = 0 := rfl
  obtain ⟨set', e, h, hpoll⟩ := hsPollSet_order hzero ha
  refine ⟨set', e, h, ?_⟩
  obtain ⟨pair, hpair, hresult⟩ := (hpoll 50 1000 [hangUp]
    (fun _ hmem => List.mem_singleton.mp hmem ▸ sound_hangUp) (by decide)).2 [0, 0x10] rfl
  cases hpair
  exact hresult

end Posix

end Libhs
