import Libhs.Bound

/-!
# Handing a new device on

The back-ends make devices in their own ways and hand them on in the same way
(`handOver`): to the table of a monitor (`handOver_add_spec`) or to the callback of a
plain enumeration (`handOver_user_spec`). `Makes` is what is needed of a back-end.
-/

namespace Libhs
open Pointer

/-- What a function that makes a device hands back, for the outcome `res`. -/
def HandsBack (res : Except Int HsDevice) (w w' : World) (r : Int) (dev : Option Nat) : Prop :=
  match res with
  | .error e => r = e ∧ dev = none ∧ w'.busy = w.busy
  | .ok D => r = 1 ∧ dev = some w.devs.brk ∧ w'.busy = w.devs.brk :: w.busy ∧
      w'.devs.get w.devs.brk = some D

/-- `mk` makes a new device with the outcome `res`. -/
structure Makes (mk : World → Option ((Int × Option Nat) × World)) (res : Except Int HsDevice) :
    Prop where
  made : Yields res fun D => ∃ key, Made key D
  spec : ∀ {mon : Option Nat} {w : World} {R : Roster}, Bound mon w R → ∃ r dev w',
    mk w = some ((r, dev), w') ∧ Bound mon w' (R.setStatus w.devs.brk .disconnected) ∧
      HandsBack res w w' r dev

/-- The outcome of a function that allocates a device and fills it in. -/
def makeResult (callocOk : Bool) (fill : HsDevice → Except Int HsDevice) : Except Int HsDevice :=
  if callocOk then fill blankDevice else .error (hsError .memory none)

variable {u : User} {w w' : World} {R R' : Roster} {mon : Option Nat} {m f : Nat} {r : Int}
  {mk : World → Option ((Int × Option Nat) × World)} {res : Except Int HsDevice}

/-- Returning an error, or 0, without a device. -/
theorem makes_nothing {e : Int} (he : e ≤ 0) :
    Makes (fun w => some ((e, none), w)) (.error e) := by
  refine ⟨he, fun {mon w R} hb => ?_⟩
  exact ⟨e, none, w, rfl, hb.setStatus (Heap.get_brk w.devs) .disconnected, rfl, rfl, rfl⟩

theorem makes_of_fill {callocOk : Bool} {fill : HsDevice → Except Int HsDevice}
    (hy : Yields (fill blankDevice) fun D => ∃ key, Made key D) :
    Makes (fun w => if callocOk then w.makeDevice fill else some ((hsError .memory none, none), w))
      (makeResult callocOk fill) := by
  cases callocOk with
  | true => exact ⟨hy, fun hb => hb.makeDevice fill hy⟩
  | false => exact makes_nothing (hsError_nonpos .memory none)

/-! ## To a monitor -/

/-- What handing a new object `d` to a monitor does to the lists. -/
def Adds (u : User) (m : Nat) (res : Except Int HsDevice) (R : Roster) (r : Int) (R' : Roster) :
    Prop :=
  ∃ d, R.Unused d ∧
    match res with
    | .error e => r = e ∧ R' = R.setStatus d .disconnected
    | .ok D => ∃ key, D.key = some key ∧
        (r, R') = (R.setStatus d .disconnected).add u m ⟨d, key, D.iface⟩

theorem handOver_add_spec (hu : u.limit ≤ uintMod) (hr : Rep w m R) (hmk : Makes mk res) :
    ∃ r w' R', handOver mk (fun d w => hsMonitorAdd u w d) w = some (r, w') ∧ Rep w' m R' ∧
      w'.busy = w.busy ∧ Adds u m res R r R' := by
  have hb : Bound (some m) w R := hr
  obtain ⟨r, dev, w₁, e₁, hb₁, hread⟩ := hmk.spec hb
  have hr₁ : Rep w₁ m (R.setStatus w.devs.brk .disconnected) := hb₁
  have hnew := hr.unused_brk
  have hy := hmk.made
  cases hres : res with
  | error e =>
    rw [hres] at hread hy
    obtain ⟨rfl, rfl, hbusy⟩ := hread
    have hle : r ≤ 0 := hy
    refine ⟨r, w₁, _, ?_, hr₁, hbusy, w.devs.brk, hnew, rfl, rfl⟩
    simp only [handOver, e₁, hle, ↓reduceIte, Option.bind_eq_bind, Option.bind_some]
  | ok D =>
    rw [hres] at hread hy
    obtain ⟨rfl, rfl, hbusy, hD⟩ := hread
    obtain ⟨key, hmade⟩ := hy
    have hmem : w.devs.brk ∈ w₁.busy := by
      rw [hbusy]
      exact List.mem_cons_self
    obtain ⟨w₂, w₃, e₂, e₃, hr₃, hbusy₃⟩ := addMade_spec hu hr₁ hD hmade hnew hmem
    refine ⟨((R.setStatus w.devs.brk .disconnected).add u m ⟨w.devs.brk, key, D.iface⟩).1, w₃,
      ((R.setStatus w.devs.brk .disconnected).add u m ⟨w.devs.brk, key, D.iface⟩).2, ?_, hr₃, ?_,
      w.devs.brk, hnew, key, hmade.key, rfl⟩
    · have hpos : ¬ (1 : Int) ≤ 0 := by decide
      simp only [handOver, e₁, e₂, e₃, hpos, ↓reduceIte, Option.bind_eq_bind, Option.bind_some]
    · rw [hbusy₃, hbusy]
      exact List.erase_cons_head ..

theorem Adds.ok (h : Adds u m res R r R') (hok : R.Ok) : R'.Ok := by
  obtain ⟨d, hd, h⟩ := h
  have hok₁ := hok.setStatus hd.1 .disconnected
  cases res with
  | error e =>
    obtain ⟨-, rfl⟩ := h
    exact hok₁
  | ok D =>
    obtain ⟨key, -, h⟩ := h
    obtain rfl := congrArg Prod.snd h
    exact hok₁.add hd

theorem Adds.routine (h : Adds u m res R r R') : Routine R.log R'.log := by
  obtain ⟨d, hd, h⟩ := h
  cases res with
  | error e =>
    obtain ⟨-, rfl⟩ := h
    exact .refl R.log
  | ok D =>
    obtain ⟨key, -, h⟩ := h
    obtain rfl := congrArg Prod.snd h
    exact add_routine (R := R.setStatus d .disconnected)

/-- A device that goes into the table is new. -/
theorem Adds.entries (h : Adds u m res R r R') :
    R'.entries = R.entries ∨ ∃ e, R'.entries = e :: R.entries ∧ R.Unused e.dev := by
  obtain ⟨d, hd, h⟩ := h
  cases res with
  | error e =>
    obtain ⟨-, rfl⟩ := h
    exact Or.inl rfl
  | ok D =>
    obtain ⟨key, -, h⟩ := h
    obtain rfl := congrArg Prod.snd h
    by_cases hp : (⟨d, key, D.iface⟩ : Entry).pair ∈ R.entries.map Entry.pair
    · exact Or.inl (congrArg (fun x => x.2.entries)
        (add_of_mem (u := u) (m := m) (R := R.setStatus d .disconnected) hp))
    · exact Or.inr ⟨_, congrArg (fun x => x.2.entries)
        (add_of_not_mem (u := u) (m := m) (R := R.setStatus d .disconnected) hp), hd⟩

/-- What the table gains is the device that was read. -/
theorem Adds.read {e : Entry} (h : Adds u m res R r R') (he : e ∈ R'.entries) :
    e ∈ R.entries ∨ ∃ D, res = .ok D ∧ D.key = some e.key := by
  obtain ⟨d, hd, h⟩ := h
  cases res with
  | error e =>
    obtain ⟨-, rfl⟩ := h
    exact Or.inl he
  | ok D =>
    obtain ⟨key, hkey, h⟩ := h
    obtain rfl := congrArg Prod.snd h
    by_cases hp : (⟨d, key, D.iface⟩ : Entry).pair ∈ R.entries.map Entry.pair
    · rw [add_of_mem (R := R.setStatus d .disconnected) hp] at he
      exact Or.inl he
    · rw [add_of_not_mem (R := R.setStatus d .disconnected) hp] at he
      rcases List.mem_cons.mp he with rfl | he
      · exact Or.inr ⟨D, rfl, hkey⟩
      · exact Or.inl he

theorem Adds.failed {e : Int} (h : Adds u m res R r R') (hres : res = .error e) : r = e := by
  obtain ⟨d, -, h⟩ := h
  subst hres
  exact h.1

open Keyed in
/-- The change of the device set. -/
def addChange : Except Int HsDevice → Option (Change CStr UInt8)
  | .error _ => none
  | .ok D => D.key.map fun key => .add key D.iface

open Keyed in
theorem Adds.pairs (h : Adds u m res R r R') :
    R'.pairs = replay R.pairs (addChange res).toList := by
  obtain ⟨d, hd, h⟩ := h
  cases res with
  | error e =>
    obtain ⟨-, rfl⟩ := h
    rfl
  | ok D =>
    obtain ⟨key, hkey, h⟩ := h
    obtain rfl := congrArg Prod.snd h
    simp only [addChange, hkey, Option.map_some, Option.toList_some]
    exact pairs_add

/-- Without callbacks the result is 0, unless no device was made. -/
theorem Adds.silent (h : Adds u m res R r R') (hl : R.listeners = []) :
    R'.listeners = [] ∧ ((∃ e, res = .error e ∧ r = e) ∨ r = 0) := by
  obtain ⟨d, hd, h⟩ := h
  cases res with
  | error e =>
    obtain ⟨rfl, rfl⟩ := h
    exact ⟨hl, Or.inl ⟨r, rfl, rfl⟩⟩
  | ok D =>
    obtain ⟨key, hkey, h⟩ := h
    obtain ⟨hz, hl'⟩ := add_silent (u := u) (m := m) (e := ⟨d, key, D.iface⟩)
      (R := R.setStatus d .disconnected) hl
    rw [← congrArg Prod.snd h] at hl'
    exact ⟨hl', Or.inr ((congrArg Prod.fst h).trans hz)⟩

/-! ## To the user -/

/-- The table and the callbacks are the same, and the log goes on. -/
structure Roster.Keeps (R R' : Roster) : Prop where
  entries : R'.entries = R.entries
  listeners : R'.listeners = R.listeners
  nextId : R'.nextId = R.nextId
  status : ∀ d ∈ R.devs, R'.status d = R.status d
  grows : R.log <+: R'.log
  life : Life R.log R.members none → Life R'.log R.members none

theorem Roster.Keeps.refl (R : Roster) : R.Keeps R :=
  ⟨rfl, rfl, rfl, fun _ _ => rfl, List.prefix_refl R.log, id⟩

theorem Roster.Keeps.trans {R'' : Roster} (h : R.Keeps R') (h' : R'.Keeps R'') : R.Keeps R'' where
  entries := h'.entries.trans h.entries
  listeners := h'.listeners.trans h.listeners
  nextId := h'.nextId.trans h.nextId
  status d hd := by
    have hd' : d ∈ R'.devs := by
      rw [Roster.devs, h.entries]
      exact hd
    exact (h'.status d hd').trans (h.status d hd)
  grows := h.grows.trans h'.grows
  life hl := by
    have hm : R'.members = R.members := by rw [Roster.members, h.entries, Roster.members]
    have hl' := h'.life (by rw [hm]; exact h.life hl)
    rwa [hm] at hl'

theorem Roster.Keeps.ok (h : R.Keeps R') (hok : R.Ok) : R'.Ok :=
  ok_of_same hok h.entries h.listeners h.nextId h.status (h.life hok.life)

theorem Roster.Keeps.pairs (h : R.Keeps R') : R'.pairs = R.pairs := by
  rw [Roster.pairs, h.entries, Roster.pairs]

theorem handOver_user_spec (hu : u.limit ≤ uintMod) (hb : Bound mon w R) (hmk : Makes mk res)
    (f : Nat) : ∃ r w' R', handOver mk (userEnumerate u f) w = some (r, w') ∧ Bound mon w' R' ∧
      w'.busy = w.busy ∧ R.Keeps R' ∧
      (∀ e, res = .error e → r = e ∧ R'.log = R.log) := by
  obtain ⟨r, dev, w₁, e₁, hb₁, hread⟩ := hmk.spec hb
  have hnew := hb.held.unused_brk.1
  have hkeep : R.Keeps (R.setStatus w.devs.brk .disconnected) := by
    refine ⟨rfl, rfl, rfl, fun d hd => ?_, List.prefix_refl R.log, id⟩
    have hne : d ≠ w.devs.brk := fun he => hnew (he ▸ hd)
    exact Function.update_of_ne hne ..
  have hy := hmk.made
  cases hres : res with
  | error e =>
    rw [hres] at hread hy
    obtain ⟨rfl, rfl, hbusy⟩ := hread
    have hle : r ≤ 0 := hy
    refine ⟨r, w₁, _, ?_, hb₁, hbusy, hkeep, fun e he => ⟨Except.error.inj he, rfl⟩⟩
    simp only [handOver, e₁, hle, ↓reduceIte, Option.bind_eq_bind, Option.bind_some]
  | ok D =>
    rw [hres] at hread hy
    obtain ⟨rfl, rfl, hbusy, hD⟩ := hread
    obtain ⟨w₂, e₂, hb₂, hbusy₂⟩ := hb₁.runUser hu hD f found_calls
    have hmem : w.devs.brk ∈ w₂.busy := by
      rw [hbusy₂, hbusy]
      exact List.mem_cons_self
    obtain ⟨w₃, e₃, hb₃, hbusy₃⟩ := hb₂.unrefBusy hmem
    refine ⟨(u.react (R.setStatus w.devs.brk .disconnected).log f (D.notice w.devs.brk)).ret, w₃, _,
      ?_, hb₃, ?_, ?_, nofun⟩
    · have hpos : ¬ (1 : Int) ≤ 0 := by decide
      simp only [handOver, userEnumerate, e₁, e₂, e₃, hpos, ↓reduceIte, Option.bind_eq_bind,
        Option.bind_some]
    · rw [hbusy₃, hbusy₂, hbusy]
      exact List.erase_cons_head ..
    · exact hkeep.trans ⟨rfl, rfl, rfl, fun _ _ => rfl, List.prefix_append .., Life.found _ _⟩

/-- Devices handed on one after the other, until one is not made or its callback returns non-zero. -/
def handEach (f : EnumCallback) : List (World → Option ((Int × Option Nat) × World)) → World →
    Option (Int × World)
  | [], w => some (0, w)
  | mk :: mks, w => do
    let (r, w) ← handOver mk f w
    if r ≠ 0 then some (r, w) else handEach f mks w

open Keyed in
/-- The enumeration at the start of a monitor, with the outcome of each device. -/
theorem handEach_add_spec {zs : List ((World → Option ((Int × Option Nat) × World)) ×
    Except Int HsDevice)} (hu : u.limit ≤ uintMod) (hs : Settled w (some m) R)
    (hl : R.listeners = []) (hzs : ∀ z ∈ zs, Makes z.1 z.2) :
    ∃ r w' R', handEach (monitorEnumerateCallback u) (zs.map Prod.fst) w = some (r, w') ∧
      Settled w' (some m) R' ∧ R'.listeners = [] ∧ Routine R.log R'.log ∧ r ≤ 0 ∧
      (r = 0 → R'.pairs = replay R.pairs (zs.filterMap fun z => addChange z.2) ∧
        ∀ z ∈ zs, ∀ e < 0, z.2 ≠ .error e) := by
  induction zs generalizing w R with
  | nil => exact ⟨0, w, R, rfl, hs, hl, .refl R.log, Int.le_refl 0, fun _ =>
      ⟨rfl, fun _ h => absurd h List.not_mem_nil⟩⟩
  | cons z zs ih =>
    have hmk := hzs z List.mem_cons_self
    obtain ⟨r, w₁, R₁, e, hr₁, hbusy₁, hadds⟩ := handOver_add_spec hu hs.bound hmk
    have e₁ : handOver z.1 (monitorEnumerateCallback u) w = some (r, w₁) := e
    have hs₁ : Settled w₁ (some m) R₁ := ⟨hr₁, hadds.ok hs.ok, hbusy₁.trans hs.busy⟩
    obtain ⟨hl₁, hcase⟩ := hadds.silent hl
    have hle : r ≤ 0 := by
      rcases hcase with ⟨e, hres, rfl⟩ | rfl
      · have hy := hmk.made
        rw [hres] at hy
        exact hy
      · exact Int.le_refl 0
    by_cases hz : r = 0
    · obtain ⟨r', w', R', e, hs', hl', hrout, hle', hp⟩ := ih hs₁ hl₁ fun z hz =>
        hzs z (List.mem_cons_of_mem _ hz)
      refine ⟨r', w', R', ?_, hs', hl', hadds.routine.trans hrout, hle', fun h => ⟨?_, ?_⟩⟩
      · simp only [List.map_cons, handEach, e₁, hz, e, Option.bind_eq_bind, Option.bind_some,
          ne_eq, not_true_eq_false, ↓reduceIte]
      · rw [(hp h).1, hadds.pairs, ← replay_append]
        cases hc : addChange z.2 <;> simp [hc]
      · intro z' hz' e' he' hres
        rcases List.mem_cons.mp hz' with rfl | hz'
        · obtain rfl : r = e' := hadds.failed hres
          exact absurd hz he'.ne
        · exact (hp h).2 z' hz' e' he' hres
    · refine ⟨r, w₁, R₁, ?_, hs₁, hl₁, hadds.routine, hle, fun h => absurd h hz⟩
      simp only [List.map_cons, handEach, e₁, hz, Option.bind_eq_bind, Option.bind_some, ne_eq,
        not_false_eq_true, ↓reduceIte]

/-- An enumeration with these outcomes is over before it gets to a device. -/
def FindsNone : List (Except Int HsDevice) → Prop
  | [] => True
  | .ok _ :: _ => False
  | .error e :: results => e = 0 → FindsNone results

/-- An enumeration leaves the monitor alone. When it gets to no device, nobody is called. -/
theorem handEach_user_spec {zs : List ((World → Option ((Int × Option Nat) × World)) ×
    Except Int HsDevice)} (hu : u.limit ≤ uintMod) (hb : Bound mon w R)
    (hzs : ∀ z ∈ zs, Makes z.1 z.2) (f : Nat) :
    ∃ r w' R', handEach (userEnumerate u f) (zs.map Prod.fst) w = some (r, w') ∧ Bound mon w' R' ∧
      w'.busy = w.busy ∧ R.Keeps R' ∧ (FindsNone (zs.map Prod.snd) → R'.log = R.log) := by
  induction zs generalizing w R with
  | nil => exact ⟨0, w, R, rfl, hb, rfl, .refl R, fun _ => rfl⟩
  | cons z zs ih =>
    obtain ⟨r, w₁, R₁, e₁, hb₁, hbusy₁, hk₁, hfailed⟩ :=
      handOver_user_spec hu hb (hzs z List.mem_cons_self) f
    have hnone : FindsNone ((z :: zs).map Prod.snd) →
        R₁.log = R.log ∧ (r = 0 → FindsNone (zs.map Prod.snd)) := by
      intro hno
      cases hres : z.2 with
      | ok D => simp [FindsNone, hres] at hno
      | error e =>
        obtain ⟨rfl, hlog⟩ := hfailed e hres
        rw [List.map_cons, hres] at hno
        exact ⟨hlog, hno⟩
    by_cases hz : r = 0
    · obtain ⟨r', w', R', e, hb', hbusy, hk, hlog⟩ := ih hb₁ fun x hx =>
        hzs x (List.mem_cons_of_mem z hx)
      refine ⟨r', w', R', ?_, hb', hbusy.trans hbusy₁, hk₁.trans hk, fun hno => ?_⟩
      · simp only [List.map_cons, handEach, e₁, hz, e, Option.bind_eq_bind, Option.bind_some,
          ne_eq, not_true_eq_false, ↓reduceIte]
      · obtain ⟨hlog₁, hrest⟩ := hnone hno
        exact (hlog (hrest hz)).trans hlog₁
    · refine ⟨r, w₁, R₁, ?_, hb₁, hbusy₁, hk₁, fun hno => (hnone hno).1⟩
      simp only [List.map_cons, handEach, e₁, hz, Option.bind_eq_bind, Option.bind_some, ne_eq,
        not_false_eq_true, ↓reduceIte]

/-- So does `enumerate`, which hands on the devices of all classes unless `stop` is an error of the
controllers. -/
theorem classes_user_spec {γ : Type} {made : γ → List ((World → Option ((Int × Option Nat) × World)) ×
    Except Int HsDevice)} {classes : List γ} {enumerate : World → Option (Int × World)}
    {stop : Option HsErrorCode} (hu : u.limit ≤ uintMod) (hb : Bound mon w R)
    (hmade : ∀ c, ∀ z ∈ made c, Makes z.1 z.2)
    (hstop : ∀ err, stop = some err → enumerate w = some (hsError err none, w))
    (hgo : stop = none →
      enumerate w = handEach (userEnumerate u f) ((classes.flatMap made).map Prod.fst) w) :
    ∃ r w' R', enumerate w = some (r, w') ∧ Bound mon w' R' ∧ w'.busy = w.busy ∧ R.Keeps R' ∧
      ((stop = none → FindsNone ((classes.flatMap made).map Prod.snd)) → R'.log = R.log) := by
  cases hc : stop with
  | some err =>
    exact ⟨hsError err none, w, R, hstop err hc, hb, rfl, .refl R, fun _ => rfl⟩
  | none =>
    have hmakes : ∀ z ∈ classes.flatMap made, Makes z.1 z.2 := by
      intro z hz
      obtain ⟨c, -, hz⟩ := List.mem_flatMap.mp hz
      exact hmade c z hz
    obtain ⟨r, w', R', e, hb', hbusy, hk, hlog⟩ := handEach_user_spec hu hb hmakes f
    exact ⟨r, w', R', (hgo hc).trans e, hb', hbusy, hk, fun hno => hlog (hno rfl)⟩

theorem handEach_append (f : EnumCallback) (mks mks' : List (World → Option ((Int × Option Nat) ×
    World))) (w : World) : handEach f (mks ++ mks') w = (handEach f mks w).bind fun x =>
      if x.1 ≠ 0 then some x else handEach f mks' x.2 := by
  induction mks generalizing w with
  | nil => simp [handEach]
  | cons mk mks ih =>
    simp only [List.cons_append, handEach, ih, Option.bind_eq_bind, Option.bind_assoc]
    refine Option.bind_congr fun x _ => ?_
    split
    · next hz => simp [hz]
    · rfl

end Libhs
