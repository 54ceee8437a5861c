import Libhs.MakeMonitor

/-!
# The device table is a set of (key, interface) pairs

A monitor is driven by any sequence of `MonitorOp`s. Each of them refines its
list version (`exec_spec`), and the list versions refine the set operations of
`Keyed`, so after every sequence `hs_monitor_list` enumerates the abstract set
(`deviceTable_refinement`).
-/

namespace Libhs
open Pointer Keyed

/-! ## Operations on a monitor -/

/-- One call on a monitor. `add` is given what a back-end fills in beside key and interface: the
driver, and the other fields. `user` is something the user does with devices in between. -/
inductive MonitorOp
  | register (f : Nat) (callocOk : Bool)
  | deregister (id : Nat)
  | add (key : CStr) (iface : UInt8) (driver : Vtable) (rest : HsDevice)
  | remove (key : CStr)
  | user (a : UserAct)

/-- A device as the back-ends hand it to `_hs_monitor_add`. -/
def HsDevice.made (rest : HsDevice) (key : CStr) (iface : UInt8) (driver : Vtable) : HsDevice :=
  { rest with
    monitor := none
    refcount := 1
    key := some key
    vtable := some driver
    state := .disconnected
    iface := iface }

/-- Make a device object; the caller holds its reference. -/
def World.newDevice (w : World) (D : HsDevice) : Nat × World :=
  ((w.allocDev D).1, { (w.allocDev D).2 with
    userRefs := Function.update w.userRefs w.devs.brk (w.userRefs w.devs.brk + 1) })

def MonitorOp.exec (u : User) (w : World) : MonitorOp → Option World
  | .register f callocOk => do
    let (_, w) ← hsMonitorRegisterCallback w f callocOk
    some w
  | .deregister id => hsMonitorDeregisterCallback w id
  | .add key iface driver rest => do
    let (d, w) := w.newDevice (rest.made key iface driver)
    let (_, w) ← hsMonitorAdd u w d
    some w
  | .remove key => hsMonitorRemove u w key
  | .user a => userAct u.limit w a

def execAll (u : User) : World → List MonitorOp → Option World
  | w, [] => some w
  | w, op :: ops => do
    let w ← op.exec u w
    execAll u w ops

/-- A monitor from `_hs_monitor_init`, after the operations. -/
def monitorAfter (u : User) (ops : List MonitorOp) : Option World := do
  let (_, w) ← hsMonitorInit World.start.allocMonitor true
  execAll u w ops

/-- The change of the abstract set that an operation asks for. -/
def MonitorOp.change : MonitorOp → Option (Change CStr UInt8)
  | .add key iface _ _ => some (.add key iface)
  | .remove key => some (.remove key)
  | _ => none

/-- The abstract state: the set of present devices. -/
def present (ops : List MonitorOp) : Set (CStr × UInt8) := replay ∅ (ops.filterMap MonitorOp.change)

/-! ## Every operation refines its list version -/

variable {u : User} {w : World} {R R' : Roster} {m : Nat} {op : MonitorOp}

/-- The list version of an operation. -/
def MonitorOp.Steps (u : User) (m : Nat) (R R' : Roster) : MonitorOp → Prop
  | .register f callocOk => if callocOk then ∃ a, R' = R.register a f else R' = R
  | .deregister id => R' = R.deregister id
  | .add key iface _ _ =>
    ∃ d, R.Unused d ∧ R' = ((R.setStatus d .disconnected).add u m ⟨d, key, iface⟩).2
  | .remove key => R' = R.remove u m key
  | .user _ => R' = R

theorem newDevice_rep (hr : Rep w m R) (key : CStr) (iface : UInt8) (driver : Vtable)
    (rest : HsDevice) : Rep (w.newDevice (rest.made key iface driver)).2 m
      (R.setStatus w.devs.brk .disconnected) := by
  have hown : ∀ x, Function.update w.userRefs w.devs.brk (w.userRefs w.devs.brk + 1) x +
      w.busy.count x = w.userRefs x + w.busy.count x + if x = w.devs.brk then 1 else 0 := by
    intro x
    by_cases hx : x = w.devs.brk
    · subst hx
      simp only [Function.update_self, ↓reduceIte]
      omega
    · simp only [Function.update_of_ne hx, hx, ↓reduceIte, Nat.add_zero]
  exact allocDev_rep (D := rest.made key iface driver) hr rfl rfl hown

theorem exec_spec (hu : u.limit ≤ uintMod) (hr : Rep w m R) (op : MonitorOp) :
    ∃ w' R', op.exec u w = some w' ∧ Rep w' m R' ∧ op.Steps u m R R' := by
  cases op with
  | register f callocOk =>
    obtain ⟨r, w', e, -, h⟩ := registerCallback_spec hr f callocOk
    cases callocOk with
    | false =>
      obtain ⟨-, rfl⟩ := h
      exact ⟨w', R, by simp [MonitorOp.exec, e], hr, rfl⟩
    | true =>
      obtain ⟨-, a, hr'⟩ := h
      exact ⟨w', R.register a f, by simp [MonitorOp.exec, e], hr', a, rfl⟩
  | deregister id =>
    obtain ⟨w', e, hr', -⟩ := deregisterCallback_spec hr id
    exact ⟨w', _, e, hr', rfl⟩
  | add key iface driver rest =>
    have hr₁ := newDevice_rep hr key iface driver rest
    obtain ⟨w', e, hr', -⟩ := monitorAdd_spec hu hr₁ (d := w.devs.brk)
      (D := rest.made key iface driver)
      (by simp [World.newDevice, World.allocDev, Heap.get_alloc]) rfl
      (Option.some_ne_none driver) hr.unused_brk.1 (show 1 + 1 < uintMod by decide)
    refine ⟨w', _, ?_, hr', w.devs.brk, hr.unused_brk, rfl⟩
    exact (congrArg (Option.bind · _) e).trans rfl
  | remove key =>
    obtain ⟨w', e, hr', -⟩ := monitorRemove_spec hu hr key
    exact ⟨w', _, e, hr', rfl⟩
  | user a =>
    obtain ⟨w', e, hq, -, hh⟩ := userAct_held hu hr.toHeld a
    exact ⟨w', R, e, hr.quiet hq hh rfl rfl rfl, rfl⟩

/-- The list versions keep the invariant and refine the changes of the set. -/
theorem steps_spec (hok : R.Ok) (h : op.Steps u m R R') :
    R'.Ok ∧ R'.pairs = replay R.pairs op.change.toList := by
  cases op with
  | register f callocOk =>
    cases callocOk with
    | false => cases h; exact ⟨hok, rfl⟩
    | true => obtain ⟨a, rfl⟩ := h; exact ⟨hok.register a f, rfl⟩
  | deregister id => cases h; exact ⟨hok.deregister id, rfl⟩
  | add key iface driver rest =>
    obtain ⟨d, hd, rfl⟩ := h
    exact ⟨(hok.setStatus hd.1 .disconnected).add hd, pairs_add⟩
  | remove key => cases h; exact ⟨hok.remove, pairs_remove hok⟩
  | user a => cases h; exact ⟨hok, rfl⟩

theorem execAll_spec (hu : u.limit ≤ uintMod) (hr : Rep w m R) (hok : R.Ok) (ops : List MonitorOp) :
    ∃ w' R', execAll u w ops = some w' ∧ Rep w' m R' ∧ R'.Ok ∧
      R'.pairs = replay R.pairs (ops.filterMap MonitorOp.change) := by
  induction ops generalizing w R with
  | nil => exact ⟨w, R, rfl, hr, hok, rfl⟩
  | cons op ops ih =>
    obtain ⟨w₁, R₁, e₁, hr₁, hs⟩ := exec_spec hu hr op
    obtain ⟨hok₁, hp₁⟩ := steps_spec hok hs
    obtain ⟨w', R', e, hr', hok', hp⟩ := ih hr₁ hok₁
    refine ⟨w', R', by simp [execAll, e₁, e], hr', hok', ?_⟩
    rw [hp, hp₁, ← replay_append]
    cases h : op.change <;> simp [h]

theorem monitorAfter_spec (hu : u.limit ≤ uintMod) (ops : List MonitorOp) :
    ∃ w R, monitorAfter u ops = some w ∧ Rep w 0 R ∧ R.Ok ∧ R.pairs = present ops := by
  obtain ⟨w₀, e₀, hr₀, -⟩ := monitorInit_spec idle_start
  obtain ⟨w, R, e, hr, hok, hp⟩ := execAll_spec hu hr₀ ok_empty ops
  refine ⟨w, R, by simp [monitorAfter, e₀, e], hr, hok, ?_⟩
  rw [hp, present]
  congr 1
  ext p
  simp [Roster.pairs, Roster.fresh, Roster.empty]

/-! ## Enumeration -/

/-- The results of a callback that is called on up to `n` devices and stopped by its first
non-zero result, and the value `hs_monitor_list` returns for them. -/
def Stops (n : Nat) (rets : List Int) (r : Int) : Prop :=
  (rets = List.replicate n 0 ∧ r = 0) ∨
    ∃ k, k < n ∧ rets = List.replicate k 0 ++ [r] ∧ r ≠ 0

theorem visitAll_stops (u : User) (f : Nat) (ns : List Notice) (log : List Event) :
    ∃ rets r, visitAll u f ns log = (r, log ++ List.zipWith Event.visit ns rets) ∧
      Stops ns.length rets r ∧ ∀ x ∈ rets, ∃ log n, (u.react log f n).ret = x := by
  induction ns generalizing log with
  | nil => exact ⟨[], 0, by simp [visitAll], Or.inl ⟨rfl, rfl⟩, by simp⟩
  | cons n ns ih =>
    by_cases hz : (u.react log f n).ret = 0
    · obtain ⟨rets, r, hv, hs, hret⟩ := ih (log ++ [.visit n (u.react log f n).ret])
      refine ⟨0 :: rets, r, ?_, ?_, List.forall_mem_cons.mpr ⟨⟨log, n, hz⟩, hret⟩⟩
      · rw [visitAll, if_neg (by simpa using hz), hv, hz]
        simp
      · rcases hs with ⟨rfl, rfl⟩ | ⟨k, hk, rfl, hr⟩
        · exact Or.inl ⟨rfl, rfl⟩
        · exact Or.inr ⟨k + 1, Nat.succ_lt_succ hk, rfl, hr⟩
    · refine ⟨[(u.react log f n).ret], (u.react log f n).ret, ?_,
        Or.inr ⟨0, Nat.succ_pos _, rfl, hz⟩, by simp⟩
      rw [visitAll, if_pos hz]
      simp

theorem visitAll_zero (f : Nat) (ns : List Notice) (log : List Event) :
    visitAll (.returning fun _ _ _ => 0) f ns log = (0, log ++ ns.map (.visit · 0)) := by
  induction ns generalizing log with
  | nil => simp [visitAll]
  | cons n ns ih =>
    rw [visitAll]
    simp only [User.returning, User.careful, ne_eq, not_true_eq_false, ↓reduceIte] at ih ⊢
    rw [ih]
    simp

/-- The notices of the table of `R`, in the order of enumeration. -/
def Roster.notices (R : Roster) (m : Nat) : List Notice :=
  R.order.map fun e => e.notice m (R.status e.dev)

/-- `hs_monitor_list` enumerates the roster: all of it for a callback that returns 0, and a part of
it up to the first non-zero result for any other. -/
theorem list_enumerates (hr : Rep w m R) :
    (∀ f, ∃ w', hsMonitorList (.returning fun _ _ _ => 0) w f = some (0, w') ∧
      w'.log = w.log ++ (R.notices m).map (.visit · 0)) ∧
    ∀ react f, ∃ rets r w', hsMonitorList (.careful react) w f = some (r, w') ∧
      w'.log = w.log ++ List.zipWith Event.visit (R.notices m) rets ∧
      Stops (R.notices m).length rets r ∧ ∀ x ∈ rets, ∃ log n, (react log f n).ret = x := by
  refine ⟨fun f => ?_, fun react f => ?_⟩
  · obtain ⟨w', e, hr', -⟩ := monitorList_spec (u := .returning fun _ _ _ => 0)
      (Nat.le_refl uintMod) hr f
    have hv := visitAll_zero f (R.notices m) R.log
    simp only [Roster.list] at e hr'
    rw [Roster.notices] at hv
    rw [hv] at e hr'
    exact ⟨w', e, by rw [hr'.log, hr.log]; rfl⟩
  · obtain ⟨w', e, hr', -⟩ := monitorList_spec (u := .careful react) (Nat.le_refl uintMod) hr f
    obtain ⟨rets, r, hv, hs⟩ := visitAll_stops (.careful react) f (R.notices m) R.log
    simp only [Roster.list] at e hr'
    rw [Roster.notices] at hv
    rw [hv] at e hr'
    exact ⟨rets, r, w', e, by rw [hr'.log, hr.log]; rfl, hs⟩

/-- The key and interface a callback sees. -/
def Notice.pair (n : Notice) : Option CStr × UInt8 := (n.key, n.iface)

theorem notices_spec (hok : R.Ok) (m : Nat) :
    ((R.notices m).map Notice.pair).Nodup ∧
      (∀ key iface, (some key, iface) ∈ (R.notices m).map Notice.pair ↔ (key, iface) ∈ R.pairs) ∧
      ∀ n ∈ R.notices m, n.status = .online ∧ n.monitor = some m := by
  have hmap : (R.notices m).map Notice.pair = R.order.map fun e => (some e.key, e.iface) := by
    rw [Roster.notices, List.map_map]
    rfl
  have hpair : (R.order.map fun e => ((some e.key, e.iface) : Option CStr × UInt8)) =
      (R.order.map Entry.pair).map fun p => (some p.1, p.2) := by
    rw [List.map_map]
    rfl
  have hinj : Function.Injective fun p : CStr × UInt8 => ((some p.1, p.2) : Option CStr × UInt8) := by
    rintro ⟨a, b⟩ ⟨c, d⟩ h
    simpa using h
  refine ⟨?_, fun key iface => ?_, fun n hn => ?_⟩
  · rw [hmap, hpair]
    exact (((order_perm R).map Entry.pair).nodup_iff.mpr hok.pairs).map hinj
  · rw [hmap, hpair, List.mem_map_of_injective (a := (key, iface)) hinj]
    exact ((order_perm R).map Entry.pair).mem_iff
  · obtain ⟨e, he, rfl⟩ := List.mem_map.mp hn
    exact ⟨hok.online e ((order_perm R).mem_iff.mp he), rfl⟩

/-- After any operations on a monitor, whatever its callbacks return, `hs_monitor_list` visits
exactly the devices of the abstract set, each once, online and with their monitor; a callback that
returns non-zero cuts the enumeration short and its result is returned. -/
theorem deviceTable_refinement (react : List Event → Nat → Notice → Reaction)
    (ops : List MonitorOp) :
    ∃ w m ns, monitorAfter (.careful react) ops = some w ∧ w.monitor = some m ∧
      (ns.map Notice.pair).Nodup ∧
      (∀ key iface, (some key, iface) ∈ ns.map Notice.pair ↔ (key, iface) ∈ present ops) ∧
      (∀ n ∈ ns, n.status = .online ∧ n.monitor = some m) ∧
      (∀ f, ∃ w', hsMonitorList (.returning fun _ _ _ => 0) w f = some (0, w') ∧
        w'.log = w.log ++ ns.map (.visit · 0)) ∧
      ∀ react' f, ∃ rets r w', hsMonitorList (.careful react') w f = some (r, w') ∧
        w'.log = w.log ++ List.zipWith Event.visit ns rets ∧ Stops ns.length rets r ∧
        ∀ x ∈ rets, ∃ log n, (react' log f n).ret = x := by
  obtain ⟨w, R, e, hr, hok, hp⟩ := monitorAfter_spec (u := .careful react) (Nat.le_refl uintMod) ops
  obtain ⟨hnd, hmem, hon⟩ := notices_spec hok 0
  obtain ⟨hall, hpre⟩ := list_enumerates hr
  refine ⟨w, 0, R.notices 0, e, hr.monitor, hnd, fun key iface => ?_, hon, hall, hpre⟩
  rw [hmem, hp]

end Libhs
