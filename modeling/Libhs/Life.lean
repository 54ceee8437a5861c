import Libhs.World

/-!
# The life of a device

What the log says about a device object. `statusOf` is the status that the logged
writes leave it with. `RemovalBegun` and `Removed` say that the monitor that holds
the device began, or finished, the removal of its key.

`Life` is the protocol a log follows. A device enters the table of a monitor once,
and is online then. It is marked as disconnected only while the removal of its key
is in progress, and the removal does not end before every device with the key is
marked. What a monitor hands to user code was in its table. `Life.online` and
`Life.disconnected` are what follows for each device.
-/

namespace Libhs

/-! ## Reading the log -/

/-- The status writes of the library are logged by `inserted` and `gone`. -/
def Event.mark (st : Nat → HsDeviceStatus) : Event → Nat → HsDeviceStatus
  | .inserted d _ => Function.update st d .online
  | .gone d => Function.update st d .disconnected
  | _ => st

/-- The status the log leaves a device with. -/
def statusOf (log : List Event) : Nat → HsDeviceStatus :=
  log.foldl Event.mark fun _ => .disconnected

/-- The device `d` went into a table under the key `k`, and that monitor still lives. -/
def Holds (log : List Event) (d : Nat) (k : CStr) : Prop :=
  ∃ l l', log = l ++ .inserted d k :: l' ∧ .released ∉ l'

/-- The monitor that holds `d` began to remove its key. -/
def RemovalBegun (log : List Event) (d : Nat) : Prop :=
  ∃ k l l', log = l ++ .removal k :: l' ∧ Holds l d k

/-- The monitor that holds `d` has removed its key. -/
def Removed (log : List Event) (d : Nat) : Prop :=
  ∃ k l l', log = l ++ .removed k :: l' ∧ Holds l d k

/-- The device that a monitor hands to user code. -/
def Event.hands : Event → Option Nat
  | .notify _ n _ | .visit n _ => some n.dev
  | _ => none

/-- The device that an event hands to user code. -/
def Event.shown : Event → Option Nat
  | .notify _ n _ | .visit n _ | .found n _ => some n.dev
  | _ => none

/-- The log went on, with no status written and no device put into a table. -/
structure Continues (log log' : List Event) : Prop where
  grows : log <+: log'
  status : statusOf log' = statusOf log
  inserted : ∀ d k, .inserted d k ∈ log' → .inserted d k ∈ log

/-- The protocol of the log, with the devices of the table and the removal in progress. -/
inductive Life : List Event → List (Nat × CStr) → Option CStr → Prop
  | start : Life [] [] none
  | receive {log ms r} (got : Bool) : Life log ms r → Life (log ++ [.receive got]) ms r
  | found {log ms r} (n : Notice) (ret : Int) : Life log ms r → Life (log ++ [.found n ret]) ms r
  | notify {log ms r} (id : Nat) (n : Notice) (ret : Int) :
      Life log ms r → (∃ k, .inserted n.dev k ∈ log) → Life (log ++ [.notify id n ret]) ms r
  | visit {log ms r} (n : Notice) (ret : Int) :
      Life log ms r → (∃ k, .inserted n.dev k ∈ log) → Life (log ++ [.visit n ret]) ms r
  | inserted {log ms} (d : Nat) (k : CStr) :
      Life log ms none → (∀ k', .inserted d k' ∉ log) →
      Life (log ++ [.inserted d k]) ((d, k) :: ms) none
  | removal {log ms} (k : CStr) : Life log ms none → Life (log ++ [.removal k]) ms (some k)
  | gone {log ms k} (d : Nat) : Life log ms (some k) → (d, k) ∈ ms →
      Life (log ++ [.gone d]) (ms.filter fun p => p.1 ≠ d) (some k)
  | removed {log ms k} : Life log ms (some k) → (∀ p ∈ ms, p.2 ≠ k) →
      Life (log ++ [.removed k]) ms none
  | released {log ms} : Life log ms none → Life (log ++ [.released]) [] none

/-! ## One more event -/

variable {log l l' : List Event} {ev : Event} {d : Nat} {k : CStr} {ms : List (Nat × CStr)}
  {r : Option CStr}

theorem statusOf_snoc : statusOf (log ++ [ev]) = ev.mark (statusOf log) := by
  unfold statusOf
  rw [List.foldl_append]
  rfl

theorem snoc_eq_split {x : Event} (h : log ++ [ev] = l ++ x :: l') :
    (l' = [] ∧ ev = x ∧ log = l) ∨ ∃ l₀, l' = l₀ ++ [ev] ∧ log = l ++ x :: l₀ := by
  rcases List.eq_nil_or_concat l' with rfl | ⟨l₀, y, rfl⟩
  · obtain ⟨h₁, h₂⟩ := List.append_inj' h rfl
    cases h₂
    exact Or.inl ⟨rfl, rfl, h₁⟩
  · rw [List.concat_eq_append, ← List.cons_append, ← List.append_assoc] at h
    obtain ⟨h₁, h₂⟩ := List.append_inj' h rfl
    cases h₂
    exact Or.inr ⟨l₀, List.concat_eq_append, h₁⟩

theorem Holds.mem (h : Holds log d k) : .inserted d k ∈ log := by
  obtain ⟨l, l', rfl, -⟩ := h
  simp

theorem holds_snoc_iff : Holds (log ++ [ev]) d k ↔
    ev = .inserted d k ∨ (Holds log d k ∧ ev ≠ .released) := by
  constructor
  · rintro ⟨l, l', h, hr⟩
    rcases snoc_eq_split h with ⟨-, he, -⟩ | ⟨l₀, rfl, hl⟩
    · exact Or.inl he
    · refine Or.inr ⟨⟨l, l₀, hl, fun hm => hr (List.mem_append_left _ hm)⟩, ?_⟩
      rintro rfl
      exact hr (List.mem_append_right _ List.mem_cons_self)
  · rintro (rfl | ⟨⟨l, l', rfl, hr⟩, hne⟩)
    · exact ⟨log, [], rfl, List.not_mem_nil⟩
    · refine ⟨l, l' ++ [ev], by simp, fun hm => ?_⟩
      rcases List.mem_append.mp hm with hm | hm
      · exact hr hm
      · exact hne (List.mem_singleton.mp hm).symm

/-- What happened to the key that a device was held under: at an earlier moment, or just now. -/
theorem befallen_snoc_iff {what : CStr → Event} :
    (∃ k l l', log ++ [ev] = l ++ what k :: l' ∧ Holds l d k) ↔
      (∃ k l l', log = l ++ what k :: l' ∧ Holds l d k) ∨ ∃ k, ev = what k ∧ Holds log d k := by
  constructor
  · rintro ⟨k, l, l', h, hh⟩
    rcases snoc_eq_split h with ⟨-, rfl, rfl⟩ | ⟨l₀, rfl, rfl⟩
    · exact Or.inr ⟨k, rfl, hh⟩
    · exact Or.inl ⟨k, l, l₀, rfl, hh⟩
  · rintro (⟨k, l, l', rfl, hh⟩ | ⟨k, rfl, hh⟩)
    · exact ⟨k, l, l' ++ [ev], by simp, hh⟩
    · exact ⟨k, log, [], rfl, hh⟩

theorem removalBegun_snoc_iff : RemovalBegun (log ++ [ev]) d ↔
    RemovalBegun log d ∨ ∃ k, ev = .removal k ∧ Holds log d k :=
  befallen_snoc_iff

theorem removed_snoc_iff : Removed (log ++ [ev]) d ↔
    Removed log d ∨ ∃ k, ev = .removed k ∧ Holds log d k :=
  befallen_snoc_iff

theorem Removed.mem (h : Removed log d) : ∃ k, .inserted d k ∈ log := by
  obtain ⟨k, l, l', rfl, hh⟩ := h
  exact ⟨k, List.mem_append_left _ hh.mem⟩

theorem Continues.refl (log : List Event) : Continues log log := ⟨List.prefix_refl log, rfl, fun _ _ h => h⟩

theorem Continues.snoc (ev : Event) (hm : ∀ st, ev.mark st = st) (hi : ∀ d k, ev ≠ .inserted d k) :
    Continues log (log ++ [ev]) := by
  refine ⟨List.prefix_append log _, by rw [statusOf_snoc, hm], fun d k h => ?_⟩
  rcases List.mem_append.mp h with h | h
  · exact h
  · exact absurd (List.mem_singleton.mp h).symm (hi d k)

/-! ## The protocol, device by device -/

/-- The table holds what went in, is online, and was not given up. -/
theorem Life.members (h : Life log ms r) (d : Nat) (k : CStr) :
    (d, k) ∈ ms ↔ Holds log d k ∧ statusOf log d = .online := by
  induction h with
  | start =>
    simp only [List.not_mem_nil, false_iff, not_and]
    rintro ⟨l, l', h, -⟩
    simp at h
  | receive got _ ih => simpa [holds_snoc_iff, statusOf_snoc, Event.mark] using ih
  | found n ret _ ih => simpa [holds_snoc_iff, statusOf_snoc, Event.mark] using ih
  | notify id n ret _ _ ih => simpa [holds_snoc_iff, statusOf_snoc, Event.mark] using ih
  | visit n ret _ _ ih => simpa [holds_snoc_iff, statusOf_snoc, Event.mark] using ih
  | removal k' _ ih => simpa [holds_snoc_iff, statusOf_snoc, Event.mark] using ih
  | removed _ _ ih => simpa [holds_snoc_iff, statusOf_snoc, Event.mark] using ih
  | released _ _ => simp [holds_snoc_iff]
  | inserted d' k' _ hnew ih =>
    rw [List.mem_cons, ih, holds_snoc_iff, statusOf_snoc]
    by_cases hd : d = d'
    · subst hd
      have hno : ¬ Holds _ d k := fun hh => hnew k hh.mem
      simp [hno, Event.mark, eq_comm]
    · have hd' : d' ≠ d := fun he => hd he.symm
      simp [hd, hd', Event.mark, Function.update_of_ne]
  | gone d' _ _ ih =>
    rw [List.mem_filter, ih, holds_snoc_iff, statusOf_snoc]
    by_cases hd : d = d'
    · subst hd
      simp [Event.mark]
    · simp [hd, Event.mark, Function.update_of_ne]

theorem Life.key_unique {k' : CStr} (h : Life log ms r) (h₁ : .inserted d k ∈ log)
    (h₂ : .inserted d k' ∈ log) : k = k' := by
  induction h with
  | start => exact absurd h₁ List.not_mem_nil
  | inserted d' k'' _ hnew ih =>
    rcases List.mem_append.mp h₁ with m₁ | m₁
    · rcases List.mem_append.mp h₂ with m₂ | m₂
      · exact ih m₁ m₂
      · cases List.mem_singleton.mp m₂
        exact absurd m₁ (hnew k)
    · cases List.mem_singleton.mp m₁
      rcases List.mem_append.mp h₂ with m₂ | m₂
      · exact absurd m₂ (hnew k')
      · cases List.mem_singleton.mp m₂
        rfl
  | _ => simp_all

/-- While the removal of a key is in progress, it has begun for the devices of the table with the
key. -/
theorem Life.removing (h : Life log ms r) (hr : r = some k) (hm : (d, k) ∈ ms) :
    RemovalBegun log d := by
  induction h with
  | removal k' hl _ =>
    cases hr
    exact removalBegun_snoc_iff.mpr (Or.inr ⟨_, rfl, ((hl.members d _).mp hm).1⟩)
  | receive got _ ih => exact removalBegun_snoc_iff.mpr (Or.inl (ih hr hm))
  | found n ret _ ih => exact removalBegun_snoc_iff.mpr (Or.inl (ih hr hm))
  | notify id n ret _ _ ih => exact removalBegun_snoc_iff.mpr (Or.inl (ih hr hm))
  | visit n ret _ _ ih => exact removalBegun_snoc_iff.mpr (Or.inl (ih hr hm))
  | gone d' _ _ ih =>
    exact removalBegun_snoc_iff.mpr (Or.inl (ih hr (List.mem_of_mem_filter hm)))
  | start | inserted | removed | released => cases hr

/-- Until the removal of its key begins, a device is online. -/
theorem Life.online (h : Life log ms r) (hin : .inserted d k ∈ log) (hb : ¬ RemovalBegun log d) :
    statusOf log d = .online := by
  induction h with
  | start => exact absurd hin List.not_mem_nil
  | inserted d' k' _ _ ih =>
    rw [statusOf_snoc]
    by_cases hd : d = d'
    · subst hd
      exact Function.update_self ..
    · refine (Function.update_of_ne hd ..).trans (ih ?_ fun h => hb (removalBegun_snoc_iff.mpr (.inl h)))
      simpa [hd] using hin
  | gone d' hl hm ih =>
    rw [statusOf_snoc]
    by_cases hd : d = d'
    · subst hd
      exact absurd (removalBegun_snoc_iff.mpr (Or.inl (hl.removing rfl hm))) hb
    · refine (Function.update_of_ne hd ..).trans (ih ?_ fun h => hb (removalBegun_snoc_iff.mpr (.inl h)))
      simpa using hin
  | _ =>
    next ih =>
    rw [statusOf_snoc]
    exact ih (by simpa using hin) fun h => hb (removalBegun_snoc_iff.mpr (.inl h))

/-- Once the key is removed, a device stays disconnected. -/
theorem Life.disconnected (h : Life log ms r) (hd : Removed log d) :
    statusOf log d = .disconnected := by
  induction h with
  | start =>
    obtain ⟨k, l, l', h, -⟩ := hd
    simp at h
  | inserted d' k' _ hnew ih =>
    rcases removed_snoc_iff.mp hd with hrem | ⟨_, h, -⟩
    · obtain ⟨k, hk⟩ := hrem.mem
      rw [statusOf_snoc]
      refine (Function.update_of_ne ?_ ..).trans (ih hrem)
      rintro rfl
      exact hnew k hk
    · cases h
  | removed hl hno ih =>
    rw [statusOf_snoc]
    rcases removed_snoc_iff.mp hd with hd | ⟨_, h, hh⟩
    · exact ih hd
    · cases h
      -- the device left the table in this removal, or before
      by_contra hne
      refine hno _ ((hl.members d _).mpr ⟨hh, ?_⟩) rfl
      cases hs : statusOf _ d with
      | online => rfl
      | disconnected => exact absurd hs hne
  | gone d' _ _ ih =>
    rw [statusOf_snoc]
    rcases removed_snoc_iff.mp hd with hd | ⟨_, h, -⟩
    · by_cases hdd : d = d'
      · subst hdd
        exact Function.update_self ..
      · exact (Function.update_of_ne hdd ..).trans (ih hd)
    · cases h
  | _ =>
    next ih =>
    rw [statusOf_snoc]
    rcases removed_snoc_iff.mp hd with hd | ⟨_, h, -⟩
    · exact ih hd
    · cases h

/-- A device that is handed out by the last event or an earlier one went into the table before. -/
theorem handed_concat {last : Event} (hlog : ev ∈ log → ∃ k, .inserted d k ∈ log)
    (hlast : last.hands = some d → ∃ k, .inserted d k ∈ log) (hev : ev ∈ log ++ [last])
    (hd : ev.hands = some d) : ∃ k, .inserted d k ∈ log ++ [last] := by
  have hin : ∃ k, .inserted d k ∈ log := by
    rcases List.mem_append.mp hev with hev | hev
    · exact hlog hev
    · cases List.mem_singleton.mp hev
      exact hlast hd
  exact hin.imp fun k hk => List.mem_append_left _ hk

/-- What a monitor hands out went into its table before. -/
theorem Life.handed (h : Life log ms r) (hev : ev ∈ log) (hd : ev.hands = some d) :
    ∃ k, .inserted d k ∈ log := by
  induction h with
  | start => exact absurd hev List.not_mem_nil
  | notify id n ret _ hin ih | visit n ret _ hin ih =>
    refine handed_concat ih (fun hn => ?_) hev hd
    cases hn
    exact hin
  | _ =>
    next ih =>
    exact handed_concat ih nofun hev hd

/-- The log followed the protocol at every earlier moment. -/
theorem Life.earlier (h : Life log ms r) (hl : l <+: log) : ∃ ms' r', Life l ms' r' := by
  induction h with
  | start =>
    rw [List.prefix_nil.mp hl]
    exact ⟨[], none, .start⟩
  | _ =>
    next ih =>
    rcases List.prefix_concat_iff.mp hl with rfl | hl
    · exact ⟨_, _, by constructor <;> assumption⟩
    · exact ih hl

end Libhs
