import Mathlib.Data.List.Basic

/-! Values that are kept for a time only. A key holds nothing, or an entry that is read until its time has passed. -/
namespace Soter.Expiring

/-- Without a time the entry is kept for good. -/
structure Entry (α : Type) where
  value : α
  expiresAt : Option ℕ

variable {α : Type} {now t expiry : ℕ} {P Q : α → Prop} {slot : Option (Entry α)}

/-- The entry is still there at `t`. -/
def Entry.Lasts (t : ℕ) (entry : Entry α) : Prop := ∀ x ∈ entry.expiresAt, t ≤ x

instance (t : ℕ) (entry : Entry α) : Decidable (entry.Lasts t) :=
  inferInstanceAs (Decidable (∀ x ∈ entry.expiresAt, t ≤ x))

def live (now : ℕ) (slot : Option (Entry α)) : Option (Entry α) := slot.filter fun entry => entry.Lasts now

def get (now : ℕ) (slot : Option (Entry α)) : Option α := (live now slot).map (·.value)

/-- `SET` with a time. -/
def set (value : α) (expiry : ℕ) : Option (Entry α) := some ⟨value, some expiry⟩

/-- `SADD`: a set that is not there is made, and is kept for good. -/
def sadd [DecidableEq α] (now : ℕ) (member : α) (slot : Option (Entry (List α))) : Option (Entry (List α)) :=
  match live now slot with
  | none => some ⟨[member], none⟩
  | some entry => some { entry with value := entry.value.insert member }

/-- `EXPIRE`: a key that is not there stays so. -/
def expire (now expiry : ℕ) (slot : Option (Entry α)) : Option (Entry α) :=
  (live now slot).map fun entry => { entry with expiresAt := some expiry }

/-- There is an entry that is kept until `t` at least, and its value is as wanted. -/
def Holds (t : ℕ) (P : α → Prop) (slot : Option (Entry α)) : Prop := ∃ entry ∈ slot, entry.Lasts t ∧ P entry.value

variable {entry : Entry α} {value : α}

theorem Entry.Lasts.mono (h : entry.Lasts t) (hnow : now ≤ t) : entry.Lasts now :=
  fun x hx => Nat.le_trans hnow (h x hx)

theorem lasts_some (h : t ≤ expiry) : Entry.Lasts t ⟨value, some expiry⟩ := by
  intro x hx
  have hsame : expiry = x := Option.some.inj hx
  rw [← hsame]
  exact h

theorem lasts_none : Entry.Lasts t ⟨value, none⟩ := fun _ hx => by cases hx

theorem live_of_lasts (h : entry.Lasts now) : live now (some entry) = some entry :=
  Option.filter_some_pos (decide_eq_true h)

theorem mem_of_live (h : live now slot = some entry) : entry ∈ slot ∧ entry.Lasts now := by
  obtain ⟨hmem, hlasts⟩ := Option.filter_eq_some_iff.mp h
  exact ⟨hmem, of_decide_eq_true hlasts⟩

theorem mem_of_get (h : get now slot = some value) : ∃ entry ∈ slot, entry.value = value := by
  obtain ⟨entry, hentry, hvalue⟩ := Option.map_eq_some_iff.mp h
  exact ⟨entry, (mem_of_live hentry).1, hvalue⟩

/-- What is kept until `t` is read until then. -/
theorem Holds.get (h : Holds t P slot) (hnow : now ≤ t) : ∃ value, get now slot = some value ∧ P value := by
  obtain ⟨entry, hentry, hlasts, hvalue⟩ := h
  have hlive : live now slot = some entry := by
    rw [Option.mem_def.mp hentry]
    exact live_of_lasts (hlasts.mono hnow)
  exact ⟨entry.value, congrArg (Option.map Entry.value) hlive, hvalue⟩

theorem holds_set (hvalue : P value) (hexpiry : t ≤ expiry) : Holds t P (set value expiry) :=
  ⟨_, rfl, lasts_some hexpiry, hvalue⟩

theorem Holds.expire (h : Holds t P slot) (hnow : now ≤ t) (hexpiry : t ≤ expiry) : Holds t P (expire now expiry slot) := by
  obtain ⟨entry, hentry, hlasts, hvalue⟩ := h
  refine ⟨{ entry with expiresAt := some expiry }, ?_, lasts_some hexpiry, hvalue⟩
  rw [Expiring.expire, Option.mem_def.mp hentry, live_of_lasts (hlasts.mono hnow)]
  rfl

theorem lasts_expire (hexpiry : t ≤ expiry) : ∀ entry ∈ Expiring.expire now expiry slot, entry.Lasts t := by
  intro entry hentry
  obtain ⟨old, -, rfl⟩ := Option.map_eq_some_iff.mp hentry
  exact lasts_some hexpiry

section Sets
variable [DecidableEq α] {slot : Option (Entry (List α))} {member x : α}

theorem holds_sadd (hslot : ∀ entry ∈ slot, entry.Lasts t) : Holds t (member ∈ ·) (sadd now member slot) := by
  rw [sadd]
  split
  · exact ⟨_, rfl, lasts_none, List.mem_singleton.mpr rfl⟩
  · rename_i entry hentry
    exact ⟨_, rfl, hslot entry (mem_of_live hentry).1, List.mem_insert_self⟩

theorem Holds.sadd (h : Holds t (x ∈ ·) slot) (hnow : now ≤ t) : Holds t (x ∈ ·) (sadd now member slot) := by
  obtain ⟨entry, hentry, hlasts, hvalue⟩ := h
  rw [Expiring.sadd, Option.mem_def.mp hentry, live_of_lasts (hlasts.mono hnow)]
  exact ⟨_, rfl, hlasts, List.mem_insert_of_mem hvalue⟩

/-- Nothing that is there goes before `t`, before and after. -/
theorem lasts_sadd (h : ∀ entry ∈ slot, entry.Lasts t) : ∀ entry ∈ sadd now member slot, entry.Lasts t := by
  intro entry hentry
  rw [sadd] at hentry
  split at hentry
  · cases hentry
    exact lasts_none
  · rename_i old hold
    cases hentry
    exact h old (mem_of_live hold).1

end Sets
end Soter.Expiring
