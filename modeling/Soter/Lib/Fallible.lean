import Mathlib.Data.List.Basic

/-! Computations that may be refused, as `Except`, and how a successful one is taken apart. -/
namespace Soter.Fallible

variable {ε α β σ ι : Type}

/-- Refuse with `e` unless `c` holds. -/
def require (c : Prop) [Decidable c] (e : ε) : Except ε Unit :=
  if c then .ok () else .error e

/-- The value of an option, or refuse with `e`. -/
def orFail (o : Option α) (e : ε) : Except ε α :=
  match o with
  | some a => .ok a
  | none => .error e

variable {x : Except ε α} {f : α → Except ε β} {e : ε} {c : Prop} {a : α}

theorem bind_eq_ok {b : β} : (x >>= f) = .ok b ↔ ∃ a, x = .ok a ∧ f a = .ok b := by
  cases x with
  | error e => exact ⟨nofun, nofun⟩
  | ok a =>
    constructor
    · exact fun h => ⟨a, rfl, h⟩
    · rintro ⟨a', h, h'⟩
      cases h
      exact h'

theorem bind_eq_error : (x >>= f) = .error e ↔ x = .error e ∨ ∃ a, x = .ok a ∧ f a = .error e := by
  cases x with
  | error e' =>
    constructor
    · intro h
      cases h
      exact .inl rfl
    · rintro (h | ⟨a, h, -⟩) <;> cases h
      rfl
  | ok a =>
    constructor
    · exact fun h => .inr ⟨a, rfl, h⟩
    · rintro (h | ⟨a', h, h'⟩) <;> cases h
      exact h'

theorem exists_unit {P : Unit → Prop} : (∃ u, P u) ↔ P () :=
  ⟨fun ⟨(), h⟩ => h, fun h => ⟨(), h⟩⟩

@[simp] theorem ok_bind (a : α) (f : α → Except ε β) : (Except.ok a >>= f) = f a := rfl

@[simp] theorem pure_eq_ok (a b : α) : (pure a : Except ε α) = .ok b ↔ a = b :=
  ⟨fun h => Except.ok.inj h, fun h => congrArg Except.ok h⟩

@[simp] theorem require_eq_ok [Decidable c] {u : Unit} : require c e = .ok u ↔ c := by
  by_cases h : c <;> simp [require, h]

theorem require_of [Decidable c] (h : c) : require c e = .ok () := by
  simp [require, h]

@[simp] theorem orFail_eq_ok {o : Option α} : orFail o e = .ok a ↔ o = some a := by
  cases o <;> simp [orFail]

theorem exists_ok_iff : (∃ a, x = .ok a) ↔ x.toOption.isSome = true := by
  cases x <;> simp [Except.toOption]

theorem toOption_eq_some : x.toOption = some a ↔ x = .ok a := by
  cases x <;> simp [Except.toOption]

theorem foldlM_preserves {f : σ → ι → Except ε σ} {P : σ → Prop} (hf : ∀ s i s', P s → f s i = .ok s' → P s') :
    ∀ (is : List ι) (s s' : σ), P s → is.foldlM f s = .ok s' → P s'
  | [], s, s', hs, h => by
    rw [List.foldlM_nil, pure_eq_ok] at h
    exact h ▸ hs
  | i :: is, s, s', hs, h => by
    rw [List.foldlM_cons, bind_eq_ok] at h
    obtain ⟨s1, h1, h2⟩ := h
    exact foldlM_preserves hf is s1 s' (hf s i s1 hs h1) h2

section Ensures
variable {P : β → Prop} {Q : α → Prop}

/-- Every answer of the computation meets the condition; a refusal meets any. -/
def Ensures (Q : α → Prop) (x : Except ε α) : Prop := ∀ a, x = .ok a → Q a

theorem Ensures.bind (hx : Ensures Q x) (hf : ∀ a, Q a → Ensures P (f a)) : Ensures P (x >>= f) := by
  intro b hb
  obtain ⟨a, ha, hfa⟩ := bind_eq_ok.mp hb
  exact hf a (hx a ha) b hfa

theorem Ensures.after (hf : ∀ a, Ensures P (f a)) : Ensures P (x >>= f) :=
  Ensures.bind (Q := fun _ => True) (fun _ _ => trivial) fun a _ => hf a

theorem Ensures.ok {a : α} (h : Q a) : Ensures Q (Except.ok a : Except ε α) := by
  intro a' ha
  cases ha
  exact h

theorem Ensures.pure {a : α} (h : Q a) : Ensures Q (pure a : Except ε α) := Ensures.ok h

theorem Ensures.error {e : ε} : Ensures Q (Except.error e : Except ε α) := by
  intro a ha
  cases ha

theorem Ensures.map {g : α → β} (h : Ensures (fun a => P (g a)) x) : Ensures P (g <$> x) := by
  cases x with
  | error e => exact Ensures.error
  | ok a => exact Ensures.ok (h a rfl)

end Ensures

end Soter.Fallible
