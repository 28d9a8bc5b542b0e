import Soter.Lib.Run

/-! A slot of the state that holds one thing at a time, and what a run says about its content. -/
namespace Soter.Runs

variable {σ ℓ α : Type*}

/-- What a transition does to a slot. -/
inductive Use (α : Type*)
  | fill (a : α)
  | empty
  | keep

/-- Only an empty slot is filled, only a full one is emptied, and otherwise it stays as it is. -/
def Obeys (slot : σ → Option α) (use : Transition σ ℓ → Use α) (t : Transition σ ℓ) : Prop :=
  match use t with
  | .fill a => slot t.pre = none ∧ slot t.post = some a
  | .empty => slot t.pre ≠ none ∧ slot t.post = none
  | .keep => slot t.post = slot t.pre

variable {step : σ → ℓ → σ → Prop} {s s' : σ} {tr : List (Transition σ ℓ)}
  {slot : σ → Option α} {use : Transition σ ℓ → Use α}

variable {t t' : Transition σ ℓ} {a : α} {before between after : List (Transition σ ℓ)}

theorem Obeys.filled (h : Obeys slot use t) (ht : use t = .fill a) :
    slot t.pre = none ∧ slot t.post = some a := by
  rw [Obeys, ht] at h
  exact h

theorem Obeys.emptied (h : Obeys slot use t) (ht : use t = .empty) :
    slot t.pre ≠ none ∧ slot t.post = none := by
  rw [Obeys, ht] at h
  exact h

theorem Obeys.kept (h : Obeys slot use t) (ht : use t = .keep) : slot t.post = slot t.pre := by
  rw [Obeys, ht] at h
  exact h

/-- What is in the slot was put there by a transition, and nothing has touched it since. -/
theorem Run.filled_by (h : Run step s tr s') (hs : slot s = none)
    (hobey : ∀ t ∈ tr, Obeys slot use t) (ha : slot s' = some a) :
    ∃ before t after, tr = before ++ t :: after ∧ use t = .fill a ∧ ∀ r ∈ after, use r = .keep := by
  induction h with
  | nil =>
    rw [hs] at ha
    cases ha
  | @snoc tr u l v _ _ ih =>
    have hlast : Obeys slot use ⟨u, l, v⟩ := hobey _ (by simp)
    cases huse : use ⟨u, l, v⟩ with
    | fill b =>
      have hb : slot v = some b := (hlast.filled huse).2
      rw [hb] at ha
      cases ha
      exact ⟨tr, ⟨u, l, v⟩, [], rfl, huse, by simp⟩
    | empty =>
      have hb : slot v = none := (hlast.emptied huse).2
      rw [hb] at ha
      cases ha
    | keep =>
      have hsame : slot v = slot u := hlast.kept huse
      rw [hsame] at ha
      obtain ⟨before, t, after, rfl, ht, hafter⟩ := ih (fun t ht => hobey t (by simp [ht])) ha
      refine ⟨before, t, after ++ [⟨u, l, v⟩], by simp, ht, ?_⟩
      intro r hr
      rcases List.mem_append.mp hr with hr | hr
      · exact hafter r hr
      · rw [List.mem_singleton.mp hr]
        exact huse

theorem Run.emptied_between (h : Run step s (before ++ t :: (between ++ t' :: after)) s')
    (hobey : ∀ r ∈ before ++ t :: (between ++ t' :: after), Obeys slot use r) {b : α}
    (ht : use t = .fill a) (ht' : use t' = .fill b) : ∃ r ∈ between, use r = .empty := by
  have hfull : slot t.post = some a := ((hobey t (by simp)).filled ht).2
  have hnone : slot t'.pre = none := ((hobey t' (by simp)).filled ht').1
  have hbetween : Run step t.post between t'.pre := h.split.2.2.split.1
  by_contra hkeep
  -- Without one, the slot stays full: no transition in between could fill it.
  have hstill : ∃ c, slot t'.pre = some c := by
    refine hbetween.invariant (I := fun u => ∃ c, slot u = some c) (C := fun r => r ∈ between) ⟨a, hfull⟩ (fun r hr => hr) ?_
    rintro r - hr ⟨c, hc⟩
    have hobeys : Obeys slot use r := hobey r (by simp [hr])
    cases huse : use r with
    | fill d => exact ⟨d, (hobeys.filled huse).2⟩
    | empty => exact absurd ⟨r, hr, huse⟩ hkeep
    | keep => exact ⟨c, (hobeys.kept huse).trans hc⟩
  obtain ⟨c, hc⟩ := hstill
  rw [hnone] at hc
  cases hc

theorem Run.filled_between (h : Run step s (before ++ t :: (between ++ t' :: after)) s')
    (hobey : ∀ r ∈ before ++ t :: (between ++ t' :: after), Obeys slot use r)
    (ht : use t = .empty) (ht' : use t' = .empty) : ∃ r ∈ between, ∃ a, use r = .fill a := by
  have hnone : slot t.post = none := ((hobey t (by simp)).emptied ht).2
  have hfull : slot t'.pre ≠ none := ((hobey t' (by simp)).emptied ht').1
  have hbetween : Run step t.post between t'.pre := h.split.2.2.split.1
  by_contra hkeep
  have hstill : slot t'.pre = none := by
    refine hbetween.invariant (I := fun u => slot u = none) (C := fun r => r ∈ between) hnone (fun r hr => hr) ?_
    intro r _ hr hpre
    have hobeys : Obeys slot use r := hobey r (by simp [hr])
    cases huse : use r with
    | fill a => exact absurd ⟨r, hr, a, huse⟩ hkeep
    | empty => exact (hobeys.emptied huse).2
    | keep => exact (hobeys.kept huse).trans hpre
  exact hfull hstill

end Soter.Runs
