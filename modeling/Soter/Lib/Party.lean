import Soter.Lib.Run

/-! Parties that share a store. Each of them is at some place of what it does; one after the other they have a turn, which
may change the store and takes them further. -/
namespace Soter.Parties
open Soter.Runs

structure Party (S C : Type*) where
  store : S
  calls : List C

variable {S C : Type*} {w : Party S C} {i k : ℕ} {c c' d : C} {s' : S}

/-- The party at place `i` has had its turn. -/
def Party.put (w : Party S C) (i : ℕ) (result : C × S) : Party S C where
  store := result.2
  calls := w.calls.set i result.1

def Party.join (w : Party S C) (c : C) : Party S C := { w with calls := w.calls ++ [c] }

def Party.setStore (w : Party S C) (s' : S) : Party S C := { w with store := s' }

variable {P : S → ℕ → C → Prop}

@[simp] theorem Party.put_store (w : Party S C) (i : ℕ) (result : C × S) : (w.put i result).store = result.2 := rfl

theorem Party.get_put (hi : w.calls[i]? = some c) : (w.put i (c', s')).calls[i]? = some c' :=
  List.getElem?_set_self (List.getElem?_eq_some_iff.mp hi).1

theorem Party.get_put_ne (hki : k ≠ i) : (w.put i (c', s')).calls[k]? = w.calls[k]? :=
  List.getElem?_set_ne (Ne.symm hki)

theorem Party.put_cases (hi : w.calls[i]? = some c) (h : (w.put i (c', s')).calls[k]? = some d) :
    k = i ∧ d = c' ∨ k ≠ i ∧ w.calls[k]? = some d := by
  by_cases hki : k = i
  · rw [hki, Party.get_put hi, Option.some.injEq] at h
    exact .inl ⟨hki, h.symm⟩
  · rw [Party.get_put_ne hki] at h
    exact .inr ⟨hki, h⟩

theorem Party.put_length (w : Party S C) (i : ℕ) (result : C × S) : (w.put i result).calls.length = w.calls.length :=
  List.length_set

theorem Party.join_cases (h : (w.join c).calls[k]? = some d) : w.calls[k]? = some d ∨ k = w.calls.length ∧ d = c :=
  getElem?_snoc h

theorem Party.get_join (h : w.calls[k]? = some d) : (w.join c).calls[k]? = some d :=
  (List.getElem?_append_left (List.getElem?_eq_some_iff.mp h).1).trans h

theorem Party.forall_put (hi : w.calls[i]? = some c)
    (h : ∀ (k : ℕ) (d : C), w.calls[k]? = some d → P w.store k d) (hnew : P s' i c')
    (hothers : ∀ k d, k ≠ i → P w.store k d → P s' k d) :
    ∀ (k : ℕ) (d : C), (w.put i (c', s')).calls[k]? = some d → P s' k d := by
  intro k d hd
  rcases Party.put_cases hi hd with ⟨rfl, rfl⟩ | ⟨hki, hd⟩
  · exact hnew
  · exact hothers k d hki (h k d hd)

theorem Party.forall_join (h : ∀ (k : ℕ) (d : C), w.calls[k]? = some d → P w.store k d)
    (hnew : P w.store w.calls.length c) : ∀ (k : ℕ) (d : C), (w.join c).calls[k]? = some d → P w.store k d := by
  intro k d hd
  rcases Party.join_cases hd with hd | ⟨rfl, rfl⟩
  · exact h k d hd
  · exact hnew

end Soter.Parties
