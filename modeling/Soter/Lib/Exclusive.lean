import Mathlib.Algebra.BigOperators.Group.List.Basic
import Soter.Lib.Protocol

/-! Handlers that hold keys: when no two of them hold the same one, and who is about to work on it. -/
namespace Soter.Tasks
open Soter.Runs

variable {R ε α S Op Stage K : Type} {Reply : R → Type}

variable {stages : List Stage} {σ : Stage}
section Lists
variable {i : ℕ} {σ' : Stage}

theorem forall_mem_set {C : Stage → Prop} (hnew : C σ')
    (hothers : ∀ (j : ℕ) τ, j ≠ i → stages[j]? = some τ → C τ) : ∀ τ ∈ stages.set i σ', C τ := by
  intro τ hτ
  obtain ⟨j, hj⟩ := List.mem_iff_getElem?.mp hτ
  by_cases hji : j = i
  · subst hji
    have hlt : j < stages.length := by
      have := (List.getElem?_eq_some_iff.mp hj).1
      rwa [List.length_set] at this
    rw [List.getElem?_set_self hlt, Option.some.injEq] at hj
    rw [← hj]
    exact hnew
  · rw [List.getElem?_set_ne (Ne.symm hji)] at hj
    exact hothers j τ hji hj

theorem sum_map_set {A : Type*} [AddCommGroup A] (f : Stage → A) (hi : stages[i]? = some σ) :
    ((stages.set i σ').map f).sum = (stages.map f).sum - f σ + f σ' := by
  obtain ⟨hlt, hσ⟩ := List.getElem?_eq_some_iff.mp hi
  have hlen : i < (stages.map f).length := by
    rw [List.length_map]
    exact hlt
  rw [List.map_set, List.sum_set', dif_pos hlen, List.getElem_map, hσ, sub_eq_add_neg, add_assoc]

variable (holds : Stage → K → Prop)

/-- No key is held at two places. -/
def Exclusive (stages : List Stage) : Prop :=
  ∀ (i j : ℕ) σ σ' key, stages[i]? = some σ → stages[j]? = some σ' → holds σ key → holds σ' key → i = j

variable {holds}

theorem Exclusive.nil : Exclusive holds [] := fun _ _ _ _ _ h => by cases h

/-- Nobody else holds a key that is held at place `i`. -/
theorem Exclusive.other (h : Exclusive holds stages) (hi : stages[i]? = some σ) {j : ℕ} {τ : Stage} (hji : j ≠ i)
    (hj : stages[j]? = some τ) {key : K} (hσ : holds σ key) : ¬ holds τ key :=
  fun hτ => hji (h j i τ σ key hj hi hτ hσ)

theorem Exclusive.snoc (h : Exclusive holds stages) (hσ : ∀ key, ¬ holds σ key) :
    Exclusive holds (stages ++ [σ]) := by
  intro i j τ τ' key hi hj hτ hτ'
  rcases getElem?_snoc hi with hi | ⟨-, rfl⟩
  · rcases getElem?_snoc hj with hj | ⟨-, rfl⟩
    · exact h i j τ τ' key hi hj hτ hτ'
    · exact absurd hτ' (hσ key)
  · exact absurd hτ (hσ key)

/-- A handler goes on with the keys that it held, and with ones that nobody held. -/
theorem Exclusive.set (h : Exclusive holds stages) (hi : stages[i]? = some σ)
    (hnext : ∀ key, holds σ' key → holds σ key ∨ ∀ τ ∈ stages, ¬ holds τ key) :
    Exclusive holds (stages.set i σ') := by
  have hlt : i < stages.length := (List.getElem?_eq_some_iff.mp hi).1
  -- whoever else holds a key of the new stage held it before
  have hother : ∀ (j : ℕ) τ key, j ≠ i → stages[j]? = some τ → holds σ' key → ¬ holds τ key := by
    intro j τ key hji hj hσ'
    rcases hnext key hσ' with hσ | hfree
    · exact h.other hi hji hj hσ
    · exact hfree τ (List.mem_of_getElem? hj)
  intro a b τ τ' key ha hb hτ hτ'
  by_cases hai : a = i
  · by_cases hbi : b = i
    · rw [hai, hbi]
    · rw [hai, List.getElem?_set_self hlt, Option.some.injEq] at ha
      rw [List.getElem?_set_ne (Ne.symm hbi)] at hb
      rw [← ha] at hτ
      exact absurd hτ' (hother b τ' key hbi hb hτ)
  · rw [List.getElem?_set_ne (Ne.symm hai)] at ha
    by_cases hbi : b = i
    · rw [hbi, List.getElem?_set_self hlt, Option.some.injEq] at hb
      rw [← hb] at hτ'
      exact absurd hτ (hother a τ key hai ha hτ')
    · rw [List.getElem?_set_ne (Ne.symm hbi)] at hb
      exact h a b τ τ' key ha hb hτ hτ'

end Lists
section Busy

/-- The request that a handler comes to next. -/
def Task.request? : Task R Reply ε α → Option R
  | .ask r _ => some r
  | .done _ => none

/-- A handler is about to ask something of the key. -/
def Pool.Busy (key : R → Option K) (p : Pool S R Reply ε α Op) (k : K) : Prop :=
  ∃ thread ∈ p.threads, thread.2.request?.bind key = some k

instance [DecidableEq K] (key : R → Option K) (p : Pool S R Reply ε α Op) (k : K) : Decidable (p.Busy key k) :=
  inferInstanceAs (Decidable (∃ thread ∈ p.threads, thread.2.request?.bind key = some k))

variable {key : R → Option K} {P : Protocol R Reply Stage} {post : Stage → Except ε α → Prop} {p : Pool S R Reply ε α Op}

theorem Pool.At.busy (h : p.At P post stages) (holds : Stage → K → Prop)
    (hrest : ∀ σ result k, post σ result → ¬ holds σ k) (hkey : ∀ σ r k, P.allowed σ r → holds σ k → key r = some k)
    (hσ : σ ∈ stages) {k : K} (hk : holds σ k) : p.Busy key k := by
  obtain ⟨i, hi⟩ := List.mem_iff_getElem?.mp hσ
  obtain ⟨⟨op, task⟩, hthread, hfollows⟩ := h.stage hi
  refine ⟨_, List.mem_of_getElem? hthread, ?_⟩
  cases task with
  | done result => exact absurd hk (hrest σ result k hfollows)
  | ask r next => exact hkey σ r k hfollows.1 hk

end Busy
end Soter.Tasks
