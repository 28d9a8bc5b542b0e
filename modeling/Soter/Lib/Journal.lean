import Mathlib.Data.List.Basic

/-! Journals: lists of entries, each about one key, that can be replayed to the values of the keys
and that may name the value they replace. -/
namespace Soter.Journal

variable {K V E : Type*} [DecidableEq K] (key : E → K) (apply : Option V → E → Option V)

/-- The value of `k` after its entries in the journal, in their order. -/
def replay (k : K) (log : List E) : Option V := (log.filter fun e => key e = k).foldl apply none

/-- Replaying the journal gives the values of `view`. -/
def Mirrors (view : K → Option V) (log : List E) : Prop := ∀ k, replay key apply k log = view k

/-- Every entry names the value that its key had before it. -/
def Chained (previous : E → Option V) (log : List E) : Prop :=
  ∀ k before e after, (log.filter fun e => key e = k) = before ++ e :: after →
    previous e = before.foldl apply none

variable {key apply} {view view' : K → Option V} {previous : E → Option V} {log : List E} {e : E}

theorem replay_snoc (k : K) : replay key apply k (log ++ [e]) =
    if key e = k then apply (replay key apply k log) e else replay key apply k log := by
  unfold replay
  rw [List.filter_append, List.foldl_append]
  by_cases hk : key e = k
  · simp only [hk, List.filter_singleton, decide_true, cond_true, List.foldl_cons, List.foldl_nil, ↓reduceIte]
  · simp only [hk, List.filter_singleton, decide_false, cond_false, List.foldl_nil, ↓reduceIte]

theorem Mirrors.nil (h : ∀ k, view k = none) : Mirrors key apply view [] := by
  intro k
  rw [h k]
  rfl

theorem Mirrors.congr (h : Mirrors key apply view log) (hview : ∀ k, view' k = view k) :
    Mirrors key apply view' log := by
  intro k
  rw [h k, hview k]

theorem Mirrors.snoc (h : Mirrors key apply view log) (hkey : view' (key e) = apply (view (key e)) e)
    (hother : ∀ k, key e ≠ k → view' k = view k) : Mirrors key apply view' (log ++ [e]) := by
  intro k
  rw [replay_snoc]
  by_cases hk : key e = k
  · rw [if_pos hk, h k, ← hk, hkey]
  · rw [if_neg hk, h k, hother k hk]

theorem Chained.nil : Chained key apply previous [] := by
  intro k before e after h
  simp at h

theorem Chained.snoc (h : Chained key apply previous log)
    (he : previous e = replay key apply (key e) log) : Chained key apply previous (log ++ [e]) := by
  intro k before e' after hsplit
  rw [List.filter_append] at hsplit
  by_cases hk : key e = k
  · rw [List.filter_singleton, decide_eq_true hk, cond_true] at hsplit
    -- the split is at the new entry or at an older one
    rcases List.eq_nil_or_concat after with rfl | ⟨init, last, rfl⟩
    · obtain ⟨hbefore, hlast⟩ := List.append_inj' hsplit rfl
      cases hlast
      rw [he, ← hbefore, replay, hk]
    · rw [List.concat_eq_append, ← List.cons_append, ← List.append_assoc] at hsplit
      obtain ⟨hinit, -⟩ := List.append_inj' hsplit rfl
      exact h k before e' init hinit
  · rw [List.filter_singleton, decide_eq_false hk, cond_false, List.append_nil] at hsplit
    exact h k before e' after hsplit

end Soter.Journal
