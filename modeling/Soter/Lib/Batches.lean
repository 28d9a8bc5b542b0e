import Mathlib.Data.List.Nodup

/-! Writes that are cut into batches: as long as something is pending, read a few of it and write them. -/
namespace Soter.Batches

variable {σ ι : Type} [DecidableEq ι]

section Loop
variable (pending : σ → List ι) (write : List ι → σ → ℕ × σ) (order : ℕ → List ι → List ι) (take : ℕ)

/-- `order k` is the order in which the read number `k` finds what is pending. What has been counted so far is `total`. -/
def batches : ℕ → ℕ → ℕ → σ → Option (ℕ × σ)
  | 0, _, _, _ => none
  | fuel + 1, k, total, s =>
    let ids := (order k (pending s)).take take
    if ids = [] then some (total, s)
    else
      let result := write ids s
      if ids.length < take then some (total + result.1, result.2)
      else batches fuel (k + 1) (total + result.1) result.2

/-- A write that may be done piece by piece in a state in which `I` holds. -/
structure Divisible (I : σ → Prop) : Prop where
  keeps : ∀ s ids, I s → I (write ids s).2
  nodup : ∀ s, I s → (pending s).Nodup
  count : ∀ s ids, I s → ids.Nodup → (∀ i ∈ ids, i ∈ pending s) → (write ids s).1 = ids.length
  left : ∀ s ids, I s → pending (write ids s).2 = (pending s).filter (· ∉ ids)
  nothing : ∀ s, I s → (write [] s).2 = s
  append : ∀ s ids ids', (∀ i ∈ ids', i ∉ ids) → (write ids' (write ids s).2).2 = (write (ids ++ ids') s).2
  same : ∀ s ids ids', (∀ i, i ∈ ids ↔ i ∈ ids') → write ids s = write ids' s

end Loop
section Whole
variable {pending : σ → List ι} {write : List ι → σ → ℕ × σ} {order : ℕ → List ι → List ι} {take : ℕ}
  {I : σ → Prop} {s : σ} {ids l : List ι}

theorem perm_taken (hl : l.Nodup) (hids : ids.Nodup) (hsub : ∀ i ∈ ids, i ∈ l) : l.Perm (ids ++ l.filter (· ∉ ids)) := by
  have hnodup : (ids ++ l.filter (· ∉ ids)).Nodup := by
    refine List.nodup_append.mpr ⟨hids, hl.filter _, fun i hi j hj hij => ?_⟩
    have hout := of_decide_eq_true (List.mem_filter.mp hj).2
    exact hout (hij ▸ hi)
  refine (List.perm_ext_iff_of_nodup hl hnodup).mpr fun i => ?_
  rw [List.mem_append, List.mem_filter, decide_eq_true_iff]
  constructor
  · intro hi
    by_cases htaken : i ∈ ids
    · exact .inl htaken
    · exact .inr ⟨hi, htaken⟩
  · rintro (hi | ⟨hi, -⟩)
    · exact hsub i hi
    · exact hi

/-- In whatever batches, all that was pending is written, and counted once. -/
theorem batches_eq (h : Divisible pending write I) (htake : 0 < take) (horder : ∀ k l, (order k l).Perm l) :
    ∀ (fuel k total : ℕ) (s : σ), I s → (pending s).length < fuel →
      batches pending write order take fuel k total s = some (total + (pending s).length, (write (pending s) s).2)
  | 0, _, _, _, _, hfuel => absurd hfuel (Nat.not_lt_zero _)
  | fuel + 1, k, total, s, hs, hfuel => by
    have hperm := horder k (pending s)
    have hnodup : (order k (pending s)).Nodup := hperm.nodup_iff.mpr (h.nodup s hs)
    have hsub : ∀ i ∈ (order k (pending s)).take take, i ∈ pending s :=
      fun i hi => hperm.mem_iff.mp (List.mem_of_mem_take hi)
    have hids : ((order k (pending s)).take take).Nodup := hnodup.sublist (List.take_sublist _ _)
    have hlength := hperm.length_eq
    rw [batches]
    split
    · -- nothing is pending any more
      rename_i hnil
      have hzero : (order k (pending s)).take take = [] := hnil
      have hempty : pending s = [] := by
        have hle := congrArg List.length hzero
        rw [List.length_take, List.length_nil] at hle
        exact List.length_eq_zero_iff.mp (by omega)
      rw [hempty, h.nothing s hs, List.length_nil, Nat.add_zero]
    · rename_i hsome
      have hcount := h.count s _ hs hids hsub
      split
      · -- the last batch
        rename_i hlast
        have hall : (order k (pending s)).take take = order k (pending s) := by
          have hlast : ((order k (pending s)).take take).length < take := hlast
          rw [List.length_take] at hlast
          exact List.take_of_length_le (by omega)
        have hsame : write ((order k (pending s)).take take) s = write (pending s) s :=
          h.same s _ _ fun i => by rw [hall]; exact hperm.mem_iff
        change some (total + (write _ s).1, (write _ s).2) = _
        rw [hcount, hsame, hall, hlength]
      · -- a full batch, and the rest by induction on the fuel
        rename_i hfull
        have htaken := perm_taken (h.nodup s hs) hids hsub
        have hleft := h.left s ((order k (pending s)).take take) hs
        have hsum := htaken.length_eq
        have hpos : 0 < ((order k (pending s)).take take).length := List.length_pos_of_ne_nil hsome
        rw [List.length_append] at hsum
        have hrest := batches_eq h htake horder fuel (k + 1) (total + (write ((order k (pending s)).take take) s).1) _
          (h.keeps s _ hs) (by rw [hleft]; omega)
        refine hrest.trans ?_
        rw [hleft, h.append s _ _ fun i hi => of_decide_eq_true (List.mem_filter.mp hi).2, hcount]
        rw [h.same s _ (pending s) fun i => htaken.mem_iff.symm]
        congr 2
        omega

end Whole
end Soter.Batches
