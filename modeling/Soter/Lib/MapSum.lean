import Mathlib.Algebra.BigOperators.Intervals
import Mathlib.Algebra.Order.BigOperators.Group.Finset
import Std.Data.ExtTreeMap

/-! Finite maps: reading after a write, and the sum of a quantity over all entries. -/
namespace Soter.MapSum
open Std
open scoped BigOperators

variable {K V M : Type*} [DecidableEq K] {cmp : K → K → Ordering} [TransCmp cmp] [LawfulEqCmp cmp]

theorem get_insert (m : ExtTreeMap K V cmp) (k a : K) (v : V) : (m.insert k v)[a]? = if a = k then some v else m[a]? := by
  rw [ExtTreeMap.getElem?_insert]
  by_cases h : a = k
  · subst h
    simp only [LawfulEqCmp.compare_eq_iff_eq, ↓reduceIte]
  · rw [if_neg h, if_neg fun he => h (LawfulEqCmp.eq_of_compare he).symm]

theorem get_erase (m : ExtTreeMap K V cmp) (k a : K) : (m.erase k)[a]? = if a = k then none else m[a]? := by
  rw [ExtTreeMap.getElem?_erase]
  by_cases h : a = k
  · subst h
    simp only [LawfulEqCmp.compare_eq_iff_eq, ↓reduceIte]
  · rw [if_neg h, if_neg fun he => h (LawfulEqCmp.eq_of_compare he).symm]

theorem get_insert_of_ne {m : ExtTreeMap K V cmp} {k a : K} {v : V} (h : a ≠ k) : (m.insert k v)[a]? = m[a]? := by
  rw [get_insert, if_neg h]

section Sum
variable [AddCommMonoid M]

/-- The sum of `f` over all entries of a map. -/
def sumOver (f : K → V → M) (m : ExtTreeMap K V cmp) : M :=
  (m.toList.map fun e => f e.1 e.2).sum

def keySet (m : ExtTreeMap K V cmp) : Finset K := (m.toList.map Prod.fst).toFinset

theorem mem_keySet {m : ExtTreeMap K V cmp} {k : K} : k ∈ keySet m ↔ ∃ v, m[k]? = some v := by
  simp only [keySet, List.mem_toFinset, List.mem_map, Prod.exists, exists_and_right, exists_eq_right,
    ExtTreeMap.mem_toList_iff_getElem?_eq_some]

/-- What the key `k` adds to the sum. -/
def share (f : K → V → M) (m : ExtTreeMap K V cmp) (k : K) : M := (m[k]?).elim 0 (f k)

/-- The sum may be taken over any finite set of keys that leaves no entry out. -/
theorem sumOver_eq_sum (f : K → V → M) (m : ExtTreeMap K V cmp) (s : Finset K)
    (hs : ∀ k v, m[k]? = some v → k ∈ s) : sumOver f m = ∑ k ∈ s, share f m k := by
  have hnodup : (m.toList.map Prod.fst).Nodup := by
    rw [List.Nodup, List.pairwise_map]
    exact (ExtTreeMap.distinct_keys_toList (t := m)).imp fun h he =>
      h (by rw [he]; exact ReflCmp.compare_self)
  have hkeys : sumOver f m = ∑ k ∈ keySet m, share f m k := by
    rw [keySet, List.sum_toFinset _ hnodup, sumOver, List.map_map]
    congr 1
    apply List.map_congr_left
    intro e he
    have hget := ExtTreeMap.mem_toList_iff_getElem?_eq_some.mp (show (e.1, e.2) ∈ m.toList from he)
    simp only [Function.comp_apply, share, hget, Option.elim_some]
  rw [hkeys]
  apply Finset.sum_subset
  · intro k hk
    obtain ⟨v, hv⟩ := mem_keySet.mp hk
    exact hs k v hv
  · intro k _ hk
    have hnone : m[k]? = none := by
      cases h : m[k]? with
      | none => rfl
      | some v => exact absurd (mem_keySet.mpr ⟨v, h⟩) hk
    simp only [share, hnone, Option.elim_none]

/-- The sum over a map whose keys all lie below `n`, by counting through the keys. -/
theorem sumOver_eq_sum_range (f : ℕ → V → M) (m : ExtTreeMap ℕ V) (n : ℕ) (hn : ∀ k v, m[k]? = some v → k < n) :
    sumOver f m = ∑ k ∈ Finset.range n, share f m k :=
  sumOver_eq_sum f m _ fun k v h => Finset.mem_range.mpr (hn k v h)

omit [DecidableEq K] in
theorem sumOver_congr (f g : K → V → M) (m : ExtTreeMap K V cmp)
    (h : ∀ k v, m[k]? = some v → f k v = g k v) : sumOver f m = sumOver g m := by
  unfold sumOver
  congr 1
  apply List.map_congr_left
  intro e he
  exact h e.1 e.2 (ExtTreeMap.mem_toList_iff_getElem?_eq_some.mp he)

omit [DecidableEq K] [LawfulEqCmp cmp] in
@[simp] theorem sumOver_empty (f : K → V → M) : sumOver f (∅ : ExtTreeMap K V cmp) = 0 := by
  have h : (∅ : ExtTreeMap K V cmp).toList = [] := ExtTreeMap.toList_eq_nil_iff.mpr rfl
  simp only [sumOver, h, List.map_nil, List.sum_nil]

omit [DecidableEq K] [LawfulEqCmp cmp] in
theorem sumOver_add (f g : K → V → M) (m : ExtTreeMap K V cmp) :
    sumOver (fun k v => f k v + g k v) m = sumOver f m + sumOver g m := by
  unfold sumOver
  exact List.sum_map_add

theorem sum_sumOver {ι : Type*} (s : Finset ι) (f : ι → K → V → M) (m : ExtTreeMap K V cmp) :
    ∑ i ∈ s, sumOver (f i) m = sumOver (fun k v => ∑ i ∈ s, f i k v) m := by
  have hm : ∀ a b, m[a]? = some b → a ∈ keySet m := fun a b hb => mem_keySet.mpr ⟨b, hb⟩
  rw [sumOver_eq_sum _ m _ hm, Finset.sum_congr rfl fun i _ => sumOver_eq_sum (f i) m _ hm, Finset.sum_comm]
  apply Finset.sum_congr rfl
  intro k _
  unfold share
  cases m[k]? with
  | none => exact Finset.sum_const_zero
  | some v => rfl

/-- Writing an entry replaces its share of the sum. -/
theorem sumOver_insert_add (f : K → V → M) (m : ExtTreeMap K V cmp) (k : K) (v : V) :
    sumOver f (m.insert k v) + share f m k = sumOver f m + f k v := by
  let s := insert k (keySet m)
  have hm : ∀ a b, m[a]? = some b → a ∈ s := fun a b h =>
    Finset.mem_insert_of_mem (mem_keySet.mpr ⟨b, h⟩)
  have hi : ∀ a b, (m.insert k v)[a]? = some b → a ∈ s := by
    intro a b h
    rw [get_insert] at h
    split at h
    · rename_i ha
      exact ha ▸ Finset.mem_insert_self k _
    · exact hm a b h
  have hk : k ∈ s := Finset.mem_insert_self k _
  rw [sumOver_eq_sum f _ s hi, sumOver_eq_sum f m s hm, ← Finset.add_sum_erase s _ hk,
    ← Finset.add_sum_erase s (share f m) hk]
  have hrest : ∑ a ∈ s.erase k, share f (m.insert k v) a = ∑ a ∈ s.erase k, share f m a := by
    apply Finset.sum_congr rfl
    intro a ha
    simp only [share, get_insert_of_ne (Finset.ne_of_mem_erase ha)]
  have hself : share f (m.insert k v) k = f k v := by
    simp only [share, get_insert, ↓reduceIte, Option.elim_some]
  rw [hrest, hself]
  exact (add_assoc _ _ _).trans ((add_comm _ _).trans (congrArg (· + f k v) (add_comm _ _)))

end Sum
section Group
variable [AddCommGroup M]

theorem sumOver_insert (f : K → V → M) (m : ExtTreeMap K V cmp) (k : K) (v : V) :
    sumOver f (m.insert k v) = sumOver f m - share f m k + f k v := by
  rw [eq_sub_iff_add_eq.mpr (sumOver_insert_add f m k v)]
  exact (sub_add_eq_add_sub _ _ _).symm

theorem sumOver_insert_new (f : K → V → M) (m : ExtTreeMap K V cmp) (k : K) (v : V)
    (hk : m[k]? = none) : sumOver f (m.insert k v) = sumOver f m + f k v := by
  simp only [sumOver_insert, share, hk, Option.elim_none, sub_zero]

theorem sumOver_update (f : K → V → M) (m : ExtTreeMap K V cmp) (k : K) (v v' : V)
    (hk : m[k]? = some v) : sumOver f (m.insert k v') = sumOver f m - f k v + f k v' := by
  simp only [sumOver_insert, share, hk, Option.elim_some]

theorem sumOver_congr_except (f g : K → V → M) (m : ExtTreeMap K V cmp) (k : K) (v : V)
    (hk : m[k]? = some v) (h : ∀ a b, a ≠ k → m[a]? = some b → f a b = g a b) :
    sumOver f m = sumOver g m - g k v + f k v := by
  have hm : ∀ a b, m[a]? = some b → a ∈ keySet m := fun a b hb => mem_keySet.mpr ⟨b, hb⟩
  have hmem : k ∈ keySet m := hm k v hk
  rw [sumOver_eq_sum f m _ hm, sumOver_eq_sum g m _ hm, ← Finset.add_sum_erase _ _ hmem,
    ← Finset.add_sum_erase _ (share g m) hmem]
  have hrest : ∑ a ∈ (keySet m).erase k, share f m a = ∑ a ∈ (keySet m).erase k, share g m a := by
    apply Finset.sum_congr rfl
    intro a ha
    unfold share
    cases hget : m[a]? with
    | none => rfl
    | some b => exact h a b (Finset.ne_of_mem_erase ha) hget
  rw [hrest]
  simp only [share, hk, Option.elim_some, add_sub_cancel_left]
  exact add_comm _ _

end Group

theorem le_sumOver (f : K → V → ℤ) (m : ExtTreeMap K V cmp)
    (hf : ∀ k v, m[k]? = some v → 0 ≤ f k v) (k : K) (v : V) (hk : m[k]? = some v) : f k v ≤ sumOver f m := by
  have hs : ∀ a b, m[a]? = some b → a ∈ keySet m := fun a b h => mem_keySet.mpr ⟨b, h⟩
  rw [sumOver_eq_sum f m _ hs]
  have hshare : share f m k = f k v := by simp only [share, hk, Option.elim_some]
  rw [← hshare]
  apply Finset.single_le_sum _ (hs k v hk)
  intro a _
  unfold share
  cases h : m[a]? with
  | none => exact le_rfl
  | some b => exact hf a b h

theorem sumOver_mono (f g : K → V → ℤ) (m : ExtTreeMap K V cmp)
    (h : ∀ k v, m[k]? = some v → f k v ≤ g k v) : sumOver f m ≤ sumOver g m := by
  have hm : ∀ a b, m[a]? = some b → a ∈ keySet m := fun a b hb => mem_keySet.mpr ⟨b, hb⟩
  rw [sumOver_eq_sum f m _ hm, sumOver_eq_sum g m _ hm]
  apply Finset.sum_le_sum
  intro a _
  unfold share
  cases hget : m[a]? with
  | none => exact le_rfl
  | some b => exact h a b hget

theorem sumOver_nonneg (f : K → V → ℤ) (m : ExtTreeMap K V cmp)
    (hf : ∀ k v, m[k]? = some v → 0 ≤ f k v) : 0 ≤ sumOver f m := by
  rw [sumOver_eq_sum f m _ fun a b h => mem_keySet.mpr ⟨b, h⟩]
  apply Finset.sum_nonneg
  intro a _
  unfold share
  cases h : m[a]? with
  | none => exact le_rfl
  | some b => exact hf a b h

end Soter.MapSum
