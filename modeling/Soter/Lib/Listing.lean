import Soter.Lib.MapSum

/-! Numbered slots that list the keys of a map, and scans that go through the entries of a map by
slot or by key. -/
namespace Soter.Listing
open Std Soter.MapSum
open scoped BigOperators

variable {K V M : Type*}

/-- The slots below `n` hold the keys in `S`, each of them once; the others are empty. -/
structure Lists (slots : ExtTreeMap ℕ K) (n : ℕ) (S : K → Prop) : Prop where
  filled : ∀ i : ℕ, i < n → ∃ k, slots[i]? = some k ∧ S k
  beyond : ∀ i : ℕ, n ≤ i → slots[i]? = none
  once : ∀ (i j : ℕ) (k : K), slots[i]? = some k → slots[j]? = some k → i = j
  complete : ∀ k : K, S k → ∃ i : ℕ, slots[i]? = some k

variable {S : K → Prop} {n : ℕ} {slots : ExtTreeMap ℕ K}
namespace Lists
variable {S' : K → Prop}

variable {i : ℕ} {k : K}

theorem empty (hS : ∀ k, ¬ S k) : Lists (∅ : ExtTreeMap ℕ K) 0 S where
  filled := by
    intro i hi
    exact absurd hi (Nat.not_lt_zero i)
  beyond := by
    intro i _
    exact ExtTreeMap.getElem?_empty
  once := by
    intro i j k hi _
    rw [ExtTreeMap.getElem?_empty] at hi
    cases hi
  complete := by
    intro k hk
    exact absurd hk (hS k)

theorem congr (h : Lists slots n S) (hS : ∀ k, S' k ↔ S k) : Lists slots n S' := by
  have heq : S' = S := funext fun k => propext (hS k)
  exact heq ▸ h

theorem lt_of_get (h : Lists slots n S) (hi : slots[i]? = some k) : i < n := by
  by_contra hn
  have hnone := h.beyond i (Nat.le_of_not_lt hn)
  rw [hnone] at hi
  cases hi

theorem mem_of_get (h : Lists slots n S) (hi : slots[i]? = some k) : S k := by
  obtain ⟨k', hk', hS⟩ := h.filled i (h.lt_of_get hi)
  obtain rfl := Option.some.inj (hi.symm.trans hk')
  exact hS

/-- A key that is not listed yet goes into the first empty slot. -/
theorem push (h : Lists slots n S) (hk : ¬ S k) (hS : ∀ a, S' a ↔ a = k ∨ S a) : Lists (slots.insert n k) (n + 1) S' where
  filled := by
    intro i hi
    rw [get_insert]
    by_cases hin : i = n
    · exact ⟨k, if_pos hin, (hS k).mpr (.inl rfl)⟩
    · have hlt : i < n := by omega
      obtain ⟨a, ha, hSa⟩ := h.filled i hlt
      exact ⟨a, (if_neg hin).trans ha, (hS a).mpr (.inr hSa)⟩
  beyond := by
    intro i hi
    have hin : i ≠ n := by omega
    rw [get_insert_of_ne hin]
    apply h.beyond
    omega
  once := by
    intro i j a hi hj
    rw [get_insert] at hi hj
    -- the new key is in no old slot
    have hnew : ∀ i : ℕ, slots[i]? ≠ some k := fun i hi => hk (h.mem_of_get hi)
    split at hi <;> split at hj
    · omega
    · cases hi
      exact absurd hj (hnew j)
    · cases hj
      exact absurd hi (hnew i)
    · exact h.once i j a hi hj
  complete := by
    intro a ha
    rcases (hS a).mp ha with rfl | ha
    · exact ⟨n, by rw [get_insert, if_pos rfl]⟩
    · obtain ⟨i, hi⟩ := h.complete a ha
      have hin : i ≠ n := (h.lt_of_get hi).ne
      exact ⟨i, by rw [get_insert_of_ne hin, hi]⟩

end Lists

/-- The keys in the slots below `n`, in their order. -/
def scan (slots : ExtTreeMap ℕ K) (n : ℕ) : List K := (List.range n).filterMap fun i : ℕ => slots[i]?

/-- The entries of a map at the keys below `n`, in the order of the keys. -/
def entries (m : ExtTreeMap ℕ V) (n : ℕ) : List V := (List.range n).filterMap fun k : ℕ => m[k]?

theorem Lists.mem_scan (h : Lists slots n S) {k : K} : k ∈ scan slots n ↔ S k := by
  unfold scan
  simp only [List.mem_filterMap, List.mem_range]
  constructor
  · rintro ⟨i, -, hi⟩
    exact h.mem_of_get hi
  · intro hk
    obtain ⟨i, hi⟩ := h.complete k hk
    exact ⟨i, h.lt_of_get hi, hi⟩

theorem Lists.scan_nodup (h : Lists slots n S) : (scan slots n).Nodup := by
  unfold scan
  apply List.Nodup.filterMap _ List.nodup_range
  intro i j k hi hj
  exact h.once i j k hi hj

theorem Lists.scan_perm_entries {slots : ExtTreeMap ℕ ℕ} {m : ExtTreeMap ℕ V} {bound : ℕ}
    (h : Lists slots n fun k : ℕ => ∃ v, m[k]? = some v) (hbound : ∀ (k : ℕ) (v : V), m[k]? = some v → k < bound) :
    ((scan slots n).filterMap fun k : ℕ => m[k]?).Perm (entries m bound) := by
  let stored := (List.range bound).filter fun k : ℕ => (m[k]?).isSome
  have hkeys : (scan slots n).Perm stored := by
    apply (List.perm_ext_iff_of_nodup h.scan_nodup (List.nodup_range.filter _)).mpr
    intro k
    rw [h.mem_scan, List.mem_filter, List.mem_range, Option.isSome_iff_exists]
    constructor
    · rintro ⟨v, hv⟩
      exact ⟨hbound k v hv, v, hv⟩
    · rintro ⟨-, v, hv⟩
      exact ⟨v, hv⟩
  have hentries : entries m bound = stored.filterMap fun k : ℕ => m[k]? := by
    unfold entries
    rw [List.filterMap_filter]
    apply List.filterMap_congr
    intro k _
    cases m[k]? <;> rfl
  rw [hentries]
  exact hkeys.filterMap _

theorem sum_entries [AddCommMonoid M] (f : V → M) (m : ExtTreeMap ℕ V) (bound : ℕ)
    (hbound : ∀ (k : ℕ) (v : V), m[k]? = some v → k < bound) :
    ((entries m bound).map f).sum = sumOver (fun _ => f) m := by
  have hrange : ∀ n, ((entries m n).map f).sum = ∑ k ∈ Finset.range n, share (fun _ => f) m k := by
    intro n
    induction n with
    | zero => rfl
    | succ n ih =>
      unfold entries at ih ⊢
      rw [List.range_succ, List.filterMap_append, List.map_append, List.sum_append, ih, Finset.sum_range_succ]
      congr 1
      unfold share
      cases hn : m[n]? <;> simp [hn]
  rw [hrange, sumOver_eq_sum_range _ m bound hbound]

end Soter.Listing
