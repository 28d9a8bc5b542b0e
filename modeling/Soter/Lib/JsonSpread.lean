import Soter.Lib.JsonText

/-! Objects that are spread into another one: a key keeps its place, and the last value for it stands. -/
namespace Soter.Json

variable {β : Type} {k : Text} {v : β}

/-- `{ ...ms, ...patch }`. -/
def spread (ms patch : List (Text × β)) : List (Text × β) := patch.foldl setMember ms

theorem lookup_cons_eq (m : Text × β) (ms : List (Text × β)) (k : Text) :
    (m :: ms).lookup k = if k = m.1 then some m.2 else ms.lookup k := by
  rw [List.lookup_cons]
  by_cases h : k = m.1
  · rw [if_pos h, h, beq_self_eq_true]
  · rw [if_neg h, beq_eq_false_iff_ne.mpr h]

theorem lookup_replaced (m : Text × β) (k : Text) :
    ∀ ms : List (Text × β), (ms.map fun m' => if m'.1 = m.1 then m else m').lookup k =
      if k = m.1 then (if m.1 ∈ ms.map Prod.fst then some m.2 else none) else ms.lookup k
  | [] => by
    rw [List.map_nil, List.map_nil, if_neg List.not_mem_nil, List.lookup_nil, ite_self]
  | m' :: ms => by
    rw [List.map_cons, lookup_cons_eq, lookup_replaced m k ms, lookup_cons_eq]
    by_cases hm : m'.1 = m.1
    · rw [if_pos hm, List.map_cons, hm, if_pos List.mem_cons_self]
      by_cases hk : k = m.1
      · rw [if_pos hk, if_pos hk]
      · rw [if_neg hk, if_neg hk, if_neg hk, if_neg hk]
    · rw [if_neg hm]
      by_cases hk : k = m.1
      · have hne : k ≠ m'.1 := fun h => hm (h.symm.trans hk)
        have hmem : m.1 ∈ (m' :: ms).map Prod.fst ↔ m.1 ∈ ms.map Prod.fst := by
          rw [List.map_cons, List.mem_cons]
          exact ⟨fun h => h.resolve_left fun h => hm h.symm, .inr⟩
        rw [if_neg hne, if_pos hk, if_pos hk]
        simp only [hmem]
      · rw [if_neg hk, if_neg hk]

theorem lookup_eq_none_of_not_mem : ∀ ms : List (Text × β), k ∉ ms.map Prod.fst → ms.lookup k = none
  | [], _ => rfl
  | m :: ms, h => by
    rw [List.map_cons, List.mem_cons, not_or] at h
    rw [lookup_cons_eq, if_neg h.1, lookup_eq_none_of_not_mem ms h.2]

theorem lookup_append (k : Text) (ms' : List (Text × β)) :
    ∀ ms : List (Text × β), (ms ++ ms').lookup k = (ms.lookup k).or (ms'.lookup k)
  | [] => rfl
  | m :: ms => by
    rw [List.cons_append, lookup_cons_eq, lookup_cons_eq, lookup_append k ms' ms]
    split
    · rfl
    · rfl

theorem lookup_setMember (m : Text × β) (ms : List (Text × β)) (k : Text) :
    (setMember ms m).lookup k = if k = m.1 then some m.2 else ms.lookup k := by
  rw [setMember]
  by_cases hmem : m.1 ∈ ms.map Prod.fst
  · rw [if_pos hmem, lookup_replaced, if_pos hmem]
  · rw [if_neg hmem, lookup_append, lookup_cons_eq, List.lookup_nil]
    by_cases hk : k = m.1
    · rw [if_pos hk, if_pos hk, hk, lookup_eq_none_of_not_mem ms hmem, Option.none_or]
    · rw [if_neg hk, if_neg hk, Option.or_none]

theorem lookup_spread_of_not_mem :
    ∀ (patch ms : List (Text × β)), k ∉ patch.map Prod.fst → (spread ms patch).lookup k = ms.lookup k
  | [], _, _ => rfl
  | m :: patch, ms, h => by
    rw [List.map_cons, List.mem_cons, not_or] at h
    calc
      (spread ms (m :: patch)).lookup k
      _ = (spread (setMember ms m) patch).lookup k := rfl
      _ = (setMember ms m).lookup k := lookup_spread_of_not_mem patch _ h.2
      _ = ms.lookup k := by rw [lookup_setMember, if_neg h.1]

theorem lookup_spread_of_mem : ∀ (patch ms : List (Text × β)), (patch.map Prod.fst).Nodup → (k, v) ∈ patch →
      (spread ms patch).lookup k = some v
  | m :: patch, ms, hnodup, hmem => by
    rw [List.map_cons, List.nodup_cons] at hnodup
    rcases List.mem_cons.mp hmem with rfl | hmem
    · calc
        (spread ms ((k, v) :: patch)).lookup k
        _ = (spread (setMember ms (k, v)) patch).lookup k := rfl
        _ = (setMember ms (k, v)).lookup k := lookup_spread_of_not_mem patch _ hnodup.1
        _ = some v := by rw [lookup_setMember, if_pos rfl]
    · exact lookup_spread_of_mem patch (setMember ms m) hnodup.2 hmem

end Soter.Json
