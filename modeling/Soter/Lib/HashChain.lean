import Mathlib.Data.List.Forall2
import Mathlib.Data.List.Induction

/-! Hash chains: each entry links to the hash of the one before it, the first to the genesis hash. Two
chains with one tip agree from the end on, up to where one of them begins. -/
namespace Soter.HashChain

variable {E F H : Type*} {link hash : E → H} {start : H} {es es' : List E} {e : E}

/-- `es` is a chain behind the hash `start`. -/
def Chained (link hash : E → H) : H → List E → Prop
  | _, [] => True
  | start, e :: es => link e = start ∧ Chained link hash (hash e) es

/-- The hash that the next entry has to link to. -/
def tip (hash : E → H) : H → List E → H
  | start, [] => start
  | _, e :: es => tip hash (hash e) es

@[simp] theorem tip_nil : tip hash start [] = start := rfl

theorem tip_append : ∀ (es : List E) {start : H}, tip hash start (es ++ es') = tip hash (tip hash start es) es'
  | [], _ => rfl
  | _ :: es, _ => tip_append es

@[simp] theorem tip_snoc : tip hash start (es ++ [e]) = hash e := tip_append es

theorem chained_append : ∀ {es : List E} {start : H}, Chained link hash start (es ++ es') ↔
    Chained link hash start es ∧ Chained link hash (tip hash start es) es'
  | [], _ => (iff_of_eq (true_and _)).symm
  | e :: es, start => by
    rw [List.cons_append, Chained, Chained, tip, chained_append, and_assoc]

theorem chained_snoc : Chained link hash start (es ++ [e]) ↔
    Chained link hash start es ∧ link e = tip hash start es := by
  rw [chained_append, Chained, Chained, and_true]

section Aligned
variable {link' hash' : F → H} {Agree : E → F → Prop}

/-- Two chains with one tip, in which equal hashes stand for entries that agree, also on their links:
they agree in full, or one of them is a final part of the other, which has the genesis hash in front of
that part. -/
theorem aligned {as : List E} {bs : List F} (has : Chained link hash start as) (hbs : Chained link' hash' start bs)
    (hagree : ∀ a ∈ as, ∀ b ∈ bs, hash a = hash' b → Agree a b ∧ link a = link' b)
    (htip : tip hash start as = tip hash' start bs) : List.Forall₂ Agree as bs ∨
      (∃ before a after, as = before ++ a :: after ∧ hash a = start ∧ List.Forall₂ Agree after bs) ∨
      ∃ before b after, bs = before ++ b :: after ∧ hash' b = start ∧ List.Forall₂ Agree as after := by
  induction as using List.reverseRec generalizing bs with
  | nil =>
    rcases List.eq_nil_or_concat bs with rfl | ⟨bs, b, rfl⟩
    · exact .inl .nil
    · rw [List.concat_eq_append, tip_snoc] at htip
      exact .inr (.inr ⟨bs, b, [], List.concat_eq_append, htip.symm, .nil⟩)
  | append_singleton as a ih =>
    rw [tip_snoc] at htip
    rcases List.eq_nil_or_concat bs with rfl | ⟨bs, b, rfl⟩
    · exact .inr (.inl ⟨as, a, [], rfl, htip, .nil⟩)
    · rw [List.concat_eq_append] at hbs hagree htip ⊢
      rw [tip_snoc] at htip
      obtain ⟨hab, hlink⟩ := hagree a (by simp) b (by simp) htip
      obtain ⟨has, ha⟩ := chained_snoc.mp has
      obtain ⟨hbs, hb⟩ := chained_snoc.mp hbs
      have hlast : List.Forall₂ Agree [a] [b] := .cons hab .nil
      have hbefore := ih has hbs (fun a' ha' b' hb' => hagree a' (by simp [ha']) b' (by simp [hb']))
        (by rw [← ha, ← hb, hlink])
      rcases hbefore with hall | ⟨before, a', after, rfl, ha', hafter⟩ | ⟨before, b', after, rfl, hb', hafter⟩
      · exact .inl (List.rel_append hall hlast)
      · exact .inr (.inl ⟨before, a', after ++ [a], by simp, ha', List.rel_append hafter hlast⟩)
      · exact .inr (.inr ⟨before, b', after ++ [b], by simp, hb', List.rel_append hafter hlast⟩)

end Aligned
end Soter.HashChain
