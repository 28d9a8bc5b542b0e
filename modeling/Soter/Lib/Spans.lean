import Mathlib.Data.List.Pairwise

/-! Half-open spans of positions, and the pass from left to right that keeps those that do not overlap an earlier one. -/
namespace Soter.Spans

open List

variable {α : Type}

section Pass
variable (start stop : α → ℕ)

def Within (s : α) (i : ℕ) : Prop := start s ≤ i ∧ i < stop s

instance (s : α) (i : ℕ) : Decidable (Within start stop s i) := inferInstanceAs (Decidable (_ ∧ _))

def Covered (l : List α) (i : ℕ) : Prop := ∃ s ∈ l, Within start stop s i

instance (l : List α) (i : ℕ) : Decidable (Covered start stop l i) := inferInstanceAs (Decidable (∃ s ∈ l, _))

/-- Leave out every span that starts before the end of the last one kept. -/
def keep : ℕ → List α → List α
  | _, [] => []
  | currentEnd, s :: l => if start s < currentEnd then keep currentEnd l else s :: keep (stop s) l

def Before (s t : α) : Prop := start s < start t ∨ start s = start t ∧ stop t ≤ stop s

def Apart (s t : α) : Prop := stop s ≤ start t ∨ stop t ≤ start s

instance : Std.Symm (Apart start stop) := ⟨fun _ _ h => h.symm⟩

/-- Spans of `l` that do not overlap, each the longest of those that start where it starts, and that cover all of `p`. -/
def Tiled (l : List α) (p : ℕ → Prop) : Prop :=
  ∃ tiles : List α,
    (∀ k ∈ tiles, k ∈ l ∧ start k < stop k ∧ ∀ s ∈ l, start s = start k → stop s ≤ stop k) ∧
    (∀ k ∈ tiles, ∀ k' ∈ tiles, start k < start k' → stop k ≤ start k') ∧
    ∀ i, p i → Covered start stop tiles i

end Pass
section Facts
variable {start stop : α → ℕ} {l : List α} {p : ℕ → Prop}

theorem Covered.mono {l' : List α} {i : ℕ} (hsub : ∀ s ∈ l, s ∈ l') (h : Covered start stop l i) :
    Covered start stop l' i := by
  obtain ⟨s, hs, hi⟩ := h
  exact ⟨s, hsub s hs, hi⟩

theorem keep_subset : ∀ (currentEnd : ℕ) (l : List α), ∀ s ∈ keep start stop currentEnd l, s ∈ l
  | _, [], _, hs => hs
  | currentEnd, t :: l, s, hs => by
    rw [keep] at hs
    split at hs
    · exact mem_cons_of_mem _ (keep_subset currentEnd l s hs)
    · rcases mem_cons.mp hs with rfl | hs
      · exact mem_cons_self ..
      · exact mem_cons_of_mem _ (keep_subset (stop t) l s hs)

theorem le_start_of_keep : ∀ (currentEnd : ℕ) (l : List α), (∀ s ∈ l, start s ≤ stop s) →
    ∀ s ∈ keep start stop currentEnd l, currentEnd ≤ start s
  | _, [], _, _, hs => absurd hs not_mem_nil
  | currentEnd, t :: l, hordered, s, hs => by
    have hrest : ∀ s ∈ l, start s ≤ stop s := fun s hs => hordered s (mem_cons_of_mem _ hs)
    rw [keep] at hs
    split at hs
    · exact le_start_of_keep currentEnd l hrest s hs
    · rename_i hstart
      rcases mem_cons.mp hs with rfl | hs
      · omega
      · have hle := le_start_of_keep (stop t) l hrest s hs
        have ht := hordered t (mem_cons_self ..)
        omega

theorem keep_pairwise : ∀ (currentEnd : ℕ) (l : List α), (∀ s ∈ l, start s ≤ stop s) →
    (keep start stop currentEnd l).Pairwise fun s t => stop s ≤ start t
  | _, [], _ => List.Pairwise.nil
  | currentEnd, t :: l, hordered => by
    have hrest : ∀ s ∈ l, start s ≤ stop s := fun s hs => hordered s (mem_cons_of_mem _ hs)
    rw [keep]
    split
    · exact keep_pairwise currentEnd l hrest
    · exact pairwise_cons.mpr ⟨le_start_of_keep (stop t) l hrest, keep_pairwise (stop t) l hrest⟩

theorem eq_of_keep_shared (hordered : ∀ s ∈ l, start s ≤ stop s) {currentEnd i : ℕ} {s t : α}
    (hs : s ∈ keep start stop currentEnd l) (ht : t ∈ keep start stop currentEnd l) (hsi : Within start stop s i)
    (hti : Within start stop t i) : s = t := by
  by_contra hne
  have hpair : (keep start stop currentEnd l).Pairwise (Apart start stop) :=
    (keep_pairwise currentEnd l hordered).imp fun h => .inl h
  have hapart : stop s ≤ start t ∨ stop t ≤ start s := hpair.forall hs ht hne
  have h1 := hsi.1
  have h2 := hsi.2
  have h3 := hti.1
  have h4 := hti.2
  omega

theorem keep_or_inside : ∀ (currentEnd : ℕ) (l : List α), l.Pairwise (Before start stop) →
    ∀ s ∈ l, s ∈ keep start stop currentEnd l ∨ start s < currentEnd ∨
      ∃ t ∈ keep start stop currentEnd l, Before start stop t s ∧ start s < stop t
  | _, [], _, _, hs => absurd hs not_mem_nil
  | currentEnd, t :: l, hsorted, s, hs => by
    have ⟨hfirst, hrest⟩ := pairwise_cons.mp hsorted
    rw [keep]
    split
    · rename_i hstart
      rcases mem_cons.mp hs with rfl | hs
      · exact .inr (.inl hstart)
      · exact keep_or_inside currentEnd l hrest s hs
    · rcases mem_cons.mp hs with rfl | hs
      · exact .inl (mem_cons_self ..)
      · rcases keep_or_inside (stop t) l hrest s hs with hkept | hinside | ⟨k, hk, hbefore, hstop⟩
        · exact .inl (mem_cons_of_mem _ hkept)
        · exact .inr (.inr ⟨t, mem_cons_self .., hfirst s hs, hinside⟩)
        · exact .inr (.inr ⟨k, mem_cons_of_mem _ hk, hbefore, hstop⟩)

theorem Before.start_le {s t : α} (h : Before start stop s t) : start s ≤ start t := by
  rcases h with h | h
  · exact Nat.le_of_lt h
  · exact Nat.le_of_eq h.1

/-- The pass keeps a span with the extent of each tile, by induction on where the tile starts. -/
theorem keep_tile (hsorted : l.Pairwise (Before start stop)) (hordered : ∀ s ∈ l, start s ≤ stop s) {tiles : List α}
    (htiles : ∀ k ∈ tiles, k ∈ l ∧ start k < stop k ∧ ∀ s ∈ l, start s = start k → stop s ≤ stop k)
    (hapart : ∀ k ∈ tiles, ∀ k' ∈ tiles, start k < start k' → stop k ≤ start k')
    (hcover : ∀ i, Covered start stop l i → Covered start stop tiles i) :
    ∀ (bound : ℕ), ∀ k ∈ tiles, start k < bound → ∃ t ∈ keep start stop 0 l, start t = start k ∧ stop t = stop k
  | 0, _, _, hbound => absurd hbound (Nat.not_lt_zero _)
  | bound + 1, k, hk, hbound => by
    obtain ⟨hmem, hlong, hlongest⟩ := htiles k hk
    rcases keep_or_inside 0 l hsorted k hmem with hkept | hnone | ⟨t, ht, hbefore, hinside⟩
    · exact ⟨k, hkept, rfl, rfl⟩
    · exact absurd hnone (Nat.not_lt_zero _)
    have htl := keep_subset 0 l t ht
    rcases hbefore with hearlier | ⟨hsame, hlonger⟩
    · -- the kept span starts inside an earlier tile, which is kept too, and so it ends there
      have hcovered : Covered start stop l (start t) := ⟨t, htl, Nat.le_refl _, by omega⟩
      obtain ⟨k', hk', hin⟩ := hcover _ hcovered
      have hk'l := hin.1
      obtain ⟨t', ht', hstart, hstop⟩ :=
        keep_tile hsorted hordered htiles hapart hcover bound k' hk' (by omega)
      have hin' : Within start stop t' (start t) := by
        rw [Within, hstart, hstop]
        exact hin
      have heq := eq_of_keep_shared hordered ht' ht hin' ⟨Nat.le_refl _, by omega⟩
      have hle := hapart k' hk' k hk (by omega)
      subst heq
      omega
    · have hle := hlongest t htl hsame
      exact ⟨t, ht, hsame, by omega⟩

/-- The pass covers all of `p` exactly where tiles do. -/
theorem keep_covers_iff (hsorted : l.Pairwise (Before start stop)) (hordered : ∀ s ∈ l, start s ≤ stop s)
    (hp : ∀ i, Covered start stop l i → p i) :
    (∀ i, p i → Covered start stop (keep start stop 0 l) i) ↔ Tiled start stop l p := by
  constructor
  · -- the kept spans that are not empty are tiles
    intro hcovers
    refine ⟨(keep start stop 0 l).filter fun s => start s < stop s, fun k hk => ?_, fun k hk k' hk' hlt => ?_,
      fun i hi => ?_⟩
    · have ⟨hkept, hlong⟩ := mem_filter.mp hk
      have hlong : start k < stop k := of_decide_eq_true hlong
      refine ⟨keep_subset 0 l k hkept, hlong, fun s hs hstart => ?_⟩
      rcases keep_or_inside 0 l hsorted s hs with hs' | hnone | ⟨t, ht, hbefore, hinside⟩
      · by_cases hempty : start s < stop s
        · have heq := eq_of_keep_shared hordered hs' hkept ⟨Nat.le_of_eq hstart, by omega⟩ ⟨Nat.le_refl _, hlong⟩
          exact Nat.le_of_eq (congrArg stop heq)
        · omega
      · exact absurd hnone (Nat.not_lt_zero _)
      · have hle := hbefore.start_le
        have heq := eq_of_keep_shared hordered ht hkept ⟨by omega, by omega⟩ ⟨Nat.le_refl _, hlong⟩
        subst heq
        rcases hbefore with hlt | ⟨-, hstop⟩
        · omega
        · exact hstop
    · have hkept := (mem_filter.mp hk).1
      have hkept' := (mem_filter.mp hk').1
      by_contra hover
      have hlong := of_decide_eq_true (mem_filter.mp hk').2
      have heq := eq_of_keep_shared hordered hkept hkept' ⟨Nat.le_of_lt hlt, by omega⟩ ⟨Nat.le_refl _, hlong⟩
      exact absurd (congrArg start heq) (Nat.ne_of_lt hlt)
    · obtain ⟨s, hs, hin⟩ := hcovers i hi
      have hlong : start s < stop s := Nat.lt_of_le_of_lt hin.1 hin.2
      exact ⟨s, mem_filter.mpr ⟨hs, decide_eq_true hlong⟩, hin⟩
  · intro ⟨tiles, htiles, hapart, hcover⟩ i hi
    obtain ⟨k, hk, hin⟩ := hcover i hi
    obtain ⟨t, ht, hstart, hstop⟩ := keep_tile hsorted hordered htiles hapart (fun i hi => hcover i (hp i hi))
      (start k + 1) k hk (Nat.lt_succ_self _)
    refine ⟨t, ht, ?_⟩
    rw [Within, hstart, hstop]
    exact hin

end Facts
end Soter.Spans
