import Mathlib

/-! The first rows of a query that is ordered by a key. Which of the rows with one key comes first is left
to the database. -/
namespace Soter.FirstPages

open List

variable {A O : Type*} [LinearOrder O] {key : A → O} {n : ℕ} {l page : List A} {x : A}

/-- `page` is one of the answers with at most `n` rows. -/
def FirstPage (key : A → O) (n : ℕ) (l page : List A) : Prop :=
  ∃ sorted : List A, sorted.Perm l ∧ sorted.Pairwise (fun a b => key a ≤ key b) ∧ page = sorted.take n

def sortBy (key : A → O) (l : List A) : List A := l.mergeSort fun a b => key a ≤ key b

theorem sortBy_perm (key : A → O) (l : List A) : (sortBy key l).Perm l := mergeSort_perm _ _

theorem sortBy_pairwise (key : A → O) (l : List A) : (sortBy key l).Pairwise fun a b => key a ≤ key b := by
  have hsorted : (sortBy key l).Pairwise fun a b => decide (key a ≤ key b) = true := pairwise_mergeSort
    (fun a b c hab hbc => decide_eq_true ((of_decide_eq_true hab).trans (of_decide_eq_true hbc)))
    (fun a b => by simpa using le_total (key a) (key b)) l
  exact hsorted.imp fun h => of_decide_eq_true h

theorem firstPage_sortBy (key : A → O) (n : ℕ) (l : List A) : FirstPage key n l ((sortBy key l).take n) :=
  ⟨sortBy key l, sortBy_perm key l, sortBy_pairwise key l, rfl⟩

theorem FirstPage.subset (h : FirstPage key n l page) (hx : x ∈ page) : x ∈ l := by
  obtain ⟨sorted, hperm, -, rfl⟩ := h
  exact hperm.subset (mem_of_mem_take hx)

/-- The rows that may come no later than `x`. -/
def upTo (key : A → O) (l : List A) (x : A) : List A := l.filter fun a => key a ≤ key x

/-- A row with few enough rows up to it is on every first page. -/
theorem mem_of_upTo_le (hx : x ∈ l) (hle : (upTo key l x).length ≤ n) (h : FirstPage key n l page) :
    x ∈ page := by
  obtain ⟨sorted, hperm, hsorted, rfl⟩ := h
  obtain ⟨before, after, rfl⟩ := append_of_mem (hperm.symm.subset hx)
  have hbefore : ∀ a ∈ before, key a ≤ key x := fun a ha =>
    (pairwise_append.mp hsorted).2.2 a ha x mem_cons_self
  have hkept : (before ++ [x]).filter (fun a => key a ≤ key x) = before ++ [x] := by
    refine filter_eq_self.mpr fun a ha => decide_eq_true ?_
    rcases mem_append.mp ha with ha | ha
    · exact hbefore a ha
    · rw [mem_singleton.mp ha]
  have hsub : (before ++ [x]).Sublist (upTo key (before ++ x :: after) x) := by
    rw [← hkept, upTo]
    refine List.Sublist.filter _ ?_
    exact (List.Sublist.refl before).append (singleton_sublist.mpr mem_cons_self)
  have hlength : before.length + 1 ≤ n := by
    calc
      before.length + 1 = (before ++ [x]).length := by rw [length_append, length_singleton]
      _ ≤ (upTo key (before ++ x :: after) x).length := hsub.length_le
      _ = (upTo key l x).length := (hperm.filter _).length_eq
      _ ≤ n := hle
  rw [take_append, mem_append]
  right
  rw [take_cons (by omega)]
  exact mem_cons_self

/-- A row with more rows up to it is missing from the page on which it comes last of them. -/
theorem exists_page_not_mem (hnodup : l.Nodup) (hx : x ∈ l) (hlt : n < (upTo key l x).length) :
    ∃ page, FirstPage key n l page ∧ x ∉ page := by
  classical
  obtain ⟨front, back, hsplit⟩ := append_of_mem
    (show x ∈ upTo key l x from mem_filter.mpr ⟨hx, decide_eq_true (le_refl (key x))⟩)
  let low := sortBy key (front ++ back)
  let high := sortBy key (l.filter fun a => !decide (key a ≤ key x))
  have hlow : low.Perm (front ++ back) := sortBy_perm key _
  have hhigh : high.Perm (l.filter fun a => !decide (key a ≤ key x)) := sortBy_perm key _
  have hupTo : (front ++ x :: back).Perm (upTo key l x) := List.Perm.of_eq hsplit.symm
  have hperm : (low ++ x :: high).Perm l := by
    calc
      (low ++ x :: high).Perm (x :: (low ++ high)) := perm_middle
      _ = (x :: low) ++ high := rfl
      (x :: low ++ high).Perm ((x :: (front ++ back)) ++ l.filter fun a => !decide (key a ≤ key x)) :=
        (hlow.cons x).append hhigh
      Perm _ (upTo key l x ++ l.filter fun a => !decide (key a ≤ key x)) :=
        (perm_middle.symm.trans hupTo).append_right _
      Perm _ l := by
        exact filter_append_perm (fun a => decide (key a ≤ key x)) l
  have hlowle : ∀ a ∈ low, key a ≤ key x := by
    intro a ha
    have hmem : a ∈ upTo key l x := by
      rw [hsplit]
      rcases mem_append.mp (hlow.subset ha) with ha | ha
      · exact mem_append_left _ ha
      · exact mem_append_right _ (mem_cons_of_mem x ha)
    exact of_decide_eq_true (mem_filter.mp hmem).2
  have hhighle : ∀ a ∈ high, key x ≤ key a := by
    intro a ha
    have hnot := (mem_filter.mp (hhigh.subset ha)).2
    rw [Bool.not_eq_true', decide_eq_false_iff_not] at hnot
    exact le_of_not_ge hnot
  have hlength : n ≤ low.length := by
    have hupto : (upTo key l x).length = front.length + (back.length + 1) := by
      rw [hsplit, length_append, length_cons]
    have hlows : low.length = front.length + back.length := by
      rw [hlow.length_eq, length_append]
    omega
  refine ⟨(low ++ x :: high).take n, ⟨low ++ x :: high, hperm, ?_, rfl⟩, ?_⟩
  · refine pairwise_append.mpr ⟨sortBy_pairwise key _, pairwise_cons.mpr
      ⟨hhighle, sortBy_pairwise key _⟩, fun a ha b hb => ?_⟩
    rcases mem_cons.mp hb with rfl | hb
    · exact hlowle a ha
    · exact (hlowle a ha).trans (hhighle b hb)
  · -- the rows before it fill the page
    rw [take_append_of_le_length hlength]
    intro hmem
    have hnodup' : (low ++ x :: high).Nodup := hperm.nodup_iff.mpr hnodup
    exact (nodup_append.mp hnodup').2.2 x (mem_of_mem_take hmem) x mem_cons_self rfl

/-- A row is on the first page, whatever the database makes of equal keys, if and only if no more than `n`
rows may come up to it. -/
theorem mem_every_page_iff (hnodup : l.Nodup) (hx : x ∈ l) :
    (∀ page, FirstPage key n l page → x ∈ page) ↔ (upTo key l x).length ≤ n := by
  constructor
  · intro h
    by_contra hlt
    obtain ⟨page, hpage, hnot⟩ := exists_page_not_mem hnodup hx (Nat.lt_of_not_le hlt)
    exact hnot (h page hpage)
  · exact fun hle page => mem_of_upTo_le hx hle

end Soter.FirstPages
