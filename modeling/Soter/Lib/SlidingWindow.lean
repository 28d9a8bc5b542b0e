import Mathlib.Algebra.Order.Group.Basic
import Mathlib.Data.List.Induction

/-! Instants in their order, how many of them lie in a window, and a limit on that number for every window of one
length. -/
namespace Soter.SlidingWindow

open List

variable {K : Type*} [AddCommGroup K] [LinearOrder K]
variable {times records : List K} {window now now' start : K} {limit : ℕ}

/-- How many of the instants lie in `(a, b]`. -/
def countIn (times : List K) (a b : K) : ℕ := times.countP fun x => a < x ∧ x ≤ b

/-- Instants of which any two are less than `window` apart are no more than `limit`. -/
def Bounded (limit : ℕ) (window : K) (times : List K) : Prop :=
  ∀ P : K → Bool, (∀ x y, P x = true → P y = true → x - y < window) → times.countP P ≤ limit

/-- What is left when the instants up to `start` are taken off at the front. -/
def prune (start : K) (times : List K) : List K := times.dropWhile (· ≤ start)

/-- The records are the instants after some cutoff that the window has left behind. -/
def Kept (window now : K) (records times : List K) : Prop :=
  ∃ cutoff, cutoff + window ≤ now ∧ records = times.filter (cutoff < ·)

section Pruning

omit [AddCommGroup K] in
theorem prune_eq_filter (h : times.Pairwise (· ≤ ·)) : prune start times = times.filter (start < ·) := by
  induction times with
  | nil => rfl
  | cons x times ih =>
    obtain ⟨hfirst, hrest⟩ := pairwise_cons.mp h
    rw [prune, dropWhile_cons, filter_cons]
    by_cases hx : x ≤ start
    · rw [if_pos (decide_eq_true hx), if_neg (by simpa using hx)]
      exact ih hrest
    · have hall : times.filter (start < ·) = times := by
        apply filter_eq_self.mpr
        intro y hy
        exact decide_eq_true (lt_of_lt_of_le (not_le.mp hx) (hfirst y hy))
      rw [if_neg (by simpa using hx), if_pos (decide_eq_true (not_le.mp hx)), hall]

theorem Kept.mono (h : Kept window now records times) (hnow : now ≤ now') : Kept window now' records times := by
  obtain ⟨cutoff, hcutoff, heq⟩ := h
  exact ⟨cutoff, hcutoff.trans hnow, heq⟩

theorem Kept.of_filter (now window : K) (times : List K) :
    Kept window now (times.filter (now - window < ·)) times := by
  refine ⟨now - window, ?_, rfl⟩
  rw [sub_add_cancel]

variable [IsOrderedAddMonoid K]

theorem Kept.prune (h : Kept window now records times) (hsorted : times.Pairwise (· ≤ ·)) (hnow : now ≤ now') :
    prune (now' - window) records = times.filter (now' - window < ·) := by
  obtain ⟨cutoff, hcutoff, rfl⟩ := h
  have hle : cutoff ≤ now' - window := le_sub_iff_add_le.mpr (hcutoff.trans hnow)
  rw [prune_eq_filter (hsorted.filter _), filter_filter]
  apply filter_congr
  intro x _
  apply Bool.eq_iff_iff.mpr
  simp only [Bool.and_eq_true, decide_eq_true_eq]
  exact ⟨fun hx => hx.1, fun hx => ⟨hx, lt_of_le_of_lt hle hx⟩⟩

theorem Kept.snoc (now : K) (hwindow : 0 < window) (times : List K) :
    Kept window now (times.filter (now - window < ·) ++ [now]) (times ++ [now]) := by
  refine ⟨now - window, ?_, ?_⟩
  · rw [sub_add_cancel]
  · have hlast : decide (now - window < now) = true := decide_eq_true (sub_lt_self now hwindow)
    rw [filter_append, filter_cons, if_pos hlast, filter_nil]

omit [AddCommGroup K] in
theorem length_filter_eq_countIn (hpast : ∀ x ∈ times, x ≤ now) :
    (times.filter (start < ·)).length = countIn times start now := by
  rw [countIn, countP_eq_length_filter]
  congr 1
  apply filter_congr
  intro x hx
  have hle := hpast x hx
  simp [hle]

omit [AddCommGroup K] in
theorem countIn_snoc_self (hstart : start < now) : countIn (times ++ [now]) start now = countIn times start now + 1 := by
  rw [countIn, countP_append, countP_singleton, if_pos]
  · rfl
  · simpa using hstart

theorem Bounded.nil : Bounded limit window ([] : List K) := fun _ _ => Nat.zero_le limit

theorem Bounded.perm {times' : List K} (h : Bounded limit window times) (hperm : times.Perm times') :
    Bounded limit window times' := by
  intro P hnear
  rw [← hperm.countP_eq]
  exact h P hnear


theorem Bounded.cons (h : Bounded limit window times) (hroom : times.countP (now - window < ·) < limit) :
    Bounded limit window (now :: times) := by
  intro P hnear
  rw [countP_cons]
  by_cases hP : P now = true
  · have hle : times.countP P ≤ times.countP (now - window < ·) := by
      apply countP_mono_left
      intro x hx hPx
      exact decide_eq_true (sub_lt_comm.mp (hnear now x hP hPx))
    rw [if_pos hP]
    omega
  · have hle := h P hnear
    rw [if_neg hP]
    omega

theorem Bounded.snoc (h : Bounded limit window times) (hpast : ∀ x ∈ times, x ≤ now)
    (hroom : countIn times (now - window) now < limit) : Bounded limit window (times ++ [now]) := by
  have hcount : times.countP (now - window < ·) = countIn times (now - window) now := by
    rw [← length_filter_eq_countIn hpast, countP_eq_length_filter]
  have hcons : Bounded limit window (now :: times) := h.cons (by rw [hcount]; exact hroom)
  exact hcons.perm (perm_append_singleton now times).symm

theorem Bounded.countIn_le (h : Bounded limit window times) {a b : K} (hlength : b - a ≤ window) :
    countIn times a b ≤ limit := by
  apply h
  intro x y hx hy
  simp only [decide_eq_true_eq] at hx hy
  calc
    x - y ≤ b - y := sub_le_sub_right hx.2 y
    _ < b - a := sub_lt_sub_left hy.1 b
    _ ≤ window := hlength

end Pruning
section Greedy

/-- One more request, which is admitted if the window that it ends has room. -/
def admitNext (limit : ℕ) (window : K) (admitted : List K) (now : K) : List K :=
  if countIn admitted (now - window) now < limit then admitted ++ [now] else admitted

def admitAll (limit : ℕ) (window : K) (requests : List K) : List K := requests.foldl (admitNext limit window) []

variable {requests chosen : List K} {x : K}

theorem admitAll_snoc : admitAll limit window (requests ++ [x]) = admitNext limit window (admitAll limit window requests) x := by
  rw [admitAll, foldl_append]
  rfl

theorem mem_of_mem_admitAll (h : x ∈ admitAll limit window requests) : x ∈ requests := by
  induction requests using reverseRecOn with
  | nil => exact h
  | append_singleton requests y ih =>
    rw [admitAll_snoc, admitNext] at h
    split at h
    · rcases mem_append.mp h with h | h
      · exact mem_append_left _ (ih h)
      · exact mem_append_right _ h
    · exact mem_append_left _ (ih h)

theorem Bounded.sublist (h : Bounded limit window times) (hsub : chosen.Sublist times) :
    Bounded limit window chosen := fun P hnear => hsub.countP_le.trans (h P hnear)

variable [IsOrderedAddMonoid K]

/-- Between an instant and the one `limit` places after it lies a whole window. -/
theorem Bounded.le_sub (h : Bounded limit window (chosen ++ [x])) (hsorted : (chosen ++ [x]).Pairwise (· ≤ ·)) {j : ℕ}
    {y : K} (hy : chosen[j]? = some y) (hj : j + limit ≤ chosen.length) : y ≤ x - window := by
  by_contra hlate
  have hlate : x - window < y := not_le.mp hlate
  obtain ⟨hlt, hget⟩ := List.getElem?_eq_some_iff.mp hy
  obtain ⟨hchosen, -, hlast⟩ := List.pairwise_append.mp hsorted
  have hfrom : ∀ z ∈ chosen.drop j, y ≤ z := by
    intro z hz
    have hcut : chosen.drop j = y :: chosen.drop (j + 1) := by
      rw [← hget, drop_eq_getElem_cons hlt]
    have hdrop := hchosen.sublist (drop_sublist j chosen)
    rw [hcut] at hdrop hz
    rcases mem_cons.mp hz with rfl | hz
    · exact le_refl _
    · exact (pairwise_cons.mp hdrop).1 z hz
  have hupto : ∀ z ∈ chosen, z ≤ x := fun z hz => hlast z hz x (mem_singleton_self x)
  -- All of these lie within one window.
  have hcount := h (fun z => y ≤ z ∧ z ≤ x) (by
    intro z w hz hw
    simp only [decide_eq_true_eq] at hz hw
    calc
      z - w ≤ x - y := sub_le_sub hz.2 hw.1
      _ < window := sub_lt_comm.mp hlate)
  have hall : (chosen.drop j ++ [x]).countP (fun z => y ≤ z ∧ z ≤ x) = (chosen.drop j ++ [x]).length := by
    apply countP_eq_length.mpr
    intro z hz
    rcases mem_append.mp hz with hz | hz
    · exact decide_eq_true ⟨hfrom z hz, hupto z (mem_of_mem_drop hz)⟩
    · rw [mem_singleton.mp hz]
      exact decide_eq_true ⟨hupto y (mem_of_getElem? hy), le_refl x⟩
  have hsub : (chosen.drop j ++ [x]).Sublist (chosen ++ [x]) := (drop_sublist j chosen).append (List.Sublist.refl _)
  have hle := hsub.countP_le (p := fun z => decide (y ≤ z ∧ z ≤ x))
  rw [hall, length_append, length_drop, length_singleton] at hle
  omega

/-- What is admitted stays ahead of every bounded choice among the requests, and so is at least as long. -/
theorem Bounded.admitAll_le (hwindow : 0 < window) (hrequests : requests.Pairwise (· ≤ ·))
    (hchosen : chosen.Sublist requests) (h : Bounded limit window chosen) :
    ∀ (i : ℕ) (c : K), chosen[i]? = some c → ∃ g, (admitAll limit window requests)[i]? = some g ∧ g ≤ c := by
  induction requests using reverseRecOn generalizing chosen with
  | nil =>
    intro i c hc
    rw [sublist_nil.mp hchosen] at hc
    cases hc
  | append_singleton requests x ih =>
    obtain ⟨hbefore, -, hlast⟩ := pairwise_append.mp hrequests
    have hkeeps : ∀ (i : ℕ) (g : K), (admitAll limit window requests)[i]? = some g →
        (admitAll limit window (requests ++ [x]))[i]? = some g := by
      intro i g hg
      rw [admitAll_snoc, admitNext]
      split
      · rw [List.getElem?_append_left (List.getElem?_eq_some_iff.mp hg).1, hg]
      · exact hg
    obtain ⟨before, last, rfl, hsub, hend⟩ := sublist_append_iff.mp hchosen
    have hahead : ∀ (i : ℕ) (c : K), before[i]? = some c →
        ∃ g, (admitAll limit window (requests ++ [x]))[i]? = some g ∧ g ≤ c := by
      intro i c hc
      obtain ⟨g, hg, hle⟩ := ih hbefore hsub (h.sublist (sublist_append_left _ _)) i c hc
      exact ⟨g, hkeeps i g hg, hle⟩
    have hend : last = [] ∨ last = [x] := by
      rcases sublist_cons_iff.mp hend with hnil | ⟨rest, rfl, hnil⟩
      · exact .inl (sublist_nil.mp hnil)
      · exact .inr (by rw [sublist_nil.mp hnil])
    rcases hend with rfl | rfl
    · rw [append_nil]
      exact hahead
    · intro i c hc
      by_cases hi : i < before.length
      · rw [getElem?_append_left hi] at hc
        exact hahead i c hc
      · rw [getElem?_append_right (not_lt.mp hi), getElem?_singleton] at hc
        have hc : i = before.length ∧ x = c := by
          split at hc
          · exact ⟨by omega, Option.some.inj hc⟩
          · cases hc
        obtain ⟨rfl, rfl⟩ := hc
        have hsorted : (before ++ [x]).Pairwise (· ≤ ·) := hrequests.sublist hchosen
        by_cases hmore : before.length < (admitAll limit window requests).length
        · refine ⟨_, hkeeps _ _ (getElem?_eq_getElem hmore), ?_⟩
          exact hlast _ (mem_of_mem_admitAll (getElem_mem hmore)) x (mem_singleton_self x)
        · -- As many have been admitted as chosen, and of these all but the last `limit - 1` are a window old.
          have hlength : (admitAll limit window requests).length = before.length := by
            have hle : before.length ≤ (admitAll limit window requests).length := by
              by_contra hlt
              have hlt : (admitAll limit window requests).length < before.length := by omega
              obtain ⟨g, hg, -⟩ := ih hbefore hsub (h.sublist (sublist_append_left _ _)) _ _ (getElem?_eq_getElem hlt)
              have hout := (List.getElem?_eq_some_iff.mp hg).1
              omega
            omega
          have hone : 1 ≤ limit := by
            have hcount := h (fun z => z = x) (by
              intro z w hz hw
              rw [of_decide_eq_true hz, of_decide_eq_true hw, sub_self]
              exact hwindow)
            rw [countP_append, countP_singleton, if_pos (decide_eq_true rfl)] at hcount
            omega
          have hroom : countIn (admitAll limit window requests) (x - window) x < limit := by
            have hold : ∀ g ∈ (admitAll limit window requests).take (before.length + 1 - limit), g ≤ x - window := by
              intro g hg
              obtain ⟨j, hj, hget⟩ := mem_take_iff_getElem.mp hg
              have hjlt : j < before.length := by omega
              obtain ⟨g', hg', hle⟩ := ih hbefore hsub (h.sublist (sublist_append_left _ _)) j _ (getElem?_eq_getElem hjlt)
              have hsame : g = g' := by
                rw [getElem?_eq_getElem (by omega), Option.some.injEq] at hg'
                rw [← hget, hg']
              rw [hsame]
              exact hle.trans (h.le_sub hsorted (getElem?_eq_getElem hjlt) (by omega))
            have hnone : countIn ((admitAll limit window requests).take (before.length + 1 - limit)) (x - window) x = 0 := by
              apply countP_eq_zero.mpr
              intro g hg hin
              exact absurd (of_decide_eq_true hin).1 (not_lt.mpr (hold g hg))
            have hrest := countP_le_length (p := fun z => decide (x - window < z ∧ z ≤ x))
              (l := (admitAll limit window requests).drop (before.length + 1 - limit))
            rw [length_drop] at hrest
            rw [← take_append_drop (before.length + 1 - limit) (admitAll limit window requests), countIn, countP_append]
            unfold countIn at hnone
            omega
          refine ⟨x, ?_, le_refl x⟩
          rw [admitAll_snoc, admitNext, if_pos hroom, ← hlength, getElem?_append_right (le_refl _), Nat.sub_self]
          rfl

theorem Bounded.length_le_admitAll (hwindow : 0 < window) (hrequests : requests.Pairwise (· ≤ ·))
    (hchosen : chosen.Sublist requests) (h : Bounded limit window chosen) :
    chosen.length ≤ (admitAll limit window requests).length := by
  by_contra hlt
  have hlt : (admitAll limit window requests).length < chosen.length := by omega
  obtain ⟨g, hg, -⟩ := h.admitAll_le hwindow hrequests hchosen _ _ (getElem?_eq_getElem hlt)
  have hout := (List.getElem?_eq_some_iff.mp hg).1
  omega

end Greedy
end Soter.SlidingWindow
