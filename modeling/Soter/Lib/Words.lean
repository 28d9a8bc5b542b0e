import Mathlib.Data.List.TakeWhile

/-! Texts as words between spaces: what the runs of spaces come to when each is replaced by one blank, and what is left
when the ends are trimmed. -/
namespace Soter.Words

open List

variable {α : Type}

section Trim
variable {p : α → Bool} {xs : List α}

/-- Without the elements at both ends for which `p` holds. -/
def trim (p : α → Bool) (xs : List α) : List α := ((xs.dropWhile p).reverse.dropWhile p).reverse

variable {before after rest : List α} {a : α}

theorem dropWhile_append_of_mem (h : ∃ b ∈ before, p b = false) :
    (before ++ after).dropWhile p = before.dropWhile p ++ after := by
  have hne : before.dropWhile p ≠ [] := by
    obtain ⟨b, hb, hpb⟩ := h
    intro hnil
    have hall := dropWhile_eq_nil_iff.mp hnil b hb
    rw [hpb] at hall
    cases hall
  rw [dropWhile_append, if_neg]
  rwa [List.isEmpty_iff]

theorem trim_sublist : (trim p xs).Sublist xs := by
  have hright := (dropWhile_sublist p (l := (xs.dropWhile p).reverse)).reverse
  rw [reverse_reverse] at hright
  exact hright.trans (dropWhile_sublist p)

theorem trim_eq_self (h : ∀ x ∈ xs, p x = false) : trim p xs = xs := by
  have hdrop : ∀ ys : List α, (∀ y ∈ ys, p y = false) → ys.dropWhile p = ys := by
    intro ys hys
    cases ys with
    | nil => rfl
    | cons y ys => rw [dropWhile_cons, hys y mem_cons_self, if_neg Bool.false_ne_true]
  rw [trim, hdrop xs h, hdrop, reverse_reverse]
  intro y hy
  exact h y (mem_reverse.mp hy)

theorem filter_trim : (trim p xs).filter (fun x => !p x) = xs.filter fun x => !p x := by
  have hdrop : ∀ ys : List α, (ys.dropWhile p).filter (fun x => !p x) = ys.filter fun x => !p x := by
    intro ys
    induction ys with
    | nil => rfl
    | cons y ys ih =>
      rw [dropWhile_cons]
      split
      · rename_i hy
        rw [ih, filter_cons, hy, Bool.not_true, if_neg Bool.false_ne_true]
      · rfl
  rw [trim, filter_reverse, hdrop, filter_reverse, reverse_reverse, hdrop]

theorem trim_split (hbefore : ∃ b ∈ before, p b = false) (hafter : ∃ b ∈ after, p b = false) :
    ∃ left right, trim p (before ++ a :: after) = left ++ a :: right := by
  refine ⟨before.dropWhile p, (after.reverse.dropWhile p).reverse, ?_⟩
  have hright : ∃ b ∈ after.reverse, p b = false := by
    obtain ⟨b, hb, hpb⟩ := hafter
    exact ⟨b, mem_reverse.mpr hb, hpb⟩
  rw [trim, dropWhile_append_of_mem hbefore, reverse_append, reverse_cons, append_assoc,
    dropWhile_append_of_mem hright, reverse_append, reverse_append, reverse_reverse, append_assoc]
  rfl

theorem trim_append (p : α → Bool) (xs : List α) :
    trim p xs ++ ((xs.dropWhile p).reverse.takeWhile p).reverse = xs.dropWhile p := by
  rw [trim, ← reverse_append, takeWhile_append_dropWhile, reverse_reverse]

theorem trim_infix (p : α → Bool) (xs : List α) : ∃ left right, xs = left ++ trim p xs ++ right := by
  refine ⟨xs.takeWhile p, ((xs.dropWhile p).reverse.takeWhile p).reverse, ?_⟩
  rw [append_assoc, trim_append]
  exact takeWhile_append_dropWhile.symm

theorem dropWhile_head (h : xs.dropWhile p = a :: rest) : p a = false := by
  have hhead := head?_dropWhile_not p xs
  rw [h] at hhead
  exact hhead

theorem trim_last (h : trim p xs = rest ++ [a]) : p a = false := by
  have hreversed : (xs.dropWhile p).reverse.dropWhile p = a :: rest.reverse := by
    rw [← reverse_reverse ((xs.dropWhile p).reverse.dropWhile p), ← trim, h, reverse_append]
    rfl
  exact dropWhile_head hreversed

theorem trim_head (h : trim p xs = a :: rest) : p a = false := by
  have hkept := trim_append p xs
  rw [h] at hkept
  exact dropWhile_head hkept.symm

/-- An element that trimming leaves behind stands between two that are not trimmed. -/
theorem exists_mem_trim_iff : (∃ a ∈ trim p xs, p a = true) ↔ ∃ before a after, xs = before ++ a :: after ∧
    p a = true ∧ (∃ b ∈ before, p b = false) ∧ ∃ b ∈ after, p b = false := by
  constructor
  · rintro ⟨a, ha, hpa⟩
    obtain ⟨u, v, huv⟩ := append_of_mem ha
    obtain ⟨left, right, hxs⟩ := trim_infix p xs
    refine ⟨left ++ u, a, v ++ right, ?_, hpa, ?_, ?_⟩
    · calc
        xs = left ++ trim p xs ++ right := hxs
        _ = left ++ u ++ a :: (v ++ right) := by rw [huv]; simp only [append_assoc, cons_append]
    · cases u with
      | nil =>
        rw [trim_head huv] at hpa
        cases hpa
      | cons b u => exact ⟨b, mem_append_right left mem_cons_self, trim_head huv⟩
    · rcases eq_nil_or_concat v with rfl | ⟨v, b, rfl⟩
      · rw [trim_last huv] at hpa
        cases hpa
      · refine ⟨b, mem_append_left right (by simp), ?_⟩
        have hlast : trim p xs = (u ++ a :: v) ++ [b] := by
          rw [huv]
          simp only [concat_eq_append, append_assoc, cons_append]
        exact trim_last hlast
  · rintro ⟨before, a, after, rfl, hpa, hbefore, hafter⟩
    obtain ⟨left, right, hsplit⟩ := trim_split hbefore hafter
    refine ⟨a, ?_, hpa⟩
    rw [hsplit]
    exact mem_append_right left mem_cons_self

end Trim
variable {x y : List α} {c : α}
section Words
variable {p : α → Bool}

def words (p : α → Bool) (t : List α) : List (List α) := (t.splitOnP p).filter fun w => !w.isEmpty

variable {w t : List α} {g : α → Option α}

theorem words_append_cons (x y : List α) (hc : p c = true) : words p (x ++ c :: y) = words p x ++ words p y := by
  rw [words, splitOnP_append_cons x y hc, filter_append]
  rfl

theorem words_cons (y : List α) (hc : p c = true) : words p (c :: y) = words p y :=
  words_append_cons [] y hc

theorem words_word (hx : ∀ c ∈ x, p c = false) (hne : x ≠ []) : words p x = [x] := by
  rw [words, splitOnP_eq_singleton hx, filter_cons]
  cases x with
  | nil => exact absurd rfl hne
  | cons c x => rfl

theorem words_spaces (hw : ∀ c ∈ w, p c = true) (y : List α) : words p (w ++ y) = words p y := by
  induction w with
  | nil => rfl
  | cons c w ih =>
    rw [cons_append, words_cons _ (hw c mem_cons_self)]
    exact ih fun d hd => hw d (mem_cons_of_mem c hd)

theorem words_run (hw : ∀ c ∈ w, p c = true) (hne : w ≠ []) (x y : List α) :
    words p (x ++ w ++ y) = words p x ++ words p y := by
  cases w with
  | nil => exact absurd rfl hne
  | cons c w =>
    rw [append_assoc, cons_append, words_append_cons x _ (hw c mem_cons_self),
      words_spaces fun d hd => hw d (mem_cons_of_mem c hd)]

theorem mem_splitOnP (p : α → Bool) : ∀ (t w : List α), w ∈ t.splitOnP p → ∀ c ∈ w, p c = false
  | [], w, hw, c, hc => by
    rw [splitOnP_nil, mem_singleton] at hw
    rw [hw] at hc
    cases hc
  | d :: t, w, hw, c, hc => by
    have ih := mem_splitOnP p t
    rw [splitOnP_cons_eq_if_modifyHead] at hw
    split at hw
    · rcases mem_cons.mp hw with rfl | hw
      · cases hc
      · exact ih w hw c hc
    · rename_i hd
      cases hparts : t.splitOnP p with
      | nil =>
        rw [hparts] at hw
        cases hw
      | cons first rest =>
        rw [hparts] at hw ih
        rcases mem_cons.mp hw with rfl | hw
        · rcases mem_cons.mp hc with rfl | hc
          · exact Bool.eq_false_iff.mpr hd
          · exact ih first mem_cons_self c hc
        · exact ih w (mem_cons_of_mem first hw) c hc

theorem mem_words (hw : w ∈ words p t) : ∀ c ∈ w, p c = false :=
  mem_splitOnP p t w (mem_filter.mp hw).1

theorem ne_nil_of_mem_words (hw : w ∈ words p t) : w.isEmpty = false := by
  have hne := (mem_filter.mp hw).2
  rwa [Bool.not_eq_true'] at hne

/-- The words of a text whose characters are exchanged or left out, as long as the spaces stay spaces. -/
theorem splitOnP_filterMap (hspace : ∀ c, p c = true → ∃ d, g c = some d ∧ p d = true)
    (hword : ∀ c d, p c = false → g c = some d → p d = false) :
    ∀ t : List α, (t.filterMap g).splitOnP p = (t.splitOnP p).map fun w => w.filterMap g
  | [] => rfl
  | c :: t => by
    have ih := splitOnP_filterMap hspace hword t
    rw [splitOnP_cons_eq_if_modifyHead]
    cases hc : p c with
    | true =>
      obtain ⟨d, hd, hpd⟩ := hspace c hc
      rw [filterMap_cons_some hd, splitOnP_cons_eq_if_modifyHead, if_pos hpd, ih]
      rfl
    | false =>
      rw [if_neg Bool.false_ne_true]
      have hne : t.splitOnP p ≠ [] := splitOnP_ne_nil p t
      cases hparts : t.splitOnP p with
      | nil => exact absurd hparts hne
      | cons first rest =>
        rw [hparts] at ih
        cases hg : g c with
        | none =>
          rw [filterMap_cons_none hg, ih]
          change _ = (c :: first).filterMap g :: _
          rw [filterMap_cons_none hg]
          rfl
        | some d =>
          have hd : ¬ p d = true := Bool.eq_false_iff.mp (hword c d hc hg)
          rw [filterMap_cons_some hg, splitOnP_cons_eq_if_modifyHead, if_neg hd, ih]
          change _ = (c :: first).filterMap g :: _
          rw [filterMap_cons_some hg]
          rfl

theorem words_filterMap (hspace : ∀ c, p c = true → ∃ d, g c = some d ∧ p d = true)
    (hword : ∀ c d, p c = false → g c = some d → p d = false) (t : List α) :
    words p (t.filterMap g) = ((words p t).map fun w => w.filterMap g).filter fun w => !w.isEmpty := by
  rw [words, splitOnP_filterMap hspace hword, words]
  induction t.splitOnP p with
  | nil => rfl
  | cons w ws ih =>
    cases w with
    | nil => exact ih
    | cons c w =>
      have hkept : (((c :: w) :: ws).filter fun w => !w.isEmpty) = (c :: w) :: ws.filter fun w => !w.isEmpty := rfl
      rw [hkept, map_cons, map_cons, filter_cons, filter_cons, ih]

end Words
section Blanks
variable {p keep : α → Bool} {blank : α} {ws : List (List α)}

theorem intercalate_concat (h : ws ≠ []) (w : List α) :
    [blank].intercalate (ws ++ [w]) = [blank].intercalate ws ++ blank :: w := by
  induction ws with
  | nil => exact absurd rfl h
  | cons v vs ih =>
    cases vs with
    | nil =>
      rw [cons_append, nil_append, intercalate_cons_cons, intercalate_singleton, intercalate_singleton]
      simp only [append_assoc, cons_append, nil_append]
    | cons u us =>
      rw [cons_append, cons_append, intercalate_cons_cons, intercalate_cons_cons, ← cons_append, ih (cons_ne_nil u us)]
      simp only [append_assoc]

theorem reverse_intercalate (blank : α) (ws : List (List α)) :
    ([blank].intercalate ws).reverse = [blank].intercalate (ws.map reverse).reverse := by
  induction ws with
  | nil => rfl
  | cons v vs ih =>
    cases vs with
    | nil =>
      rw [intercalate_singleton, map_cons, map_nil, reverse_singleton, intercalate_singleton]
    | cons u us =>
      have hne : ((u :: us).map reverse).reverse ≠ [] := by
        rw [map_cons, reverse_cons]
        exact append_ne_nil_of_right_ne_nil _ (cons_ne_nil _ _)
      rw [intercalate_cons_cons, map_cons, reverse_cons, intercalate_concat hne, ← ih]
      simp only [reverse_append, reverse_cons, append_assoc, cons_append, nil_append]

theorem filter_intercalate (hblank : keep blank = true) (ws : List (List α)) :
    ([blank].intercalate ws).filter keep = [blank].intercalate (ws.map fun w => w.filter keep) := by
  induction ws with
  | nil => rfl
  | cons v vs ih =>
    cases vs with
    | nil =>
      rw [map_cons, map_nil, intercalate_singleton, intercalate_singleton]
    | cons u us =>
      have hone : [blank].filter keep = [blank] := by
        rw [filter_cons, hblank, if_pos rfl]
        rfl
      rw [intercalate_cons_cons, filter_append, filter_append, ih, hone]
      exact intercalate_cons_cons.symm

theorem splitOnP_intercalate (hblank : p blank = true) (hne : ws ≠ []) (hws : ∀ w ∈ ws, ∀ c ∈ w, p c = false) :
    ([blank].intercalate ws).splitOnP p = ws := by
  induction ws with
  | nil => exact absurd rfl hne
  | cons v vs ih =>
    have hv := hws v mem_cons_self
    cases vs with
    | nil => rw [intercalate_singleton, splitOnP_eq_singleton hv]
    | cons u us =>
      have hrest := ih (cons_ne_nil u us) fun w hw => hws w (mem_cons_of_mem v hw)
      rw [intercalate_cons_cons, append_assoc, singleton_append, splitOnP_append_cons_of_forall_mem hv blank hblank, hrest]

theorem words_intercalate (hblank : p blank = true) (hws : ∀ w ∈ ws, ∀ c ∈ w, p c = false) :
    words p ([blank].intercalate ws) = ws.filter fun w => !w.isEmpty := by
  cases ws with
  | nil => rfl
  | cons v vs => rw [words, splitOnP_intercalate hblank (cons_ne_nil v vs) hws]

theorem dropWhile_intercalate (hblank : p blank = true) (hws : ∀ w ∈ ws, ∀ c ∈ w, p c = false) :
    ([blank].intercalate ws).dropWhile p = [blank].intercalate (ws.dropWhile isEmpty) := by
  induction ws with
  | nil => rfl
  | cons v vs ih =>
    have hrest := ih fun w hw => hws w (mem_cons_of_mem v hw)
    cases v with
    | nil =>
      have hdrop : ([] :: vs).dropWhile isEmpty = vs.dropWhile isEmpty := rfl
      rw [hdrop, ← hrest]
      cases vs with
      | nil => rfl
      | cons u us =>
        rw [intercalate_cons_cons, nil_append, singleton_append, dropWhile_cons, if_pos hblank]
    | cons c v =>
      have hc : ¬ p c = true := Bool.eq_false_iff.mp (hws _ mem_cons_self c mem_cons_self)
      have hstay : ((c :: v) :: vs).dropWhile isEmpty = (c :: v) :: vs := rfl
      rw [hstay]
      cases vs with
      | nil => rw [intercalate_singleton, dropWhile_cons, if_neg hc]
      | cons u us =>
        rw [intercalate_cons_cons, append_assoc, cons_append, dropWhile_cons, if_neg hc]

theorem trim_intercalate (hblank : p blank = true) (hws : ∀ w ∈ ws, ∀ c ∈ w, p c = false) :
    trim p ([blank].intercalate ws) = [blank].intercalate (trim isEmpty ws) := by
  have hreversed : ∀ w ∈ ((ws.dropWhile isEmpty).map reverse).reverse, ∀ c ∈ w, p c = false := by
    intro w hw c hc
    obtain ⟨v, hv, rfl⟩ := mem_map.mp (mem_reverse.mp hw)
    exact hws v ((dropWhile_sublist _).subset hv) c (mem_reverse.mp hc)
  have hempty : (isEmpty ∘ reverse : List α → Bool) = isEmpty := by
    funext w
    exact isEmpty_reverse
  have hid : (reverse ∘ reverse : List α → List α) = id := funext reverse_reverse
  have hflip : ((ws.dropWhile isEmpty).map reverse).reverse = (ws.dropWhile isEmpty).reverse.map reverse := map_reverse.symm
  rw [trim, dropWhile_intercalate hblank hws, reverse_intercalate, dropWhile_intercalate hblank hreversed,
    reverse_intercalate, hflip, dropWhile_map, hempty, map_map, hid, map_id, trim]

end Blanks
section Squeeze
variable (p : α → Bool) (blank : α)

/-- Every run of spaces is replaced by one blank; `inRun` tells whether one has just begun. -/
def squeeze : Bool → List α → List α
  | _, [] => []
  | inRun, c :: t =>
    if p c then (if inRun then squeeze true t else blank :: squeeze true t) else c :: squeeze false t

variable {p blank}

theorem squeeze_word (hx : ∀ c ∈ x, p c = false) (y : List α) :
    squeeze p blank false (x ++ y) = x ++ squeeze p blank false y := by
  induction x with
  | nil => rfl
  | cons c x ih =>
    have hc : ¬ p c = true := Bool.eq_false_iff.mp (hx c mem_cons_self)
    rw [cons_append, squeeze, if_neg hc, ih fun d hd => hx d (mem_cons_of_mem c hd), cons_append]

theorem exists_split (p : α → Bool) (t : List α) : (∀ c ∈ t, p c = false) ∨
    ∃ x c y, t = x ++ c :: y ∧ (∀ d ∈ x, p d = false) ∧ p c = true := by
  induction t with
  | nil => exact .inl fun c hc => by cases hc
  | cons c t ih =>
    cases hc : p c with
    | true => exact .inr ⟨[], c, t, rfl, fun d hd => (by cases hd), hc⟩
    | false =>
      have hhead : ∀ x : List α, (∀ d ∈ x, p d = false) → ∀ d ∈ c :: x, p d = false := by
        intro x hx d hd
        rcases mem_cons.mp hd with rfl | hd
        · exact hc
        · exact hx d hd
      rcases ih with hfree | ⟨x, d, y, rfl, hx, hd⟩
      · exact .inl (hhead t hfree)
      · exact .inr ⟨c :: x, d, y, rfl, hhead x hx, hd⟩

/-- What is squeezed are the words with single blanks between them; a blank is left of spaces at the end. -/
theorem squeeze_inRun (t : List α) : ∃ trail, squeeze p blank true t = [blank].intercalate (words p t) ++ trail ∧
    (trail = [] ∨ trail = [blank] ∧ words p t ≠ []) := by
  -- the induction is on the length: what follows a space is a shorter text
  induction hn : t.length using Nat.strong_induction_on generalizing t with
  | _ n ih =>
    rcases exists_split p t with hfree | ⟨x, c, y, rfl, hx, hc⟩
    · cases t with
      | nil => exact ⟨[], rfl, .inl rfl⟩
      | cons c t =>
        have hc : ¬ p c = true := Bool.eq_false_iff.mp (hfree c mem_cons_self)
        have hrest : squeeze p blank false t = t := by
          have hword : squeeze p blank false (t ++ []) = t ++ squeeze p blank false [] :=
            squeeze_word (fun d hd => hfree d (mem_cons_of_mem c hd)) []
          rwa [append_nil, squeeze, append_nil] at hword
        refine ⟨[], ?_, .inl rfl⟩
        rw [words_word hfree (cons_ne_nil c t), intercalate_singleton, append_nil, squeeze, if_neg hc, hrest]
    · have hlt : y.length < n := by
        rw [← hn, length_append, length_cons]
        omega
      obtain ⟨trail, hy, htrail⟩ := ih y.length hlt y rfl
      cases x with
      | nil =>
        rw [nil_append, words_cons y hc, squeeze, if_pos hc, if_pos rfl]
        exact ⟨trail, hy, htrail⟩
      | cons d x =>
        have hd : ¬ p d = true := Bool.eq_false_iff.mp (hx d mem_cons_self)
        have hwords : words p (d :: x ++ c :: y) = (d :: x) :: words p y := by
          rw [words_append_cons _ y hc, words_word hx (cons_ne_nil d x)]
          rfl
        have hsqueeze : squeeze p blank true (d :: x ++ c :: y) = d :: x ++ blank :: squeeze p blank true y := by
          rw [cons_append, squeeze, if_neg hd, squeeze_word fun e he => hx e (mem_cons_of_mem d he), squeeze, if_pos hc]
          rfl
        rw [hwords, hsqueeze, hy]
        rcases htrail with rfl | ⟨rfl, hne⟩
        · by_cases hne : words p y = []
          · refine ⟨[blank], ?_, .inr ⟨rfl, cons_ne_nil _ _⟩⟩
            rw [hne, intercalate_singleton]
            rfl
          · refine ⟨[], ?_, .inl rfl⟩
            rw [intercalate_cons_of_ne_nil hne]
            simp only [append_assoc, cons_append, nil_append]
        · refine ⟨[blank], ?_, .inr ⟨rfl, cons_ne_nil _ _⟩⟩
          rw [intercalate_cons_of_ne_nil hne]
          simp only [append_assoc, cons_append, nil_append]

theorem trim_spaces {lead trail : List α} (hlead : ∀ c ∈ lead, p c = true) (htrail : ∀ c ∈ trail, p c = true)
    (t : List α) : trim p (lead ++ t ++ trail) = trim p t := by
  have hdrop : ∀ w s : List α, (∀ c ∈ w, p c = true) → (w ++ s).dropWhile p = s.dropWhile p := by
    intro w s hw
    rw [dropWhile_append, if_pos]
    rw [List.isEmpty_iff]
    exact List.dropWhile_eq_nil_iff.mpr hw
  rw [trim, append_assoc, hdrop lead _ hlead, dropWhile_append]
  split
  · rename_i hnone
    rw [List.isEmpty_iff] at hnone
    rw [trim, hnone, List.dropWhile_eq_nil_iff.mpr htrail]
  · rw [reverse_append, hdrop _ _ fun c hc => htrail c (mem_reverse.mp hc), trim]

/-- Squeezed, then cleared of some characters of its words, then trimmed. -/
theorem trim_filter_squeeze {keep : α → Bool} (hblank : p blank = true) (hkeep : keep blank = true) (t : List α) :
    trim p ((squeeze p blank false t).filter keep) =
      [blank].intercalate (trim isEmpty ((words p t).map fun w => w.filter keep)) := by
  have hspace : ∀ l : List α, l = [] ∨ l = [blank] → l.filter keep = l ∧ ∀ c ∈ l, p c = true := by
    intro l hl
    rcases hl with rfl | rfl
    · exact ⟨rfl, fun c hc => by cases hc⟩
    · refine ⟨by rw [filter_cons, hkeep, if_pos rfl]; rfl, fun c hc => ?_⟩
      rw [mem_singleton.mp hc]
      exact hblank
  obtain ⟨lead, hlead, hfirst⟩ : ∃ lead, (lead = [] ∨ lead = [blank]) ∧
      squeeze p blank false t = lead ++ squeeze p blank true t := by
    cases t with
    | nil => exact ⟨[], .inl rfl, rfl⟩
    | cons c t =>
      cases hc : p c with
      | true =>
        refine ⟨[blank], .inr rfl, ?_⟩
        rw [squeeze, squeeze, if_pos hc, if_pos hc, if_pos rfl]
        rfl
      | false =>
        refine ⟨[], .inl rfl, ?_⟩
        rw [squeeze, squeeze, if_neg (Bool.eq_false_iff.mp hc), if_neg (Bool.eq_false_iff.mp hc)]
        rfl
  obtain ⟨trail, hsqueeze, htrail⟩ := @squeeze_inRun α p blank t
  have hfree : ∀ w ∈ (words p t).map fun w => w.filter keep, ∀ c ∈ w, p c = false := by
    intro w hw c hc
    obtain ⟨v, hv, rfl⟩ := mem_map.mp hw
    exact mem_words hv c (mem_filter.mp hc).1
  have hleft := hspace lead hlead
  have hright := hspace trail (htrail.imp_right And.left)
  rw [hfirst, hsqueeze, ← append_assoc, filter_append, filter_append, hleft.1, hright.1,
    trim_spaces hleft.2 hright.2, filter_intercalate hkeep, trim_intercalate hblank hfree]

end Squeeze
end Soter.Words
