import Soter.Privacy.Scrubber

/-! Which characters the masking replaces: those of the spans that the pass keeps, and exactly those of all findings where
the findings can be tiled. -/
namespace Soter.Privacy
open Soter.Spans List

variable {text : List Char} {found : Findings text} {spans : List (PIISpan text)}

def candidates (found : Findings text) : List (PIISpan text) :=
  (spansOf .email found.emails ++ entitySpans found.ents ++ spansOf .date found.dates ++ spansOf .person found.names ++
    spansOf .location found.locations ++ spansOf .phone found.phones ++ spansOf .id found.ids).filter (¬ ·.allowlisted)

def IsCandidate (found : Findings text) (i : ℕ) : Prop := Covered (·.start) (·.stop) (candidates found) i

def Segment.isRedacted (segment : Segment) : Bool := segment.category.isSome

def Segment.render (text : List Char) (segment : Segment) : List Char :=
  match segment.category with
  | none => slice text segment.start segment.stop
  | some base => ("[" ++ base ++ "]").toList

/-- The segments follow each other from `start` to the end of the text. -/
def Consecutive (text : List Char) : ℕ → List Segment → Prop
  | start, [] => start = text.length
  | start, segment :: segments =>
    segment.start = start ∧ start ≤ segment.stop ∧ segment.stop ≤ text.length ∧ Consecutive text segment.stop segments

def Redacted (segments : List Segment) (i : ℕ) : Prop :=
  ∃ segment ∈ segments, segment.isRedacted ∧ segment.start ≤ i ∧ i < segment.stop

/-- The segments of the preview are consecutive, the anonymized text is what they stand for, with as many tokens as the summary
says, and what is redacted are the characters of the candidates. -/
structure MasksExactly (text : List Char) (found : Findings text) : Prop where
  consecutive : Consecutive text 0 (previewRedaction text found).segments
  anonymized : (anonymize text found).anonymizedText = (previewRedaction text found).segments.flatMap (Segment.render text)
  total : (anonymize text found).piiSummary.lookup "total"
    = some ((previewRedaction text found).segments.countP Segment.isRedacted)
  redacted : ∀ i, Redacted (previewRedaction text found).segments i ↔ IsCandidate found i

/-- Some of the spans that are collected do not overlap, are each the longest of those that start at its place, and cover all
candidates. -/
def FoundTiled (found : Findings text) : Prop :=
  Tiled (·.start) (·.stop) ((collected found).filter (¬ ·.allowlisted)) (IsCandidate found)

theorem keyLE_before {s t : PIISpan text} (h : KeyLE s t) : Before (·.start) (·.stop) s t := by
  have hs := s.ordered
  have ht := t.ordered
  rcases h with h | ⟨h, hlen⟩
  · exact .inl h
  · have hstop : t.stop ≤ s.stop := by omega
    exact .inr ⟨h, hstop⟩

instance : Std.Total (@KeyLE text) := ⟨fun s t => by unfold KeyLE; omega⟩

instance : IsTrans (PIISpan text) KeyLE := ⟨fun s t u => by unfold KeyLE; omega⟩

theorem dedupe_covered_iff (spans : List (PIISpan text)) (p : ℕ → Prop)
    (hp : ∀ i, Covered (·.start) (·.stop) (spans.filter (¬ ·.allowlisted)) i → p i) :
    (∀ i, p i → Covered (·.start) (·.stop) (dedupeAndSortSpans spans) i)
      ↔ Tiled (·.start) (·.stop) (spans.filter (¬ ·.allowlisted)) p := by
  have hperm := perm_insertionSort KeyLE (spans.filter (¬ ·.allowlisted))
  have hsorted := (pairwise_insertionSort KeyLE (spans.filter (¬ ·.allowlisted))).imp keyLE_before
  have hiff := keep_covers_iff hsorted (fun s _ => s.ordered) (p := p)
    fun i hi => hp i (hi.mono fun s hs => hperm.mem_iff.mp hs)
  refine hiff.trans ?_
  unfold Tiled
  simp only [hperm.mem_iff]

def Chain (cursor : ℕ) : List (PIISpan text) → Prop
  | [] => True
  | span :: spans => cursor ≤ span.start ∧ Chain span.stop spans

theorem chain_keep : ∀ (cursor : ℕ) (spans : List (PIISpan text)), Chain cursor (keep (·.start) (·.stop) cursor spans)
  | _, [] => trivial
  | cursor, span :: spans => by
    rw [keep]
    split
    · exact chain_keep cursor spans
    · rename_i hstart
      exact ⟨Nat.le_of_not_lt hstart, chain_keep span.stop spans⟩

theorem slice_length (text : List Char) (start : ℕ) : slice text start text.length = text.drop start := by
  rw [slice, take_length]

theorem slice_empty (text : List Char) {start stop : ℕ} (h : stop ≤ start) : slice text start stop = [] := by
  rw [slice, drop_eq_nil_iff, length_take]
  omega

theorem render_gap (text : List Char) (cursor start : ℕ) :
    (if cursor < start then [(⟨cursor, start, none⟩ : Segment)] else []).flatMap (Segment.render text)
      = slice text cursor start := by
  split
  · exact flatMap_singleton ..
  · rename_i h
    exact (slice_empty text (Nat.le_of_not_lt h)).symm

theorem maskFrom_eq (text : List Char) : ∀ (cursor : ℕ) (spans : List (PIISpan text)),
    maskFrom text cursor spans = (previewFrom text cursor spans).flatMap (Segment.render text)
  | cursor, [] => by rw [maskFrom, previewFrom, render_gap, slice_length]
  | cursor, span :: spans => by
    rw [maskFrom, previewFrom, flatMap_append, render_gap, flatMap_cons, maskFrom_eq text span.stop spans, append_assoc]
    rfl

theorem consecutive_previewFrom (text : List Char) : ∀ (cursor : ℕ) (spans : List (PIISpan text)),
    cursor ≤ text.length → Chain cursor spans → Consecutive text cursor (previewFrom text cursor spans)
  | cursor, [], hcursor, _ => by
    rw [previewFrom]
    split
    · exact ⟨rfl, hcursor, Nat.le_refl _, rfl⟩
    · have heq : cursor = text.length := by omega
      exact heq
  | cursor, span :: spans, hcursor, ⟨hstart, hchain⟩ => by
    have hrest := consecutive_previewFrom text span.stop spans span.within hchain
    have hle := span.ordered
    have hwithin := span.within
    rw [previewFrom]
    split
    · have hgap : span.start ≤ text.length := by omega
      exact ⟨rfl, hstart, hgap, rfl, hle, hwithin, hrest⟩
    · have heq : span.start = cursor := by omega
      have hend : cursor ≤ span.stop := by omega
      exact ⟨heq, hend, hwithin, hrest⟩

theorem isRedacted_gap {cursor start : ℕ} {segment : Segment}
    (h : segment ∈ if cursor < start then [(⟨cursor, start, none⟩ : Segment)] else []) : segment.isRedacted = false := by
  split at h
  · rw [mem_singleton.mp h]
    rfl
  · exact absurd h not_mem_nil

theorem redacted_previewFrom (text : List Char) (i : ℕ) : ∀ (cursor : ℕ) (spans : List (PIISpan text)),
    Redacted (previewFrom text cursor spans) i ↔ Covered (·.start) (·.stop) spans i
  | cursor, [] => by
    refine iff_of_false (fun ⟨segment, hmem, hredacted, _⟩ => ?_) fun ⟨_, hmem, _⟩ => not_mem_nil hmem
    rw [isRedacted_gap hmem] at hredacted
    exact Bool.noConfusion hredacted
  | cursor, span :: spans => by
    have hrest := redacted_previewFrom text i span.stop spans
    constructor
    · intro ⟨segment, hmem, hredacted, hin⟩
      rcases mem_append.mp hmem with hmem | hmem
      · rw [isRedacted_gap hmem] at hredacted
        exact Bool.noConfusion hredacted
      rcases mem_cons.mp hmem with rfl | hmem
      · exact ⟨span, mem_cons_self .., hin⟩
      · obtain ⟨s, hs, hsi⟩ := hrest.mp ⟨segment, hmem, hredacted, hin⟩
        exact ⟨s, mem_cons_of_mem _ hs, hsi⟩
    · intro ⟨s, hs, hsi⟩
      rcases mem_cons.mp hs with rfl | hs
      · exact ⟨_, mem_append_right _ (mem_cons_self ..), rfl, hsi⟩
      · obtain ⟨segment, hmem, hin⟩ := hrest.mpr ⟨s, hs, hsi⟩
        exact ⟨segment, mem_append_right _ (mem_cons_of_mem _ hmem), hin⟩

theorem countP_previewFrom (text : List Char) : ∀ (cursor : ℕ) (spans : List (PIISpan text)),
    (previewFrom text cursor spans).countP Segment.isRedacted = spans.length
  | cursor, [] =>
    countP_eq_zero.mpr fun segment hmem => by rw [isRedacted_gap hmem]; exact Bool.false_ne_true
  | cursor, span :: spans => by
    have hgap : (if cursor < span.start then [(⟨cursor, span.start, none⟩ : Segment)] else []).countP Segment.isRedacted
        = 0 := countP_eq_zero.mpr fun segment hmem => by rw [isRedacted_gap hmem]; exact Bool.false_ne_true
    rw [previewFrom, countP_append, hgap, countP_cons_of_pos rfl, countP_previewFrom text span.stop spans,
      length_cons, Nat.zero_add]

theorem mem_candidates_of_collected {span : PIISpan text} (h : span ∈ (collected found).filter (¬ ·.allowlisted)) :
    span ∈ candidates found := by
  have ⟨hmem, hallowed⟩ := mem_filter.mp h
  refine mem_filter.mpr ⟨?_, hallowed⟩
  have hents : entitySpans (found.ents.filter fun ent => ¬ overlapsEmail found.emails ent) ⊆ entitySpans found.ents :=
    (filter_sublist.filterMap _).subset
  unfold collected at hmem
  simp only [mem_append] at hmem ⊢
  have hentity := @hents span
  tauto

theorem detectSpans_of_ne (htext : text ≠ []) : detectSpans found = dedupeAndSortSpans (collected found) :=
  if_neg htext

theorem not_covered_nil (htext : text = []) (spans : List (PIISpan text)) (i : ℕ) :
    ¬ Covered (·.start) (·.stop) spans i := by
  intro ⟨span, _, hin⟩
  have hwithin := span.within
  have hstop : i < span.stop := hin.2
  have hlength : text.length = 0 := length_eq_zero_iff.mpr htext
  omega

/-- The masking covers all candidates, and nothing else, exactly where the findings can be tiled. -/
theorem masksExactly_iff (text : List Char) (found : Findings text) : MasksExactly text found ↔ FoundTiled found := by
  have hsub : ∀ i, Covered (·.start) (·.stop) ((collected found).filter (¬ ·.allowlisted)) i → IsCandidate found i :=
    fun i hi => hi.mono fun _ => mem_candidates_of_collected
  have hredacted (i : ℕ) : Redacted (previewRedaction text found).segments i
      ↔ Covered (·.start) (·.stop) (detectSpans found) i := redacted_previewFrom text i 0 (detectSpans found)
  have hkept : ∀ i, Covered (·.start) (·.stop) (dedupeAndSortSpans (collected found)) i → IsCandidate found i := by
    intro i hi
    refine hsub i (hi.mono fun s hs => ?_)
    exact (perm_insertionSort _ _).mem_iff.mp (keep_subset 0 _ s hs)
  have htiled := dedupe_covered_iff (collected found) (IsCandidate found) hsub
  constructor
  · intro h
    refine htiled.mp fun i hi => ?_
    have hcovered := (hredacted i).mp ((h.redacted i).mpr hi)
    by_cases htext : text = []
    · exact absurd hcovered (not_covered_nil htext _ i)
    · rw [detectSpans_of_ne htext] at hcovered
      exact hcovered
  · intro h
    have hcovers := htiled.mpr h
    by_cases htext : text = []
    · have hnone : detectSpans found = [] := if_pos htext
      refine ⟨?_, ?_, ?_, fun i => iff_of_false ?_ (not_covered_nil htext _ i)⟩
      · exact consecutive_previewFrom text 0 _ (Nat.zero_le _) (hnone ▸ trivial)
      · rw [anonymize, if_pos htext, previewRedaction, hnone, buildPreviewSegments, previewFrom, htext]
        rfl
      · rw [anonymize, if_pos htext, previewRedaction, hnone, buildPreviewSegments, countP_previewFrom]
        rfl
      · rw [hredacted, hnone]
        exact fun ⟨_, hmem, _⟩ => not_mem_nil hmem
    · have hspans : detectSpans found = dedupeAndSortSpans (collected found) := detectSpans_of_ne htext
      have hresult : anonymize text found
          = ⟨text.length, (maskSpans text (detectSpans found)).1, piiSummary (detectSpans found),
            (maskSpans text (detectSpans found)).2⟩ := if_neg htext
      refine ⟨?_, ?_, ?_, fun i => ?_⟩
      · refine consecutive_previewFrom text 0 _ (Nat.zero_le _) ?_
        rw [hspans]
        exact chain_keep 0 _
      · have hmask : (maskSpans text (detectSpans found)).1 = maskFrom text 0 (detectSpans found) := by
          rw [maskSpans]
          split
          · rename_i hnone
            rw [hnone]
            rfl
          · rfl
        rw [hresult, hmask, maskFrom_eq]
        rfl
      · rw [hresult, previewRedaction, buildPreviewSegments, countP_previewFrom]
        rfl
      · rw [hredacted, hspans]
        exact ⟨hkept i, hcovers i⟩

/-- "from Alice Bob Carol Diaz": a location, and two names of which the second reaches over its end. -/
def aliceBobCarolDiaz : List Char := "from Alice Bob Carol Diaz".toList

def namesAndPlace : Findings aliceBobCarolDiaz where
  locations := [⟨0, 20, by decide, by decide⟩]
  names := [⟨5, 14, by decide, by decide⟩, ⟨15, 25, by decide, by decide⟩]

theorem lastName_not_masked : (anonymize aliceBobCarolDiaz namesAndPlace).anonymizedText = "[LOCATION] Diaz".toList ∧
    ¬ MasksExactly aliceBobCarolDiaz namesAndPlace := by
  refine ⟨by decide +kernel, fun h => ?_⟩
  have hcandidate : IsCandidate namesAndPlace 21 := by
    unfold IsCandidate
    decide +kernel
  have hredacted := (redacted_previewFrom aliceBobCarolDiaz 21 0 (detectSpans namesAndPlace)).mp
    ((h.redacted 21).mpr hcandidate)
  revert hredacted
  decide +kernel

end Soter.Privacy
