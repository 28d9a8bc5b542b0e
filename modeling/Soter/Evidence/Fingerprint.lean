import Mathlib
import Soter.Lib.JsNumber
import Soter.Lib.Words

/-! `FingerprintService` (`fingerprint.service.ts`): the fingerprints of texts, and which of their reformattings they
tell apart. -/
namespace Soter.Fingerprints
open Soter.Words Soter.JsNumbers List

abbrev Text := List Char

/-- `\w`. -/
def isWord (c : Char) : Bool := c.isAlphanum || c == '_'

/-- `toLowerCase` of an ASCII text. -/
def toLowerCase (text : Text) : Text := text.map Char.toLower

/-- What `.replace(/[^\w\s]/g, '')` leaves. -/
def isKept (c : Char) : Bool := isWord c || isSpace c

def normalizeText (text : Text) : Text :=
  JsNumbers.trim ((squeeze isSpace ' ' false (toLowerCase text)).filter isKept)

inductive HashAlgorithm
  | sha256
  | sha512
  | md5

structure FingerprintOptions where
  algorithm : HashAlgorithm := .sha256
  normalizeText : Bool := true

/-- `crypto.createHash(algorithm).update(text).digest('hex')` is a parameter. -/
def generateTextFingerprint (createHash : HashAlgorithm → Text → String) (text : Text) (options : FingerprintOptions) :
    String :=
  createHash options.algorithm (if options.normalizeText then normalizeText text else text)

structure SimilarityResult where
  isDuplicate : Bool
  similarity : ℚ
  threshold : ℚ

def SIMILARITY_THRESHOLD : ℚ := mkRat 85 100

def isNearDuplicate (fingerprint1 fingerprint2 : String) (threshold : Option ℚ) : SimilarityResult :=
  if fingerprint1 = fingerprint2 then
    { isDuplicate := true, similarity := 1, threshold := threshold.getD SIMILARITY_THRESHOLD }
  else { isDuplicate := false, similarity := 0, threshold := threshold.getD SIMILARITY_THRESHOLD }

def isPunctuation (c : Char) : Bool := !isKept c

inductive Reformat : Text → Text → Prop
  | letterCase {text text' : Text} (h : text.map Char.toLower = text'.map Char.toLower) : Reformat text text'
  | whiteSpace {before run run' after : Text} (hrun : run ≠ [] ∧ ∀ c ∈ run, isSpace c = true)
      (hrun' : run' ≠ [] ∧ ∀ c ∈ run', isSpace c = true) : Reformat (before ++ run ++ after) (before ++ run' ++ after)
  | ends {lead text trail : Text} (hlead : ∀ c ∈ lead, isSpace c = true) (htrail : ∀ c ∈ trail, isSpace c = true) :
      Reformat text (lead ++ text ++ trail)
  /-- Punctuation is added, next to a word or anywhere else in the text. -/
  | punctuation {before marks after : Text} (hmarks : ∀ c ∈ marks, isPunctuation c = true) :
      Reformat (before ++ after) (before ++ marks ++ after)
  /-- Punctuation is put between two words, with white space on either side. -/
  | standingAlone {before run left marks right after : Text} (hrun : run ≠ [] ∧ ∀ c ∈ run, isSpace c = true)
      (hleft : left ≠ [] ∧ ∀ c ∈ left, isSpace c = true) (hmarks : ∀ c ∈ marks, isPunctuation c = true)
      (hright : right ≠ [] ∧ ∀ c ∈ right, isSpace c = true) :
      Reformat (before ++ run ++ after) (before ++ left ++ marks ++ right ++ after)

abbrev Reformats : Text → Text → Prop := Relation.ReflTransGen Reformat

/-- Normalising twice is normalising once, and the reformatted text has the fingerprint of the text, whatever the
digest, so that it is detected as a duplicate. -/
structure IgnoresFormatting (text text' : Text) : Prop where
  idempotent : normalizeText (normalizeText text) = normalizeText text
  same : ∀ createHash (options : FingerprintOptions), options.normalizeText = true →
    generateTextFingerprint createHash text options = generateTextFingerprint createHash text' options
  detected : ∀ createHash (options : FingerprintOptions) threshold, options.normalizeText = true →
    (isNearDuplicate (generateTextFingerprint createHash text options)
      (generateTextFingerprint createHash text' options) threshold).isDuplicate = true

def LonePunctuation (text : Text) : Prop := ∃ before token after, words isSpace text = before ++ token :: after ∧
  (∀ c ∈ token, isWord c = false) ∧ (∃ t ∈ before, ∃ c ∈ t, isWord c = true) ∧ ∃ t ∈ after, ∃ c ∈ t, isWord c = true

section Characters
variable {c : Char}

theorem toLower_cases (c : Char) :
    c.toLower = c ∨ (65 ≤ c.toNat ∧ c.toNat ≤ 90) ∧ c.toLower.toNat = c.toNat + 32 := by
  rw [Char.toLower]
  split
  · rename_i h
    have hlow : 65 ≤ c.toNat := h.1
    have hhigh : c.toNat ≤ 90 := h.2
    refine .inr ⟨⟨hlow, hhigh⟩, ?_⟩
    have hadd : (c.val + ('a'.val - 'A'.val)).toNat = (c.toNat + 32) % 2 ^ 32 := UInt32.toNat_add _ _
    change (c.val + ('a'.val - 'A'.val)).toNat = _
    omega
  · exact .inl rfl

theorem isSpace_toLower (c : Char) : isSpace c.toLower = isSpace c := by
  rcases toLower_cases c with h | ⟨⟨hlow, hhigh⟩, h⟩
  · rw [h]
  · -- neither a letter nor its small form is white space
    have hnot : ∀ n : ℕ, 65 ≤ n → n ≤ 122 →
        (decide (n ∈ [0x9, 0xA, 0xB, 0xC, 0xD, 0x20, 0xA0, 0x1680, 0x2028, 0x2029, 0x202F, 0x205F, 0x3000, 0xFEFF]) ||
          (decide (0x2000 ≤ n) && decide (n ≤ 0x200A))) = false := by
      intro n hlow hhigh
      simp only [mem_cons, not_mem_nil, or_false, Bool.or_eq_false_iff, Bool.and_eq_false_iff, decide_eq_false_iff_not]
      omega
    rw [isSpace, isSpace, h, hnot _ (by omega) (by omega), hnot _ hlow (by omega)]

theorem isWord_toLower (c : Char) : isWord c.toLower = isWord c := by
  rcases toLower_cases c with h | ⟨⟨hlow, hhigh⟩, h⟩
  · rw [h]
  · have hupper : c.isUpper = true := decide_eq_true (show c.val ≥ 'A'.val ∧ c.val ≤ 'Z'.val from ⟨hlow, hhigh⟩)
    have hfrom : 97 ≤ c.toLower.toNat := by omega
    have hto : c.toLower.toNat ≤ 122 := by omega
    have hlower : c.toLower.isLower = true := by
      rw [Char.isLower, Bool.and_eq_true]
      exact ⟨decide_eq_true hfrom, decide_eq_true hto⟩
    rw [isWord, isWord, Char.isAlphanum, Char.isAlpha, hlower, Char.isAlphanum, Char.isAlpha, hupper]
    simp only [Bool.or_true, Bool.true_or]

theorem toLower_of_isSpace (h : isSpace c = true) : c.toLower = c := by
  rcases toLower_cases c with hsame | ⟨⟨hlow, hhigh⟩, -⟩
  · exact hsame
  · simp only [isSpace, mem_cons, not_mem_nil, or_false, Bool.or_eq_true, Bool.and_eq_true, decide_eq_true_eq] at h
    omega

theorem toLower_toLower (c : Char) : c.toLower.toLower = c.toLower := by
  rcases toLower_cases c with h | ⟨⟨hlow, hhigh⟩, h⟩
  · rw [h, h]
  · rcases toLower_cases c.toLower with hsame | ⟨⟨hlow', hhigh'⟩, -⟩
    · exact hsame
    · omega

end Characters
section Pieces

def cleanChar (c : Char) : Option Char := if isKept c then some c.toLower else none

def clean (text : Text) : Text := text.filterMap cleanChar

def pieces (text : Text) : List Text := (words isSpace text).map clean

variable {c : Char} {text text' : Text}

theorem isKept_toLower (c : Char) : isKept c.toLower = isKept c := by
  rw [isKept, isKept, isWord_toLower, isSpace_toLower]

theorem clean_eq (text : Text) : (toLowerCase text).filter isKept = clean text := by
  rw [toLowerCase]
  induction text with
  | nil => rfl
  | cons c text ih =>
    rw [map_cons, filter_cons, isKept_toLower, ih]
    cases hc : isKept c with
    | true =>
      have hclean : cleanChar c = some c.toLower := if_pos hc
      exact (filterMap_cons_some hclean).symm
    | false =>
      have hclean : cleanChar c = none := if_neg (Bool.eq_false_iff.mp hc)
      exact (filterMap_cons_none hclean).symm

theorem cleanChar_space (h : isSpace c = true) : cleanChar c = some c := by
  have hkept : isKept c = true := by
    rw [isKept, h, Bool.or_true]
  rw [cleanChar, if_pos hkept, toLower_of_isSpace h]

theorem isSpace_cleanChar {d : Char} (h : isSpace c = false) (hd : cleanChar c = some d) : isSpace d = false := by
  rw [cleanChar] at hd
  split at hd
  · cases hd
    rw [isSpace_toLower]
    exact h
  · cases hd

theorem clean_append (x y : Text) : clean (x ++ y) = clean x ++ clean y := filterMap_append

theorem clean_spaces {w : Text} (h : ∀ c ∈ w, isSpace c = true) : clean w = w := by
  induction w with
  | nil => rfl
  | cons c w ih =>
    have hc : cleanChar c = some c := cleanChar_space (h c mem_cons_self)
    rw [clean, filterMap_cons_some hc]
    congr 1
    exact ih fun d hd => h d (mem_cons_of_mem c hd)

theorem clean_punctuation {marks : Text} (h : ∀ c ∈ marks, isPunctuation c = true) : clean marks = [] := by
  apply filterMap_eq_nil_iff.mpr
  intro c hc
  have hmark := h c hc
  rw [isPunctuation, Bool.not_eq_true'] at hmark
  exact if_neg (Bool.eq_false_iff.mp hmark)

theorem clean_congr (h : text.map Char.toLower = text'.map Char.toLower) : clean text = clean text' := by
  rw [← clean_eq, ← clean_eq, toLowerCase, toLowerCase, h]

theorem words_clean (text : Text) : words isSpace (clean text) = (pieces text).filter fun w => !w.isEmpty :=
  words_filterMap (fun c hc => ⟨c, cleanChar_space hc, hc⟩) (fun _ _ => isSpace_cleanChar) text

theorem words_reformat (h : Reformat text text') :
    words isSpace (clean text) = words isSpace (clean text') := by
  cases h with
  | letterCase h => rw [clean_congr h]
  | whiteSpace hrun hrun' =>
    simp only [clean_append, clean_spaces hrun.2, clean_spaces hrun'.2]
    rw [words_run hrun.2 hrun.1, words_run hrun'.2 hrun'.1]
  | @ends lead text trail hlead htrail =>
    simp only [clean_append, clean_spaces hlead, clean_spaces htrail]
    by_cases hnone : trail = []
    · rw [hnone, append_nil, words_spaces hlead]
    · have hempty : words isSpace ([] : Text) = [] := rfl
      have htail := words_run htrail hnone (lead ++ clean text) []
      rw [append_nil, hempty, append_nil] at htail
      rw [htail, words_spaces hlead]
  | punctuation hmarks => simp only [clean_append, clean_punctuation hmarks, append_nil]
  | @standingAlone before run left marks right after hrun hleft hmarks hright =>
    simp only [clean_append, clean_spaces hrun.2, clean_spaces hleft.2, clean_spaces hright.2, clean_punctuation hmarks,
      append_nil]
    have hboth : left ++ right ≠ [] ∧ ∀ c ∈ left ++ right, isSpace c = true := by
      refine ⟨append_ne_nil_of_left_ne_nil hleft.1 right, fun c hc => ?_⟩
      rcases mem_append.mp hc with hc | hc
      · exact hleft.2 c hc
      · exact hright.2 c hc
    rw [words_run hrun.2 hrun.1, append_assoc _ left right, words_run hboth.2 hboth.1]

theorem pieces_free : ∀ w ∈ pieces text, ∀ c ∈ w, isSpace c = false := by
  intro w hw c hc
  obtain ⟨v, hv, rfl⟩ := mem_map.mp hw
  obtain ⟨d, hd, hclean⟩ := mem_filterMap.mp hc
  exact isSpace_cleanChar (mem_words hv d hd) hclean

theorem trimmed_free : ∀ w ∈ trim isEmpty (pieces text), ∀ c ∈ w, isSpace c = false :=
  fun w hw => pieces_free w (trim_sublist.subset hw)

theorem clean_clean (text : Text) : clean (clean text) = clean text := by
  rw [clean, clean, filterMap_filterMap]
  congr 1
  funext c
  cases hc : isKept c with
  | true =>
    have hclean : cleanChar c = some c.toLower := if_pos hc
    have hagain : isKept c.toLower = true := by rw [isKept_toLower, hc]
    rw [hclean, Option.bind_some, cleanChar, if_pos hagain, toLower_toLower]
  | false =>
    have hclean : cleanChar c = none := if_neg (Bool.eq_false_iff.mp hc)
    rw [hclean]
    rfl

theorem words_toLowerCase (text : Text) :
    words isSpace (toLowerCase text) = (words isSpace text).map toLowerCase := by
  have hmap : ∀ x : Text, x.filterMap (fun c => some c.toLower) = toLowerCase x := fun x =>
    congrFun (filterMap_eq_map (f := Char.toLower)) x
  have hwords := words_filterMap (p := isSpace) (g := fun c => some c.toLower)
    (fun c hc => ⟨c.toLower, rfl, (isSpace_toLower c).trans hc⟩)
    (fun c d hc hd => by rw [← Option.some.inj hd, isSpace_toLower]; exact hc) text
  simp only [hmap] at hwords
  rw [hwords]
  apply filter_eq_self.mpr
  intro w hw
  obtain ⟨v, hv, rfl⟩ := mem_map.mp hw
  have hne := ne_nil_of_mem_words hv
  rw [toLowerCase, isEmpty_map, hne]
  rfl

theorem normalizeText_eq (text : Text) : normalizeText text = [' '].intercalate (trim isEmpty (pieces text)) := by
  have hpieces : (words isSpace (toLowerCase text)).map (fun w => w.filter isKept) = pieces text := by
    rw [words_toLowerCase, map_map, pieces]
    apply map_congr_left
    intro w _
    exact clean_eq w
  rw [← hpieces]
  exact trim_filter_squeeze (by decide) (by decide) (toLowerCase text)

theorem words_normalizeText (text : Text) : words isSpace (normalizeText text) = words isSpace (clean text) := by
  rw [normalizeText_eq, words_intercalate (by decide) trimmed_free, filter_trim, words_clean]

theorem normalizeText_twice (text : Text) :
    normalizeText (normalizeText text) = [' '].intercalate (words isSpace (clean text)) := by
  have hpieces : pieces (normalizeText text) = words isSpace (clean text) := by
    have hsame : ∀ w ∈ (pieces text).filter (fun w => !w.isEmpty), clean w = id w := by
      intro w hw
      obtain ⟨v, -, rfl⟩ := mem_map.mp (mem_filter.mp hw).1
      exact clean_clean v
    rw [pieces, words_normalizeText, words_clean, map_congr_left hsame, map_id]
  rw [normalizeText_eq, hpieces, trim_eq_self fun w hw => ne_nil_of_mem_words hw]

theorem clean_isEmpty {token : Text} (h : ∀ c ∈ token, isSpace c = false) :
    (clean token).isEmpty = true ↔ ∀ c ∈ token, isWord c = false := by
  rw [List.isEmpty_iff, clean, List.filterMap_eq_nil_iff]
  refine forall₂_congr fun c hc => ?_
  have hkept : isKept c = isWord c := by
    rw [isKept, h c hc, Bool.or_false]
  rw [cleanChar, hkept]
  cases isWord c with
  | true | false => simp

theorem clean_isEmpty_eq_false {token : Text} (h : ∀ c ∈ token, isSpace c = false) :
    (clean token).isEmpty = false ↔ ∃ c ∈ token, isWord c = true := by
  rw [← Bool.not_eq_true, clean_isEmpty h]
  simp only [not_forall, Bool.not_eq_false, exists_prop]

/-- Punctuation stands alone exactly if nothing is left of a piece that trimming does not reach. -/
theorem lonePunctuation_iff (text : Text) :
    LonePunctuation text ↔ ∃ w ∈ trim isEmpty (pieces text), w.isEmpty = true := by
  rw [exists_mem_trim_iff]
  constructor
  · rintro ⟨before, token, after, hwords, htoken, ⟨t, ht, hbefore⟩, ⟨u, hu, hafter⟩⟩
    have hfree : ∀ w ∈ before ++ token :: after, ∀ c ∈ w, isSpace c = false := fun w hw => by
      rw [← hwords] at hw
      exact mem_words hw
    refine ⟨before.map clean, clean token, after.map clean, ?_, ?_, ⟨clean t, mem_map_of_mem ht, ?_⟩,
      ⟨clean u, mem_map_of_mem hu, ?_⟩⟩
    · rw [pieces, hwords, map_append, map_cons]
    · exact (clean_isEmpty (hfree token (mem_append_right before mem_cons_self))).mpr htoken
    · exact (clean_isEmpty_eq_false (hfree t (mem_append_left _ ht))).mpr hbefore
    · exact (clean_isEmpty_eq_false (hfree u (mem_append_right before (mem_cons_of_mem token hu)))).mpr hafter
  · rintro ⟨before', token', after', hpieces, htoken, ⟨t', ht', hbefore⟩, ⟨u', hu', hafter⟩⟩
    obtain ⟨before, rest, hwords, rfl, hrest⟩ := map_eq_append_iff.mp hpieces
    obtain ⟨token, after, rfl, rfl, rfl⟩ := map_eq_cons_iff.mp hrest
    obtain ⟨t, ht, rfl⟩ := mem_map.mp ht'
    obtain ⟨u, hu, rfl⟩ := mem_map.mp hu'
    have hfree : ∀ w ∈ before ++ token :: after, ∀ c ∈ w, isSpace c = false := fun w hw => by
      rw [← hwords] at hw
      exact mem_words hw
    refine ⟨before, token, after, hwords, ?_, ⟨t, ht, ?_⟩, ⟨u, hu, ?_⟩⟩
    · exact (clean_isEmpty (hfree token (mem_append_right before mem_cons_self))).mp htoken
    · exact (clean_isEmpty_eq_false (hfree t (mem_append_left _ ht))).mp hbefore
    · exact (clean_isEmpty_eq_false (hfree u (mem_append_right before (mem_cons_of_mem token hu)))).mp hafter

theorem normalizeText_of_not_lone (h : ¬ LonePunctuation text) :
    normalizeText text = [' '].intercalate (words isSpace (clean text)) := by
  rw [normalizeText_eq, words_clean, ← filter_trim]
  congr 1
  refine (filter_eq_self.mpr fun w hw => ?_).symm
  rw [Bool.not_eq_true', ← Bool.not_eq_true]
  exact fun hempty => h ((lonePunctuation_iff text).mpr ⟨w, hw, hempty⟩)

theorem idempotent_iff (text : Text) :
    normalizeText (normalizeText text) = normalizeText text ↔ ¬ LonePunctuation text := by
  constructor
  · intro h hlone
    obtain ⟨w, hw, hempty⟩ := (lonePunctuation_iff text).mp hlone
    -- the same text would have the same pieces, and one of them is empty
    have hne : trim isEmpty (pieces text) ≠ [] := ne_nil_of_mem hw
    have hsome : words isSpace (clean text) ≠ [] := by
      obtain ⟨before, token, after, hsplit, -, ⟨t, ht, hletter⟩, -⟩ := hlone
      have hmem : t ∈ words isSpace text := by
        rw [hsplit]
        exact mem_append_left _ ht
      rw [words_clean]
      apply ne_nil_of_mem (a := clean t)
      refine mem_filter.mpr ⟨mem_map_of_mem hmem, ?_⟩
      rw [(clean_isEmpty_eq_false (mem_words hmem)).mpr hletter]
      rfl
    have hwords : words isSpace (clean text) = trim isEmpty (pieces text) := by
      rw [normalizeText_twice, normalizeText_eq] at h
      have hpieces := congrArg (splitOnP isSpace) h
      rwa [splitOnP_intercalate (by decide) hne trimmed_free,
        splitOnP_intercalate (by decide) hsome fun w hw => mem_words hw] at hpieces
    rw [← hwords] at hw
    rw [ne_nil_of_mem_words hw] at hempty
    cases hempty
  · intro h
    rw [normalizeText_twice, normalizeText_of_not_lone h]

/-- Formatting is ignored, for a text and a reformatted one, exactly if in neither of them punctuation stands alone
between two words. -/
theorem ignoresFormatting_iff (h : Reformats text text') :
    IgnoresFormatting text text' ↔ ¬ LonePunctuation text ∧ ¬ LonePunctuation text' := by
  have hwords : words isSpace (clean text) = words isSpace (clean text') := by
    induction h with
    | refl => rfl
    | tail _ hstep ih => exact ih.trans (words_reformat hstep)
  constructor
  · intro hignores
    have hsame : normalizeText text = normalizeText text' := by
      have hdigest := hignores.same (fun _ digested => String.ofList digested) {} rfl
      exact String.ofList_injective hdigest
    refine ⟨(idempotent_iff text).mp hignores.idempotent, (idempotent_iff text').mp ?_⟩
    rw [← hsame]
    exact hignores.idempotent
  · rintro ⟨hlone, hlone'⟩
    have hsame : normalizeText text = normalizeText text' := by
      rw [normalizeText_of_not_lone hlone, normalizeText_of_not_lone hlone', hwords]
    have hprint : ∀ createHash (options : FingerprintOptions), options.normalizeText = true →
        generateTextFingerprint createHash text options = generateTextFingerprint createHash text' options := by
      intro createHash options hoptions
      rw [generateTextFingerprint, generateTextFingerprint, if_pos hoptions, if_pos hoptions, hsame]
    refine ⟨(idempotent_iff text).mpr hlone, hprint, fun createHash options threshold hoptions => ?_⟩
    rw [isNearDuplicate, if_pos (hprint createHash options hoptions)]

theorem isRun_replicate (n : ℕ) :
    replicate (n + 1) ' ' ≠ [] ∧ ∀ c ∈ replicate (n + 1) ' ', isSpace c = true := by
  refine ⟨cons_ne_nil _ _, fun c hc => ?_⟩
  rw [eq_of_mem_replicate hc]
  rfl

theorem ignoresFormatting_respaced : IgnoresFormatting "Flood relief".toList "flood   RELIEF".toList := by
  have hcase : Reformat "Flood relief".toList "flood RELIEF".toList := .letterCase (by decide)
  have hspace : Reformat ("flood".toList ++ replicate 1 ' ' ++ "RELIEF".toList)
      ("flood".toList ++ replicate 3 ' ' ++ "RELIEF".toList) :=
    .whiteSpace (isRun_replicate 0) (isRun_replicate 2)
  exact (ignoresFormatting_iff (.tail (.single hcase) hspace)).mpr
    ⟨(idempotent_iff _).mp (by decide +kernel), (idempotent_iff _).mp (by decide +kernel)⟩

theorem dash_told_apart : Reformats "flood relief".toList "flood - relief".toList ∧
    ¬ IgnoresFormatting "flood relief".toList "flood - relief".toList ∧
    normalizeText (normalizeText "flood - relief".toList) ≠ normalizeText "flood - relief".toList := by
  have hmark : ∀ c ∈ ['-'], isPunctuation c = true := by
    intro c hc
    rw [mem_singleton.mp hc]
    rfl
  have hdash : Reformat ("flood".toList ++ replicate 1 ' ' ++ "relief".toList)
      ("flood".toList ++ replicate 1 ' ' ++ ['-'] ++ replicate 1 ' ' ++ "relief".toList) :=
    .standingAlone (isRun_replicate 0) (isRun_replicate 0) hmark (isRun_replicate 0)
  refine ⟨.single hdash, fun h => ?_, by decide +kernel⟩
  have hdigest := h.same (fun _ digested => String.ofList digested) {} rfl
  have hsame : normalizeText "flood relief".toList = normalizeText "flood - relief".toList :=
    String.ofList_injective hdigest
  have hne : normalizeText "flood relief".toList ≠ normalizeText "flood - relief".toList := by decide +kernel
  exact hne hsame

end Pieces
end Soter.Fingerprints
