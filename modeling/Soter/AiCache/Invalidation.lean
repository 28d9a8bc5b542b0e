import Soter.Lib.Glob
import Soter.AiCache.Isolation

/-! `CacheInvalidationHelper` (`services/cache_invalidation.py`): which entries of the AI cache are left. -/
namespace Soter.AiCache
open Soter.Glob List
open Soter.Json (Text Value Numerals)
open Soter.PyJson

section Helper
variable {Num : Type}

/-- What an entry was written for: the status of a task, or a verification that refers to artifacts. -/
inductive Origin (Num : Type)
  | task (taskId : Text)
  | verification (call : VerifyCall Num) (artifactIds : List Text)

structure CacheEntry (Num : Type) where
  key : Text
  origin : Origin Num

/-- `delete_pattern`, while Redis answers. -/
def deletePattern (pattern : Text) (entries : List (CacheEntry Num)) : List (CacheEntry Num) :=
  entries.filter fun entry => ¬ globMatch pattern entry.key

inductive Invalidation
  | taskStatus (taskId : Text)
  | artifact (artifactId : Text)
  | modelVersion (provider model : Text)
  | promptVersion (version : Text)

def taskStatusPattern (taskId : Text) : Text := "cache:ai:task_status:".toList ++ '*' :: (taskId ++ ['*'])

def verificationPattern (name : String) (rest : Text) : Text :=
  "cache:ai:humanitarian_verification:".toList ++ '*' :: (name.toList ++ '=' :: rest)

def artifactPattern (artifactId : Text) : Text := verificationPattern "artifact_tag" ('*' :: (artifactId ++ ['*']))

def contentPattern : Text := verificationPattern "content_hash" ['*']

def modelVersionPattern (provider model : Text) : Text :=
  verificationPattern "model_version" (sanitizeTagValue (provider ++ ':' :: model) ++ ['*'])

def promptVersionPattern (version : Text) : Text := verificationPattern "prompt_version" (sanitizeTagValue version ++ ['*'])

def Invalidation.patterns : Invalidation → List Text
  | .taskStatus taskId => [taskStatusPattern taskId]
  | .artifact artifactId => [artifactPattern artifactId, contentPattern]
  | .modelVersion provider model => [modelVersionPattern provider model]
  | .promptVersion version => [promptVersionPattern version]

def Invalidation.apply (invalidation : Invalidation) (entries : List (CacheEntry Num)) : List (CacheEntry Num) :=
  invalidation.patterns.foldl (fun entries pattern => deletePattern pattern entries) entries

end Helper
section Statement
variable {Num : Type} (sha256 : Text → Text) (numerals : Numerals Num)

/-- `str(uuid.uuid4())`, as far as its shape goes. -/
def IsTaskId (taskId : Text) : Prop :=
  ∃ a b c d e : Text, taskId = a ++ '-' :: (b ++ '-' :: (c ++ '-' :: (d ++ '-' :: e))) ∧
    [a.length, b.length, c.length, d.length, e.length] = [8, 4, 4, 4, 12] ∧
    ∀ x ∈ a ++ b ++ c ++ d ++ e, x.isDigit ∨ 'a' ≤ x ∧ x ≤ 'f'

/-- What `resolve_artifact` takes before it looks for the file. -/
def IsArtifactId (artifactId : Text) : Prop :=
  artifactId ≠ [] ∧ '/' ∉ artifactId ∧ '\\' ∉ artifactId ∧ ¬ ['.', '.'] <:+: artifactId

def Invalidation.Accepts : Invalidation → Prop
  | .taskStatus taskId => IsTaskId taskId
  | .artifact artifactId => IsArtifactId artifactId
  | .modelVersion _ _ | .promptVersion _ => True

/-- `_get_task_status(task_id)` -/
def taskStatusKey (taskId : Text) : Text := generateKey sha256 numerals "task_status" [.str taskId] [] []

/-- `",".join(...)` -/
def joinIds : List Text → Text
  | [] => []
  | [artifactId] => artifactId
  | artifactId :: next :: artifactIds => artifactId ++ ',' :: joinIds (next :: artifactIds)

def artifactTagOf (artifactIds : List Text) : Text := joinIds (artifactIds.insertionSort KeyLE)

def CacheEntry.IsWritten (entry : CacheEntry Num) : Prop :=
  match entry.origin with
  | .task taskId => entry.key = taskStatusKey sha256 numerals taskId
  | .verification call artifactIds => call.artifactTag = artifactTagOf artifactIds ∧
    (entry.key = call.cacheKey sha256 numerals ∨ call.contentKey sha256 numerals = some entry.key)

def Invalidation.Concerns : Invalidation → Origin Num → Prop
  | .taskStatus taskId, .task own => own = taskId
  | .artifact artifactId, .verification _ artifactIds => artifactId ∈ artifactIds
  | .modelVersion provider model, .verification call _ => call.modelVersion = provider ++ ':' :: model
  | .promptVersion version, .verification call _ => call.promptVersion = version ∧ version ≠ []
  | _, _ => False

def Invalidation.LeavesNone (invalidation : Invalidation) (entries : List (CacheEntry Num)) : Prop :=
  ∀ entry ∈ invalidation.apply entries, ¬ invalidation.Concerns entry.origin

/-- Whether the entry is found: that of a task never is, and another one if a pattern, with the id or version written into it,
stands for its key. -/
def Invalidation.Finds (invalidation : Invalidation) (entry : CacheEntry Num) : Prop :=
  match invalidation with
  | .taskStatus _ => False
  | _ => ∃ pattern ∈ invalidation.patterns, globMatch pattern entry.key = true

/-- Nothing in the id or version is read otherwise by a pattern than it is written into a key. -/
def Invalidation.IsPlain : Invalidation → Prop
  | .taskStatus _ => False
  | .artifact artifactId => ∀ c ∈ artifactId, c ≠ '[' ∧ c ≠ ']' ∧ c ≠ ':'
  | .modelVersion provider model => '\\' ∉ provider ∧ '\\' ∉ model
  | .promptVersion version => '\\' ∉ version

end Statement
section Tags
variable {Num : Type} {sha256 : Text → Text} {numerals : Numerals Num} {call : VerifyCall Num} {tags : List (Text × Text)}
  {name value pattern : Text}

theorem tagSegment_mem (htag : (name, value) ∈ tags) (hvalue : value ≠ []) : ∃ before after,
    tagSegment tags = before ++ ':' :: (name ++ '=' :: (sanitizeTagValue value ++ after)) ∧ ∀ x ∈ before.head?, x = ':' := by
  have hmem : (name, value) ∈ (sortKeys tags).filter (·.2 ≠ []) :=
    mem_filter.mpr ⟨(sortKeys_perm tags).mem_iff.mpr htag, decide_eq_true hvalue⟩
  obtain ⟨earlier, later, hsplit⟩ := append_of_mem hmem
  refine ⟨earlier.flatMap tagText, later.flatMap tagText, ?_, tags_head earlier⟩
  rw [tagSegment, hsplit, flatMap_append, flatMap_cons, tagText, cons_append, append_assoc, cons_append]

theorem verificationPattern_tag {name : String} {args : List (Value Num)} {kwargs : List (Text × Value Num)}
    (htag : (name.toList, value) ∈ tags) (hvalue : value ≠ []) (hname : ∀ c ∈ name.toList, isSpecial c = false)
    (h : ∀ after, globMatch pattern (sanitizeTagValue value ++ after) = true) :
    globMatch (verificationPattern name pattern)
      (generateKey sha256 numerals "humanitarian_verification" args tags kwargs) = true := by
  obtain ⟨before, after, hsegment, hbefore⟩ := tagSegment_mem htag hvalue
  -- the colon at the end of the literal text is that before the first tag
  have hfirst : ∃ skipped, before ++ [':'] = ':' :: skipped := by
    cases before with
    | nil => exact ⟨[], rfl⟩
    | cons x before =>
      rw [hbefore x rfl]
      exact ⟨before ++ [':'], rfl⟩
  obtain ⟨skipped, hskipped⟩ := hfirst
  have hlit : ∀ c ∈ "cache:ai:humanitarian_verification:".toList, isSpecial c = false :=
    all_iff_forall_prop.mp (by decide)
  have hequals : isSpecial '=' = false := by decide
  have hbegin : "cache:ai:humanitarian_verification:".toList =
      "cache:ai:".toList ++ ("humanitarian_verification".toList ++ [':']) := by decide
  apply (globMatch_laws.literal hlit).mpr
  refine ⟨skipped ++ (name.toList ++ '=' :: (sanitizeTagValue value ++
    (after ++ ':' :: sha256 (dumps numerals (keyData args kwargs))))), ?_, ?_⟩
  · calc
      _ = "cache:ai:".toList ++ ("humanitarian_verification".toList ++ ((before ++ [':']) ++ (name.toList ++ '=' ::
          (sanitizeTagValue value ++ (after ++ ':' :: sha256 (dumps numerals (keyData args kwargs))))))) := by
        rw [generateKey_eq, hsegment]
        simp only [cons_append, append_assoc, nil_append]
      _ = _ := by
        rw [hskipped, hbegin]
        simp only [cons_append, append_assoc, nil_append]
  · apply (globMatch_laws.star _ _).mpr
    refine ⟨skipped, _, rfl, (globMatch_laws.literal hname).mpr ⟨_, rfl, ?_⟩⟩
    exact (globMatch_laws.plain '=' _ _ hequals).mpr ⟨_, rfl, h _⟩

variable {entry : CacheEntry Num} {entries : List (CacheEntry Num)} {invalidation : Invalidation}
  {artifactId : Text}

variable {artifactIds : List Text} {key : Text}

theorem globMatch_star (key : Text) : globMatch ['*'] key = true :=
  (globMatch_laws.star [] key).mpr ⟨key, [], (append_nil key).symm, rfl⟩

theorem sanitized_covers (h : '\\' ∉ value) : Forall₂ Covers (sanitizeTagValue value) (sanitizeTagValue value) := by
  apply forall₂_same.mpr
  intro c hc
  have hseparator := sanitizeTagValue_plain value c hc
  have hbackslash : c ≠ '\\' := by
    rintro rfl
    obtain ⟨d, hd, heq⟩ := mem_map.mp hc
    split at heq
    · cases heq
    · rw [heq] at hd
      exact h hd
  refine .inr (.inr ⟨rfl, ?_⟩)
  simp only [isTagSeparator, mem_cons, not_mem_nil, or_false, decide_eq_false_iff_not, not_or] at hseparator
  simp only [isSpecial, mem_cons, not_mem_nil, or_false, decide_eq_false_iff_not, not_or]
  exact ⟨hseparator.1, hseparator.2.1, hseparator.2.2.1, hbackslash⟩

theorem artifactId_covers (haccepts : IsArtifactId artifactId) (hplain : ∀ c ∈ artifactId, c ≠ '[' ∧ c ≠ ']' ∧ c ≠ ':') :
    Forall₂ Covers artifactId (sanitizeTagValue artifactId) := by
  apply forall₂_map_right_iff.mpr
  apply forall₂_same.mpr
  intro c hc
  obtain ⟨hopen, hclose, hcolon⟩ := hplain c hc
  have hbackslash : c ≠ '\\' := by
    rintro rfl
    exact haccepts.2.2.1 hc
  by_cases hstar : c = '*'
  · exact .inl hstar
  · by_cases hmark : c = '?'
    · exact .inr (.inl hmark)
    · have hseparator : isTagSeparator c = false := by simp [isTagSeparator, hstar, hmark, hopen, hclose, hcolon]
      refine .inr (.inr ⟨by rw [hseparator]; rfl, ?_⟩)
      simp [isSpecial, hstar, hmark, hopen, hbackslash]

theorem joinIds_mem : ∀ {artifactIds : List Text}, artifactId ∈ artifactIds →
    ∃ before after, joinIds artifactIds = before ++ (artifactId ++ after)
  | [own], h => by
    rw [mem_singleton.mp h]
    exact ⟨[], [], by rw [joinIds, append_nil, nil_append]⟩
  | own :: next :: artifactIds, h => by
    rcases mem_cons.mp h with rfl | h
    · exact ⟨[], ',' :: joinIds (next :: artifactIds), rfl⟩
    · obtain ⟨before, after, hjoin⟩ := joinIds_mem h
      exact ⟨own ++ ',' :: before, after, by rw [joinIds, hjoin, append_assoc, cons_append]⟩

theorem artifactTagOf_mem (h : artifactId ∈ artifactIds) :
    ∃ before after, artifactTagOf artifactIds = before ++ (artifactId ++ after) :=
  joinIds_mem ((perm_insertionSort _ artifactIds).mem_iff.mpr h)

theorem artifactPattern_cacheKey (haccepts : IsArtifactId artifactId)
    (hplain : ∀ c ∈ artifactId, c ≠ '[' ∧ c ≠ ']' ∧ c ≠ ':') (htag : call.artifactTag = artifactTagOf artifactIds)
    (hmem : artifactId ∈ artifactIds) : globMatch (artifactPattern artifactId) (call.cacheKey sha256 numerals) = true := by
  obtain ⟨before, after, hids⟩ := artifactTagOf_mem hmem
  rw [hids] at htag
  have hvalue : call.artifactTag ≠ [] := by
    rw [htag]
    intro hnil
    exact haccepts.1 (append_eq_nil_iff.mp (append_eq_nil_iff.mp hnil).2).1
  have htags : ("artifact_tag".toList, call.artifactTag) ∈ call.tags := by simp [VerifyCall.tags]
  refine verificationPattern_tag htags hvalue (all_iff_forall_prop.mp (by decide)) fun rest => ?_
  have hsanitized : sanitizeTagValue call.artifactTag ++ rest =
      sanitizeTagValue before ++ (sanitizeTagValue artifactId ++ (sanitizeTagValue after ++ rest)) := by
    rw [htag]
    simp only [sanitizeTagValue, map_append, append_assoc]
  rw [hsanitized]
  apply (globMatch_laws.star _ _).mpr
  exact ⟨_, _, rfl, globMatch_covers (artifactId_covers haccepts hplain) (globMatch_star _)⟩

theorem contentPattern_contentKey (h : call.contentKey sha256 numerals = some key) :
    globMatch contentPattern key = true := by
  rw [VerifyCall.contentKey] at h
  split at h
  · cases h
  · rename_i hvalue
    cases h
    have htags : ("content_hash".toList, call.contentHash) ∈ call.contentTags :=
      mem_append_right _ (mem_singleton_self _)
    exact verificationPattern_tag htags hvalue (all_iff_forall_prop.mp (by decide)) fun _ => globMatch_star _

theorem version_found {name : String} (hkey : key = call.cacheKey sha256 numerals ∨
      call.contentKey sha256 numerals = some key) (htag : (name.toList, value) ∈ call.tags)
    (hartifact : name.toList ≠ "artifact_tag".toList) (hvalue : value ≠ []) (hname : ∀ c ∈ name.toList, isSpecial c = false)
    (hplain : '\\' ∉ value) : globMatch (verificationPattern name (sanitizeTagValue value ++ ['*'])) key = true := by
  have hfound : ∀ after, globMatch (sanitizeTagValue value ++ ['*']) (sanitizeTagValue value ++ after) = true :=
    fun after => globMatch_covers (sanitized_covers hplain) (globMatch_star after)
  rcases hkey with rfl | hkey
  · exact verificationPattern_tag htag hvalue hname hfound
  · rw [VerifyCall.contentKey] at hkey
    split at hkey
    · cases hkey
    · cases hkey
      have htag : (name.toList, value) ∈ call.contentTags :=
        mem_append_left _ (mem_filter.mpr ⟨htag, decide_eq_true hartifact⟩)
      exact verificationPattern_tag htag hvalue hname hfound

theorem taskStatusPattern_unmatched (hhex : ∀ t, '-' ∉ sha256 t) {taskId own : Text} (haccepts : IsTaskId taskId) :
    globMatch (taskStatusPattern taskId) (taskStatusKey sha256 numerals own) = false := by
  obtain ⟨a, b, c, d, e, hid, -, hhexadecimal⟩ := haccepts
  have hchars : ∀ x ∈ taskId, isSpecial x = false := by
    have hplain : ∀ x : Char, (x.isDigit ∨ 'a' ≤ x ∧ x ≤ 'f') → isSpecial x = false := by
      intro x hx
      simp only [isSpecial, mem_cons, not_mem_nil, or_false, decide_eq_false_iff_not, not_or]
      refine ⟨?_, ?_, ?_, ?_⟩ <;> rintro rfl <;> revert hx <;> decide
    have hhyphen : isSpecial '-' = false := by decide
    intro x hx
    by_cases heq : x = '-'
    · rw [heq]
      exact hhyphen
    · apply hplain x (hhexadecimal x _)
      rw [hid] at hx
      simp only [mem_append, mem_cons, heq, false_or] at hx ⊢
      simpa only [or_assoc] using hx
  by_contra hmatch
  rw [Bool.not_eq_false] at hmatch
  have hlit : ∀ c ∈ "cache:ai:task_status:".toList, isSpecial c = false :=
    all_iff_forall_prop.mp (by decide)
  obtain ⟨rest, hrest, hstar⟩ := (globMatch_laws.literal hlit).mp hmatch
  have hkey : taskStatusKey sha256 numerals own =
      "cache:ai:task_status:".toList ++ sha256 (dumps numerals (keyData [.str own] [])) := by
    have hbegin : "cache:ai:task_status:".toList = "cache:ai:".toList ++ ("task_status".toList ++ [':']) := by decide
    rw [taskStatusKey, generateKey_eq, hbegin]
    simp only [append_assoc]
    rfl
  rw [hkey] at hrest
  have hpart := globMatch_laws.infix_of_star hchars hstar
  rw [← append_cancel_left hrest] at hpart
  have hmem : '-' ∈ taskId := by
    rw [hid]
    simp
  exact hhex _ (hpart.subset hmem)

theorem mem_foldl_delete {patterns : List Text} : ∀ {entries : List (CacheEntry Num)},
    entry ∈ patterns.foldl (fun entries pattern => deletePattern pattern entries) entries ↔
      entry ∈ entries ∧ ∀ pattern ∈ patterns, globMatch pattern entry.key = false := by
  induction patterns with
  | nil => simp
  | cons pattern patterns ih =>
    intro entries
    rw [foldl_cons, ih, forall_mem_cons, deletePattern, mem_filter]
    simp [and_assoc]

theorem mem_apply_iff (hhex : ∀ t, '-' ∉ sha256 t) (haccepts : invalidation.Accepts) (hwritten : entry.IsWritten sha256 numerals)
    (hconcerns : invalidation.Concerns entry.origin) :
    entry ∈ invalidation.apply entries ↔ entry ∈ entries ∧ ¬ invalidation.Finds entry := by
  rw [Invalidation.apply, mem_foldl_delete]
  apply and_congr_right
  intro _
  cases invalidation with
  | taskStatus taskId =>
    have hunmatched : globMatch (taskStatusPattern taskId) entry.key = false := by
      unfold CacheEntry.IsWritten at hwritten
      cases horigin : entry.origin with
      | task own =>
        rw [horigin] at hwritten
        rw [hwritten]
        exact taskStatusPattern_unmatched hhex haccepts
      | verification call artifactIds =>
        rw [horigin] at hconcerns
        cases hconcerns
    simp [Invalidation.patterns, Invalidation.Finds, hunmatched]
  | artifact artifactId | modelVersion provider model | promptVersion version => simp [Invalidation.Finds]

theorem finds_of_plain (haccepts : invalidation.Accepts) (hplain : invalidation.IsPlain)
    (hwritten : entry.IsWritten sha256 numerals) (hconcerns : invalidation.Concerns entry.origin) :
    invalidation.Finds entry := by
  unfold CacheEntry.IsWritten at hwritten
  cases horigin : entry.origin with
  | task own =>
    rw [horigin] at hconcerns
    cases invalidation with
    | taskStatus taskId => exact absurd hplain id
    | _ => cases hconcerns
  | verification call artifactIds =>
    rw [horigin] at hconcerns hwritten
    obtain ⟨htag, hkey⟩ := hwritten
    cases invalidation with
    | taskStatus taskId => cases hconcerns
    | artifact artifactId =>
      rcases hkey with hkey | hkey
      · refine ⟨artifactPattern artifactId, mem_cons_self, ?_⟩
        rw [hkey]
        exact artifactPattern_cacheKey haccepts hplain htag hconcerns
      · exact ⟨contentPattern, mem_cons_of_mem _ mem_cons_self, contentPattern_contentKey hkey⟩
    | modelVersion provider model =>
      refine ⟨modelVersionPattern provider model, mem_cons_self, ?_⟩
      have hvalue : call.modelVersion = provider ++ ':' :: model := hconcerns
      apply version_found hkey _ (by decide) _ (all_iff_forall_prop.mp (by decide)) _
      · rw [← hvalue]
        simp [VerifyCall.tags]
      · simp
      · simp [hplain.1, hplain.2]
    | promptVersion version =>
      refine ⟨promptVersionPattern version, mem_cons_self, ?_⟩
      obtain ⟨hvalue, hne⟩ := hconcerns
      apply version_found hkey _ (by decide) hne (all_iff_forall_prop.mp (by decide)) hplain
      rw [← hvalue]
      simp [VerifyCall.tags]

/-- An invalidation leaves none exactly if it finds all; it finds all of a plain id or version. -/
theorem leavesNone_iff (hhex : ∀ t, '-' ∉ sha256 t) (numerals : Numerals Num) (invalidation : Invalidation)
    (entries : List (CacheEntry Num)) (haccepts : invalidation.Accepts)
    (hwritten : ∀ entry ∈ entries, entry.IsWritten sha256 numerals) : (invalidation.LeavesNone entries ↔
      ∀ entry ∈ entries, invalidation.Concerns entry.origin → invalidation.Finds entry) ∧
    (invalidation.IsPlain → invalidation.LeavesNone entries) := by
  have hiff : invalidation.LeavesNone entries ↔
      ∀ entry ∈ entries, invalidation.Concerns entry.origin → invalidation.Finds entry := by
    constructor
    · intro h entry hentry hconcerns
      by_contra hfinds
      exact h entry ((mem_apply_iff hhex haccepts (hwritten entry hentry) hconcerns).mpr ⟨hentry, hfinds⟩) hconcerns
    · intro h entry happly hconcerns
      have hentry : entry ∈ entries := (mem_foldl_delete.mp happly).1
      exact ((mem_apply_iff hhex haccepts (hwritten entry hentry) hconcerns).mp happly).2 (h entry hentry hconcerns)
  exact ⟨hiff, fun hplain => hiff.mpr fun entry hentry hconcerns =>
    finds_of_plain haccepts hplain (hwritten entry hentry) hconcerns⟩

end Tags

def floodEntry (sha256 : Text → Text) (artifactIds : List Text) : CacheEntry ℕ where
  key := (floodClaim (String.ofList (artifactTagOf artifactIds)) "").cacheKey sha256 Numerals.nat
  origin := .verification (floodClaim (String.ofList (artifactTagOf artifactIds)) "") artifactIds

theorem floodEntry_written (sha256 : Text → Text) (artifactIds : List Text) :
    (floodEntry sha256 artifactIds).IsWritten sha256 Numerals.nat :=
  ⟨String.toList_ofList, .inl rfl⟩

def twoArtifactsDigest (_ : Text) : Text := "1e9c742d6531965814be91cdd18b69f02b23bddd7e8b79b6b7820143db29cc08".toList

theorem leavesNone_iff_twoArtifacts :
    (Invalidation.artifact "a1".toList).LeavesNone [floodEntry twoArtifactsDigest ["a2".toList, "a1".toList]] := by
  have haccepts : IsArtifactId "a1".toList := ⟨by decide, by decide, by decide, by decide⟩
  have hwritten : ∀ entry ∈ [floodEntry twoArtifactsDigest ["a2".toList, "a1".toList]],
      entry.IsWritten twoArtifactsDigest Numerals.nat := by
    intro entry hentry
    rw [mem_singleton.mp hentry]
    exact floodEntry_written _ _
  have hhex : ∀ t, '-' ∉ twoArtifactsDigest t := by
    intro t
    change '-' ∉ "1e9c742d6531965814be91cdd18b69f02b23bddd7e8b79b6b7820143db29cc08".toList
    decide
  have hplain : ∀ c ∈ "a1".toList, c ≠ '[' ∧ c ≠ ']' ∧ c ≠ ':' :=
    all_iff_forall_prop.mp (by decide)
  exact (leavesNone_iff hhex Numerals.nat (.artifact "a1".toList) _ haccepts hwritten).2 hplain

def taskId : Text := "123e4567-e89b-42d3-a456-426614174000".toList

def taskDigest (_ : Text) : Text := "585de19c9aaf4bb38cd261c6ac9ca96d8dbdabc8b84a9b5d76434b66b2fe7962".toList

def colonDigest (_ : Text) : Text := "2ffba77d54a0a83019d799a55edc7d2ae695db2eb78783b211c483d4da17c0e1".toList

theorem invalidation_misses :
    ¬ (Invalidation.taskStatus taskId).LeavesNone [(⟨taskStatusKey taskDigest Numerals.nat taskId, .task taskId⟩ : CacheEntry ℕ)] ∧
      ¬ (Invalidation.artifact "a:b".toList).LeavesNone [floodEntry colonDigest ["a:b".toList]] := by
  constructor
  · intro h
    refine h _ (mem_foldl_delete.mpr ⟨mem_cons_self, ?_⟩) rfl
    decide +kernel
  · intro h
    refine h _ (mem_foldl_delete.mpr ⟨mem_cons_self, ?_⟩) mem_cons_self
    decide +kernel

end Soter.AiCache
