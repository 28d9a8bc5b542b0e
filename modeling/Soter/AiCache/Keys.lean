import Soter.Lib.PyJson
import Soter.AiCache.SingleFlight

/-! The keys of the AI cache (`_generate_key` and `_resolve_keys` of `services/cache.py`), and those of the verifications
(`_verify_claim_cached` of `api/v1/humanitarian.py`). -/
namespace Soter.AiCache
open Soter.Json (Text Value Numerals)
open Soter.PyJson List

section Keys

def isTagSeparator (c : Char) : Bool := c ∈ ['*', '?', '[', ']', ':']

def sanitizeTagValue (value : Text) : Text := value.map fun c => if isTagSeparator c then '_' else c

/-- `name=value` with a colon before it. -/
def tagText (tag : Text × Text) : Text := ':' :: (tag.1 ++ '=' :: sanitizeTagValue tag.2)

def tagSegment (tags : List (Text × Text)) : Text := ((sortKeys tags).filter (·.2 ≠ [])).flatMap tagText

variable {Num : Type}

/-- The pairs of `sorted(kwargs.items())` are written as lists. -/
def keyData (args : List (Value Num)) (kwargs : List (Text × Value Num)) : Value Num :=
  .obj [("args".toList, .arr args), ("kwargs".toList, .arr ((sortKeys kwargs).map fun m => .arr [.str m.1, m.2]))]

variable (sha256 : Text → Text) (numerals : Numerals Num)

def generateKey (part : String) (args : List (Value Num)) (tags : List (Text × Text)) (kwargs : List (Text × Value Num)) :
    Text :=
  "cache:ai:".toList ++ (part.toList ++ (tagSegment tags ++ ':' :: sha256 (dumps numerals (keyData args kwargs))))

end Keys

/-- A call of `_verify_claim_cached` by the endpoint: everything but the service is passed by name. The service is written
as `str` writes it. -/
structure VerifyCall (Num : Type) where
  service : Text
  aidClaim : Text
  supportingEvidence : List Text
  contextFactors : List (Text × Value Num)
  providerPreference : Text
  timeout : Option Num
  modelVersion : Text
  artifactTag : Text
  orgId : Text
  promptVersion : Text
  contentHash : Text
  contextFactors_wf : (Value.obj contextFactors).WF

namespace VerifyCall
variable {Num : Type} (c : VerifyCall Num)

def kwargs : List (Text × Value Num) :=
  [("aid_claim".toList, .str c.aidClaim),
    ("supporting_evidence".toList, .arr (c.supportingEvidence.map .str)),
    ("context_factors".toList, .obj c.contextFactors),
    ("provider_preference".toList, .str c.providerPreference),
    ("timeout".toList, c.timeout.elim .null .num),
    ("model_version".toList, .str c.modelVersion),
    ("artifact_tag".toList, .str c.artifactTag),
    ("org_id".toList, .str c.orgId),
    ("prompt_version".toList, .str c.promptVersion),
    ("content_hash".toList, .str c.contentHash)]

/-- `_resolve_tags` with the `key_tags` of the verification. -/
def tags : List (Text × Text) :=
  [("model_version".toList, c.modelVersion), ("artifact_tag".toList, c.artifactTag), ("org_id".toList, c.orgId),
    ("prompt_version".toList, c.promptVersion)]

def primaryKwargs : List (Text × Value Num) := c.kwargs.filter (·.1 ≠ "content_hash".toList)

def contentKwargs : List (Text × Value Num) := c.primaryKwargs.filter (·.1 ≠ "artifact_tag".toList)

def contentTags : List (Text × Text) := c.tags.filter (·.1 ≠ "artifact_tag".toList) ++ [("content_hash".toList, c.contentHash)]

variable (sha256 : Text → Text) (numerals : Numerals Num)

def cacheKey : Text := generateKey sha256 numerals "humanitarian_verification" [.str c.service] c.tags c.primaryKwargs

def contentKey : Option Text :=
  if c.contentHash = [] then none
  else some (generateKey sha256 numerals "humanitarian_verification" [.str c.service] c.contentTags c.contentKwargs)

end VerifyCall

/-- `_verify_claim_cached` -/
def verifyClaimCached {Num V Raw : Type} (sha256 : Text → Text) (numerals : Numerals Num) (enabled : Bool)
    (dumps : V → Option Raw) (loads : Raw → Option V) : CachedFunction (VerifyCall Num) Text V Raw where
  enabled := enabled
  cacheKey c := c.cacheKey sha256 numerals
  contentKey c := c.contentKey sha256 numerals
  dumps := dumps
  loads := loads

section Separation
variable {Num : Type} {sha256 : Text → Text} {numerals : Numerals Num} {part : String} {args args' : List (Value Num)}
  {tags tags' : List (Text × Text)} {kwargs kwargs' : List (Text × Value Num)}

theorem sanitizeTagValue_plain (value : Text) : ∀ c ∈ sanitizeTagValue value, isTagSeparator c = false := by
  intro c hc
  obtain ⟨d, -, rfl⟩ := mem_map.mp hc
  split
  · rfl
  · rename_i hplain
    simpa using hplain

theorem tags_head (tags : List (Text × Text)) : ∀ x ∈ (tags.flatMap tagText).head?, x = ':' := by
  intro x hx
  cases tags with
  | nil => cases hx
  | cons tag tags =>
    simp only [tagText, flatMap_cons, cons_append, head?_cons, Option.mem_some_iff] at hx
    exact hx.symm

theorem sanitizeTagValue_of_plain {value : Text} (h : ∀ c ∈ value, isTagSeparator c = false) : sanitizeTagValue value = value := by
  conv_rhs => rw [← map_id value]
  apply map_congr_left
  intro c hc
  rw [h c hc]
  rfl

theorem last_colon {before before' after after' : Text} (hafter : ':' ∉ after) (hafter' : ':' ∉ after')
    (h : before ++ ':' :: after = before' ++ ':' :: after') : before = before' ∧ after = after' := by
  have hlonger : ∀ {t rest rest' : Text}, ':' ∉ rest → ':' :: rest = t ++ ':' :: rest' → t = [] := by
    intro t rest rest' hrest heq
    cases t with
    | nil => rfl
    | cons c t =>
      rw [cons_append, cons.injEq] at heq
      exact absurd (heq.2 ▸ mem_append_right t mem_cons_self) hrest
  rcases append_eq_append_iff.mp h with ⟨t, hbefore, heq⟩ | ⟨t, hbefore, heq⟩
  · cases hlonger hafter heq
    rw [append_nil] at hbefore
    exact ⟨hbefore.symm, (cons.inj heq).2⟩
  · cases hlonger hafter' heq
    rw [append_nil] at hbefore
    exact ⟨hbefore, ((cons.inj heq).2).symm⟩

theorem generateKey_inj (hsha : Function.Injective sha256) (hplain : ∀ t, ':' ∉ sha256 t)
    (h : generateKey sha256 numerals part args tags kwargs = generateKey sha256 numerals part args' tags' kwargs') :
    tagSegment tags = tagSegment tags' ∧
      dumps numerals (keyData args kwargs) = dumps numerals (keyData args' kwargs') := by
  have hrest := append_cancel_left (append_cancel_left h)
  obtain ⟨htags, hhash⟩ := last_colon (hplain _) (hplain _) hrest
  exact ⟨htags, hsha hhash⟩

theorem generateKey_eq : generateKey sha256 numerals part args tags kwargs =
    "cache:ai:".toList ++ (part.toList ++ (tagSegment tags ++ ':' :: sha256 (dumps numerals (keyData args kwargs)))) := rfl

theorem generateKey_congr (htags : tagSegment tags = tagSegment tags') (hkwargs : kwargs = kwargs') :
    generateKey sha256 numerals part args tags kwargs = generateKey sha256 numerals part args tags' kwargs' := by
  rw [generateKey_eq, generateKey_eq, htags, hkwargs]

def orderedValues (kwargs : List (Text × Value Num)) : List (Text × Value Num) :=
  (sortKeys kwargs).map fun m => (m.1, ordered m.2)

theorem keyData_inj (h : dumps numerals (keyData args kwargs) = dumps numerals (keyData args' kwargs')) :
    orderedValues kwargs = orderedValues kwargs' := by
  have hnone : Json.Delimited [] := fun c hc => absurd hc (Option.not_mem_none c)
  have htext : written numerals (ordered (keyData args kwargs)) ++ [] =
      written numerals (ordered (keyData args' kwargs')) ++ [] := congrArg (· ++ []) h
  have hordered := (written_append_inj _ _ hnone hnone htext).1
  have hdata : ∀ (args : List (Value Num)) (kwargs : List (Text × Value Num)), ordered (keyData args kwargs) =
      .obj [("args".toList, .arr (orderedItems args)),
        ("kwargs".toList, .arr (orderedItems ((sortKeys kwargs).map fun m => .arr [.str m.1, m.2])))] := fun _ _ => rfl
  simp only [hdata, Value.obj.injEq, cons.injEq, Prod.mk.injEq, Value.arr.injEq, orderedItems_eq, map_map] at hordered
  have hpairs : (orderedValues kwargs).map (fun m => Value.arr [.str m.1, m.2]) =
      (orderedValues kwargs').map fun m => Value.arr [.str m.1, m.2] := by
    rw [orderedValues, orderedValues, map_map, map_map]
    exact hordered.2.1.2
  apply map_injective_iff.mpr _ hpairs
  rintro ⟨k, v⟩ ⟨k', v'⟩ hpair
  simp only [Value.arr.injEq, cons.injEq, Value.str.injEq, and_true] at hpair
  rw [hpair.1, hpair.2]

end Separation
end Soter.AiCache
