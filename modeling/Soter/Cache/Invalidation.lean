import Soter.Lib.Glob
import Soter.Cache.Separation

/-! `CacheInvalidationService` (`cache-invalidation.service.ts`) and what it leaves in the cache. -/
namespace Soter.Cache
open Soter.Json Soter.Glob

section Patterns
variable {Num : Type} (matchPattern : Text → Text → Bool)

/-- `redisService.scanKeys`. -/
def scanKeys (pattern : Text) (s : Store Num) : List Text :=
  (s.entries.map (·.key)).filter (matchPattern pattern)

/-- `redisService.delByPattern`, with the number of keys that are deleted. -/
def delByPattern (pattern : Text) (s : Store Num) : ℕ × Store Num :=
  if s.weather.redisUp then
    ((scanKeys matchPattern pattern s).length,
      { s with entries := s.entries.filter (·.key ∉ scanKeys matchPattern pattern s) })
  else (0, s)

def invalidatePatterns : List Text → Store Num → ℕ × Store Num
  | [], s => (0, s)
  | pattern :: patterns, s =>
    ((delByPattern matchPattern pattern s).1 +
        (invalidatePatterns patterns (delByPattern matchPattern pattern s).2).1,
      (invalidatePatterns patterns (delByPattern matchPattern pattern s).2).2)

def responses (part : String) (id : Text) : Text :=
  "cache:response:".toList ++ '*' :: (part.toList ++ (id ++ ['*']))

def invalidateVerification (verificationId : Text) (s : Store Num) : Store Num :=
  (invalidatePatterns matchPattern
    [responses "verification" ('*' :: verificationId), responses "verification/" verificationId,
      responses "claims/" verificationId] s).2

def invalidateAidPackage (packageId : Text) (s : Store Num) : Store Num :=
  (invalidatePatterns matchPattern
    [responses "packages/" packageId, responses "aid-escrow" ('*' :: packageId)] s).2

def invalidateTransaction (txHash : Text) (s : Store Num) : Store Num :=
  (invalidatePatterns matchPattern
    [responses "transactions/" txHash, responses "transaction" ('*' :: txHash)] s).2

end Patterns
section Reach
variable {Num : Type} {matchPattern : Text → Text → Bool} {sha256 : Text → Text} {numerals : Numerals Num}
  {s : Store Num} {e : Entry Num} {id : Text}

inductive Subject
  | verification
  | aidPackage
  | transaction

variable (matchPattern) in
def Subject.invalidate : Subject → Text → Store Num → Store Num
  | .verification => invalidateVerification matchPattern
  | .aidPackage => invalidateAidPackage matchPattern
  | .transaction => invalidateTransaction matchPattern

/-- The paths of the responses about a subject, behind the common beginning of all paths. -/
def Subject.Path : Subject → Text → Text → Prop
  | .verification, id, path => ∃ root, path = root ++ ("/verification/claims/".toList ++ id) ∨
      path = root ++ ("/verification/".toList ++ id)
  | .aidPackage, id, path => ∃ root rest, path = root ++ ("/aid-escrow/packages/".toList ++ (id ++ rest))
  | .transaction, id, path => ∃ root rest, path = root ++ ("/transactions/".toList ++ (id ++ rest))

variable (sha256 numerals) in
def Entry.Cached (e : Entry Num) : Prop :=
  ∃ options : CacheResponseOptions Num, options.keyGenerator = none ∧ options.namespacing = none ∧
    e.key = generateCacheKey sha256 numerals options e.origin

variable (sha256 numerals) in
def Store.Holds (subject : Subject) (id : Text) (s : Store Num) : Prop :=
  ∃ e ∈ s.entries, e.Cached sha256 numerals ∧ subject.Path id e.origin.path

def isHex (c : Char) : Bool := c.isDigit || ('a' ≤ c && c ≤ 'f')

theorem Entry.Cached.key_eq (h : e.Cached sha256 numerals) : ∃ t, e.key = "cache:response:".toList ++ sha256 t := by
  obtain ⟨options, hgen, hnamespacing, hkey⟩ := h
  refine ⟨rawKey numerals options e.origin, ?_⟩
  rw [hkey, generateCacheKey, hgen, hnamespacing]
  rfl

theorem Entry.Cached.unmatched (laws : Laws matchPattern) (hhex : ∀ t, ∀ c ∈ sha256 t, isHex c = true)
    (h : e.Cached sha256 numerals) {part : String} (hplain : ∀ c ∈ part.toList, isSpecial c = false)
    {c : Char} (hc : c ∈ part.toList) (hnothex : isHex c = false) :
    matchPattern (responses part id) e.key = false := by
  by_contra hmatch
  rw [Bool.not_eq_false] at hmatch
  obtain ⟨t, hkey⟩ := h.key_eq
  have hbegin : ∀ c ∈ "cache:response:".toList, isSpecial c = false := List.all_iff_forall_prop.mp (by decide)
  obtain ⟨rest, hrest, hstar⟩ := (laws.literal hbegin).mp hmatch
  rw [hkey] at hrest
  have hpart : part.toList <:+: sha256 t := by
    rw [List.append_cancel_left hrest]
    exact laws.infix_of_star hplain hstar
  rw [hhex t c (hpart.subset hc)] at hnothex
  cases hnothex

theorem mem_invalidatePatterns : ∀ {patterns : List Text} {s : Store Num},
    e ∈ s.entries → (∀ pattern ∈ patterns, matchPattern pattern e.key = false) →
      e ∈ (invalidatePatterns matchPattern patterns s).2.entries
  | [], _, he, _ => he
  | pattern :: patterns, s, he, h => by
    obtain ⟨hpattern, hpatterns⟩ := List.forall_mem_cons.mp h
    rw [invalidatePatterns]
    refine mem_invalidatePatterns ?_ hpatterns
    rw [delByPattern]
    split
    · refine List.mem_filter.mpr ⟨he, decide_eq_true fun hmem => ?_⟩
      rw [(List.mem_filter.mp hmem).2] at hpattern
      cases hpattern
    · exact he

theorem of_mem_invalidatePatterns : ∀ {patterns : List Text} {s : Store Num},
    e ∈ (invalidatePatterns matchPattern patterns s).2.entries → e ∈ s.entries
  | [], _, h => h
  | pattern :: patterns, s, h => by
    rw [invalidatePatterns] at h
    have h := of_mem_invalidatePatterns h
    rw [delByPattern] at h
    split at h
    · exact List.mem_of_mem_filter h
    · exact h

theorem Entry.Cached.stays (laws : Laws matchPattern) (hhex : ∀ t, ∀ c ∈ sha256 t, isHex c = true)
    (h : e.Cached sha256 numerals) (he : e ∈ s.entries) (subject : Subject) :
    e ∈ (subject.invalidate matchPattern id s).entries := by
  have hunmatched : ∀ (part : String) (id : Text), (part.toList.all fun c => isSpecial c = false) = true →
      (part.toList.any fun c => isHex c = false) = true → matchPattern (responses part id) e.key = false := by
    intro part id hplain hany
    obtain ⟨c, hc, hnothex⟩ := List.any_iff_exists_prop.mp hany
    exact h.unmatched laws hhex (List.all_iff_forall_prop.mp hplain) hc hnothex
  cases subject with
  | verification =>
    apply mem_invalidatePatterns he
    simp only [List.forall_mem_cons]
    exact ⟨hunmatched _ _ (by decide) (by decide), hunmatched _ _ (by decide) (by decide),
      hunmatched _ _ (by decide) (by decide), by simp⟩
  | aidPackage =>
    apply mem_invalidatePatterns he
    simp only [List.forall_mem_cons]
    exact ⟨hunmatched _ _ (by decide) (by decide), hunmatched _ _ (by decide) (by decide), by simp⟩
  | transaction =>
    apply mem_invalidatePatterns he
    simp only [List.forall_mem_cons]
    exact ⟨hunmatched _ _ (by decide) (by decide), hunmatched _ _ (by decide) (by decide), by simp⟩

theorem of_mem_invalidate {subject : Subject} (h : e ∈ (subject.invalidate matchPattern id s).entries) :
    e ∈ s.entries := by
  cases subject with
  | verification | aidPackage | transaction => exact of_mem_invalidatePatterns h

/-- An invalidation leaves no response about its subject exactly when there was none before. -/
theorem invalidate_leaves_none_iff (laws : Laws matchPattern)
    (hhex : ∀ t, ∀ c ∈ sha256 t, isHex c = true) (subject : Subject) (id : Text) (s : Store Num) :
    ¬ (subject.invalidate matchPattern id s).Holds sha256 numerals subject id ↔
      ¬ s.Holds sha256 numerals subject id := by
  apply not_congr
  constructor
  · rintro ⟨e, he, hcached, hpath⟩
    exact ⟨e, of_mem_invalidate he, hcached, hpath⟩
  · rintro ⟨e, he, hcached, hpath⟩
    exact ⟨e, hcached.stays laws hhex he subject, hcached, hpath⟩

/-- SHA-256 on the raw key of `GET /verification/claims/:id`. -/
def claimHash (_ : Text) : Text := "3d6ac6fbe2c7f53e9e8a8b1fee4fd00752180321a7e5b2e2063c02b1e17035ee".toList

theorem claimHash_hex (t : Text) : ∀ c ∈ claimHash t, isHex c = true := by
  change ∀ c ∈ "3d6ac6fbe2c7f53e9e8a8b1fee4fd00752180321a7e5b2e2063c02b1e17035ee".toList, isHex c = true
  exact List.all_iff_forall_prop.mp (by decide)

def claimEntry (id : String) : Entry ℕ where
  key := generateCacheKey claimHash Numerals.nat claimOptions (getClaim id)
  response := .str id.toList
  expiresAt := 60000
  origin := getClaim id

theorem invalidate_leaves_none_iff_claim :
    ¬ (Subject.verification.invalidate globMatch "a".toList { entries := [claimEntry "b"] }).Holds claimHash
        Numerals.nat .verification "a".toList ↔
      ¬ ({ entries := [claimEntry "b"] } : Store ℕ).Holds claimHash Numerals.nat .verification "a".toList :=
  invalidate_leaves_none_iff globMatch_laws claimHash_hex .verification "a".toList { entries := [claimEntry "b"] }

theorem invalidateVerification_leaves :
    (invalidateVerification globMatch "a".toList { entries := [claimEntry "a"] }).Holds claimHash Numerals.nat
      .verification "a".toList := by
  have hcached : (claimEntry "a").Cached claimHash Numerals.nat := ⟨claimOptions, rfl, rfl, rfl⟩
  refine ⟨claimEntry "a", hcached.stays globMatch_laws claimHash_hex List.mem_cons_self .verification, hcached,
    "/api/v1".toList, .inl ?_⟩
  rfl

end Reach
end Soter.Cache
