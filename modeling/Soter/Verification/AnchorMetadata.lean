import Mathlib.Data.List.Induction
import Soter.Claims.Records
import Soter.Lib.JsonSpread

/-! The column `Claim.anchorMetadata` (`verification-result.persistence.ts`): what `processVerification` writes
to it for a job, and what is read of it. A column is read back as the JSON that was written. -/
namespace Soter.Verification.Anchors
open Soter.Json Soter.Claims

abbrev Column := Value ℚ

def asRecord : Column → Option (List (Text × Column))
  | .obj members => some members
  | _ => none

def asString : Column → Option Text
  | .str text => some text
  | _ => none

def asNumber : Column → Option ℚ
  | .num q => some q
  | _ => none

def asStringArray : Option Column → List Text
  | some (.arr items) => items.filterMap asString
  | _ => []

inductive RiskLevel
  | low
  | medium
  | high
  deriving DecidableEq

def RiskLevel.text : RiskLevel → Text
  | .low => "low".toList
  | .medium => "medium".toList
  | .high => "high".toList

def asRiskLevel (value : Option Column) : Option RiskLevel :=
  [RiskLevel.low, .medium, .high].find? fun level => value.bind asString = some level.text

structure AnchorMetadata where
  campaignRef : Option (Option Text) := none
  claimId : Option (Option Text) := none
  packageId : Option (Option Text) := none
  contractId : Option (Option Text) := none

inductive AnchorField
  | campaignRef
  | claimId
  | packageId
  | contractId
  deriving DecidableEq

def AnchorField.key : AnchorField → Text
  | .campaignRef => "campaignRef".toList
  | .claimId => "claimId".toList
  | .packageId => "packageId".toList
  | .contractId => "contractId".toList

/-- `anchor.field ?? null`. -/
def AnchorMetadata.orNull (anchor : AnchorMetadata) : AnchorField → Option Text
  | .campaignRef => anchor.campaignRef.join
  | .claimId => anchor.claimId.join
  | .packageId => anchor.packageId.join
  | .contractId => anchor.contractId.join

/-- What `enqueueVerification` puts into the job. -/
def AnchorMetadata.enqueued (anchor : AnchorMetadata) : AnchorMetadata where
  campaignRef := some (anchor.orNull .campaignRef)
  claimId := some (anchor.orNull .claimId)
  packageId := some (anchor.orNull .packageId)
  contractId := some (anchor.orNull .contractId)

structure Details where
  factors : Option Column := none
  riskLevel : Option Column := none
  recommendations : Option Column := none

structure VerificationResult where
  score : ℚ
  confidence : ℚ
  details : Option Details
  processedAt : Option Time

structure CompletedJob where
  anchorMetadata : Option AnchorMetadata
  result : VerificationResult
  now : Time

structure PersistedVerificationResult where
  passed : Bool
  score : ℚ
  confidence : ℚ
  riskLevel : Option RiskLevel
  factors : List Text
  recommendations : List Text
  threshold : ℚ
  completedAt : Text
  deriving DecidableEq

section Persistence
variable (toISOString : Time → Text) (threshold : ℚ)

def claimVerificationKey : Text := "verification".toList

def textOrNull : Option Text → Column
  | some text => .str text
  | none => .null

def toPersistedVerificationResult (result : VerificationResult) (now : Time) : List (Text × Column) :=
  [("passed".toList, .bool (threshold ≤ result.score)),
    ("score".toList, .num result.score),
    ("confidence".toList, .num result.confidence),
    ("riskLevel".toList, textOrNull ((asRiskLevel (result.details.bind (·.riskLevel))).map RiskLevel.text)),
    ("factors".toList, .arr ((asStringArray (result.details.bind (·.factors))).map .str)),
    ("recommendations".toList, .arr ((asStringArray (result.details.bind (·.recommendations))).map .str)),
    ("threshold".toList, .num threshold),
    ("completedAt".toList, .str (toISOString (result.processedAt.getD now)))]

def readPersistedVerificationResult (anchorMetadata : Column) : Option PersistedVerificationResult := do
  let metadata ← asRecord anchorMetadata
  let record ← (metadata.lookup claimVerificationKey).bind asRecord
  let score ← (record.lookup "score".toList).bind asNumber
  let completedAt ← (record.lookup "completedAt".toList).bind asString
  return {
    passed := match record.lookup "passed".toList with
      | some (.bool true) => true
      | _ => false
    score := score
    confidence := ((record.lookup "confidence".toList).bind asNumber).getD 0
    riskLevel := asRiskLevel (record.lookup "riskLevel".toList)
    factors := asStringArray (record.lookup "factors".toList)
    recommendations := asStringArray (record.lookup "recommendations".toList)
    threshold := ((record.lookup "threshold".toList).bind asNumber).getD 0
    completedAt := completedAt }

def mergeClaimAnchorMetadata (existing : Column) (anchor : Option (List (Text × Column)))
    (verification : List (Text × Column)) : Column :=
  .obj (setMember (spread ((asRecord existing).getD []) (anchor.getD []))
    (claimVerificationKey, .obj verification))

/-- `anchorMetadataToPersist`. -/
def AnchorMetadata.toPersist (anchor : AnchorMetadata) : List (Text × Column) :=
  [AnchorField.campaignRef, .claimId, .packageId, .contractId].map fun field =>
    (field.key, textOrNull (anchor.orNull field))

structure ClaimColumns where
  status : ClaimStatus
  anchorMetadata : Column

/-- The write of `processVerification`. -/
def persist (claim : ClaimColumns) (job : CompletedJob) : ClaimColumns where
  status := if threshold ≤ job.result.score then .verified else .requested
  anchorMetadata := mergeClaimAnchorMetadata claim.anchorMetadata
    (job.anchorMetadata.map AnchorMetadata.toPersist)
    (toPersistedVerificationResult toISOString threshold job.result job.now)

def persistAll (claim : ClaimColumns) (jobs : List CompletedJob) : ClaimColumns :=
  jobs.foldl (persist toISOString threshold) claim

end Persistence
section Outcome
variable {toISOString : Time → Text} {threshold : ℚ}

def outcome (toISOString : Time → Text) (threshold : ℚ) (job : CompletedJob) :
    PersistedVerificationResult where
  passed := threshold ≤ job.result.score
  score := job.result.score
  confidence := job.result.confidence
  riskLevel := asRiskLevel (job.result.details.bind (·.riskLevel))
  factors := asStringArray (job.result.details.bind (·.factors))
  recommendations := asStringArray (job.result.details.bind (·.recommendations))
  threshold := threshold
  completedAt := toISOString (job.result.processedAt.getD job.now)

theorem asRiskLevel_text (level : Option RiskLevel) :
    asRiskLevel (some (textOrNull (level.map RiskLevel.text))) = level := by
  cases level with
  | none => rfl
  | some level => cases level <;> decide

theorem asStringArray_strings (texts : List Text) : asStringArray (some (.arr (texts.map .str))) = texts := by
  rw [asStringArray, List.filterMap_map]
  exact List.filterMap_some

theorem lookup_toPersisted (toISOString : Time → Text) (threshold : ℚ) (result : VerificationResult)
    (now : Time) : let record := toPersistedVerificationResult toISOString threshold result now
    record.lookup "passed".toList = some (.bool (threshold ≤ result.score)) ∧
      record.lookup "score".toList = some (.num result.score) ∧
      record.lookup "confidence".toList = some (.num result.confidence) ∧ record.lookup "riskLevel".toList =
        some (textOrNull ((asRiskLevel (result.details.bind (·.riskLevel))).map RiskLevel.text)) ∧
      record.lookup "factors".toList = some (.arr ((asStringArray (result.details.bind (·.factors))).map .str)) ∧
      record.lookup "recommendations".toList =
        some (.arr ((asStringArray (result.details.bind (·.recommendations))).map .str)) ∧
      record.lookup "threshold".toList = some (.num threshold) ∧
      record.lookup "completedAt".toList = some (.str (toISOString (result.processedAt.getD now))) :=
  ⟨rfl, rfl, rfl, rfl, rfl, rfl, rfl, rfl⟩

theorem read_toPersisted (ms : List (Text × Column)) (job : CompletedJob) :
    readPersistedVerificationResult (.obj (setMember ms (claimVerificationKey,
      .obj (toPersistedVerificationResult toISOString threshold job.result job.now)))) =
        some (outcome toISOString threshold job) := by
  obtain ⟨hpassed, hscore, hconfidence, hrisk, hfactors, hrecommendations, hthreshold, hcompleted⟩ :=
    lookup_toPersisted toISOString threshold job.result job.now
  rw [readPersistedVerificationResult]
  simp only [asRecord, Option.bind_eq_bind, Option.bind_some, lookup_setMember, if_true, hpassed, hscore,
    hconfidence, hrisk, hfactors, hrecommendations, hthreshold, hcompleted, asNumber, asString,
    asRiskLevel_text, asStringArray_strings, Option.getD_some]
  rw [outcome]
  by_cases h : threshold ≤ job.result.score
  · simp only [h, decide_true]
    rfl
  · simp only [h, decide_false]
    rfl

end Outcome
section Anchors
variable {toISOString : Time → Text} {threshold : ℚ} {claim : ClaimColumns} {done : List CompletedJob}
  {job : CompletedJob} {f : AnchorField} {named : Set AnchorField}

def CompletedJob.supplies (job : CompletedJob) (f : AnchorField) : Prop :=
  ∃ text, job.anchorMetadata.bind (·.orNull f) = some text

def member (column : Column) (k : Text) : Option Column := (asRecord column).bind (·.lookup k)

def NonNull (column : Column) (f : AnchorField) : Prop :=
  ∃ value, member column f.key = some value ∧ value ≠ .null

theorem AnchorField.key_ne_verification (f : AnchorField) : f.key ≠ claimVerificationKey := by
  cases f <;> decide

theorem toPersist_keys_nodup (anchor : AnchorMetadata) : (anchor.toPersist.map Prod.fst).Nodup := by
  rw [AnchorMetadata.toPersist, List.map_map]
  change ([AnchorField.campaignRef, .claimId, .packageId, .contractId].map AnchorField.key).Nodup
  decide

theorem mem_toPersist (anchor : AnchorMetadata) (f : AnchorField) :
    (f.key, textOrNull (anchor.orNull f)) ∈ anchor.toPersist := by
  apply List.mem_map_of_mem
  cases f <;> decide

theorem not_mem_toPersist {k : Text} (anchor : AnchorMetadata) (h : ∀ f : AnchorField, k ≠ f.key) :
    k ∉ anchor.toPersist.map Prod.fst := by
  rw [AnchorMetadata.toPersist, List.map_map, List.mem_map]
  rintro ⟨f, -, hf⟩
  exact h f hf.symm

theorem member_persist_of_ne {k : Text} (hk : ∀ f : AnchorField, k ≠ f.key) (hv : k ≠ claimVerificationKey) :
    member (persist toISOString threshold claim job).anchorMetadata k = member claim.anchorMetadata k := by
  have hanchor : k ∉ ((job.anchorMetadata.map AnchorMetadata.toPersist).getD []).map Prod.fst := by
    cases job.anchorMetadata with
    | none => exact List.not_mem_nil
    | some anchor => exact not_mem_toPersist anchor hk
  calc
    member (persist toISOString threshold claim job).anchorMetadata k
    _ = (spread ((asRecord claim.anchorMetadata).getD [])
          ((job.anchorMetadata.map AnchorMetadata.toPersist).getD [])).lookup k := by
        rw [persist, mergeClaimAnchorMetadata, member, asRecord, Option.bind_some, lookup_setMember, if_neg hv]
    _ = ((asRecord claim.anchorMetadata).getD []).lookup k := lookup_spread_of_not_mem _ _ hanchor
    _ = member claim.anchorMetadata k := by
        rw [member]
        cases asRecord claim.anchorMetadata <;> rfl

theorem member_persist_of_none (hnone : job.anchorMetadata = none) (f : AnchorField) :
    member (persist toISOString threshold claim job).anchorMetadata f.key =
      member claim.anchorMetadata f.key := by
  rw [persist, mergeClaimAnchorMetadata, member, asRecord, Option.bind_some, lookup_setMember,
    if_neg f.key_ne_verification, hnone, member]
  cases asRecord claim.anchorMetadata <;> rfl

theorem member_persist_of_some {anchor : AnchorMetadata} (hsome : job.anchorMetadata = some anchor)
    (f : AnchorField) : member (persist toISOString threshold claim job).anchorMetadata f.key =
      some (textOrNull (anchor.orNull f)) := by
  rw [persist, mergeClaimAnchorMetadata, member, asRecord, Option.bind_some, lookup_setMember,
    if_neg f.key_ne_verification, hsome]
  exact lookup_spread_of_mem _ _ (toPersist_keys_nodup anchor) (mem_toPersist anchor f)

theorem NonNull.textOrNull_iff {column : Column} {text : Option Text}
    (h : member column f.key = some (textOrNull text)) : NonNull column f ↔ ∃ t, text = some t := by
  constructor
  · intro hnon
    obtain ⟨value, hvalue, hne⟩ := hnon
    cases text with
    | none => exact absurd (Option.some.inj (hvalue.symm.trans h)) hne
    | some t => exact ⟨t, rfl⟩
  · intro ht
    obtain ⟨t, rfl⟩ := ht
    exact ⟨_, h, nofun⟩

theorem nonNull_persist_iff : NonNull (persist toISOString threshold claim job).anchorMetadata f ↔
      job.supplies f ∨ (job.anchorMetadata = none ∧ NonNull claim.anchorMetadata f) := by
  cases hanchor : job.anchorMetadata with
  | none =>
    have hsupplies : ¬ job.supplies f := by
      intro h
      obtain ⟨text, htext⟩ := h
      rw [hanchor] at htext
      cases htext
    rw [NonNull, member_persist_of_none hanchor]
    exact ⟨fun h => .inr ⟨rfl, h⟩, fun h => (h.resolve_left hsupplies).2⟩
  | some anchor =>
    have hsupplies : job.supplies f ↔ ∃ text, anchor.orNull f = some text := by
      rw [CompletedJob.supplies, hanchor, Option.bind_some]
    rw [NonNull.textOrNull_iff (member_persist_of_some hanchor f), hsupplies]
    exact ⟨.inl, fun h => h.resolve_right fun h => nomatch h.1⟩

def Resupplies (named : Set AnchorField) (done : List CompletedJob) (job : CompletedJob) : Prop :=
  ∀ f ∈ named, (∃ earlier ∈ done, earlier.supplies f) → job.anchorMetadata = none ∨ job.supplies f

theorem persistAll_append_singleton (claim : ClaimColumns) (done : List CompletedJob) (job : CompletedJob) :
    persistAll toISOString threshold claim (done ++ [job]) =
      persist toISOString threshold (persistAll toISOString threshold claim done) job := by
  rw [persistAll, List.foldl_append]
  rfl

/-- By induction on the jobs done: each write keeps the fields that the jobs before it supplied. -/
theorem nonNull_of_supplied (hf : f ∈ named) : ∀ done : List CompletedJob,
      (∀ before job after, done = before ++ job :: after → Resupplies named before job) →
      (∃ job ∈ done, job.supplies f) → NonNull (persistAll toISOString threshold claim done).anchorMetadata f := by
  intro done
  induction done using List.reverseRecOn with
  | nil =>
    intro _ hsupplied
    obtain ⟨job, hmem, -⟩ := hsupplied
    cases hmem
  | append_singleton done job ih =>
    intro hmeets hsupplied
    have hbefore : ∀ before job' after, done = before ++ job' :: after → Resupplies named before job' := by
      intro before job' after hsplit
      apply hmeets before job' (after ++ [job])
      rw [hsplit, List.append_assoc, List.cons_append]
    rw [persistAll_append_singleton, nonNull_persist_iff]
    by_cases hjob : job.supplies f
    · exact .inl hjob
    · have hearlier : ∃ earlier ∈ done, earlier.supplies f := by
        obtain ⟨earlier, hmem, hsupplies⟩ := hsupplied
        rcases List.mem_append.mp hmem with hmem | hmem
        · exact ⟨earlier, hmem, hsupplies⟩
        · exact absurd (List.mem_singleton.mp hmem ▸ hsupplies) hjob
      have hnone := (hmeets done job [] rfl f hf hearlier).resolve_right hjob
      exact .inr ⟨hnone, ih hbefore hearlier⟩

/-- What is expected of the write of a job after the jobs done: no field that a job supplied is null, the
other keys stand, and the outcome of the job is read. -/
structure AnchorsKept (toISOString : Time → Text) (threshold : ℚ) (named : Set AnchorField)
    (claim : ClaimColumns) (done : List CompletedJob) (job : CompletedJob) : Prop where
  kept : ∀ f ∈ named, (∃ supplier ∈ done ++ [job], supplier.supplies f) →
    NonNull (persistAll toISOString threshold claim (done ++ [job])).anchorMetadata f
  others : ∀ k : Text, (∀ f : AnchorField, k ≠ f.key) → k ≠ claimVerificationKey →
    member (persistAll toISOString threshold claim (done ++ [job])).anchorMetadata k =
      member (persistAll toISOString threshold claim done).anchorMetadata k
  read : ∃ result,
    readPersistedVerificationResult (persistAll toISOString threshold claim (done ++ [job])).anchorMetadata =
      some result ∧ result = outcome toISOString threshold job ∧
        (result.passed = true ↔ threshold ≤ job.result.score)

theorem Resupplies.of_kept (h : AnchorsKept toISOString threshold named claim done job) :
    Resupplies named done job := by
  intro f hf hearlier
  obtain ⟨earlier, hmem, hsupplies⟩ := hearlier
  have hnon := h.kept f hf ⟨earlier, List.mem_append_left [job] hmem, hsupplies⟩
  rw [persistAll_append_singleton, nonNull_persist_iff] at hnon
  exact hnon.symm.imp_left And.left

theorem AnchorsKept.of_nonNull (hkept : ∀ f ∈ named, (∃ supplier ∈ done ++ [job], supplier.supplies f) →
      NonNull (persistAll toISOString threshold claim (done ++ [job])).anchorMetadata f) :
    AnchorsKept toISOString threshold named claim done job where
  kept := hkept
  others k hk hv := by
    rw [persistAll_append_singleton]
    exact member_persist_of_ne hk hv
  read := by
    rw [persistAll_append_singleton]
    exact ⟨_, read_toPersisted _ job, rfl, decide_eq_true_iff⟩

/-- Over any jobs, the writes keep the anchor exactly if each job that carries anchor metadata supplies all
that the jobs before it supplied: the fields that it lacks are written as null. -/
theorem anchors_kept_iff (toISOString : Time → Text) (threshold : ℚ) (named : Set AnchorField)
    (claim : ClaimColumns) (jobs : List CompletedJob) : (∀ done job rest, jobs = done ++ job :: rest →
        AnchorsKept toISOString threshold named claim done job) ↔
      ∀ done job rest, jobs = done ++ job :: rest → Resupplies named done job := by
  constructor
  · intro h done job rest hsplit
    exact .of_kept (h done job rest hsplit)
  · intro h done job rest hsplit
    apply AnchorsKept.of_nonNull
    intro f hf
    apply nonNull_of_supplied hf
    intro before job' after hsplit'
    apply h before job' (after ++ rest)
    calc
      jobs
      _ = (done ++ [job]) ++ rest := by rw [hsplit, List.append_assoc, List.singleton_append]
      _ = before ++ job' :: (after ++ rest) := by rw [hsplit', List.append_assoc, List.cons_append]

/-- The first job names the package, the second the campaign only: the package is then null. -/
theorem anchors_kept_fails :
    let result : VerificationResult := { score := 1, confidence := 1, details := none, processedAt := none }
    let first : CompletedJob :=
      { anchorMetadata := some { packageId := some (some ['7']) }, result := result, now := 0 }
    let second : CompletedJob :=
      { anchorMetadata := some { campaignRef := some (some ['c']) }, result := result, now := 1 }
    ¬ ∀ done job rest, [first, second] = done ++ job :: rest →
      AnchorsKept (fun _ => []) 1 {.campaignRef, .claimId, .packageId}
        { status := .requested, anchorMetadata := .null } done job := by
  intro result first second h
  have hkeeps : Resupplies {.campaignRef, .claimId, .packageId} [first] second :=
    .of_kept (h [first] second [] rfl)
  have hnamed : AnchorField.packageId ∈ ({.campaignRef, .claimId, .packageId} : Set AnchorField) :=
    .inr (.inr rfl)
  rcases hkeeps .packageId hnamed ⟨first, List.mem_cons_self, ['7'], rfl⟩ with hnone | hsupplies
  · cases hnone
  · obtain ⟨text, htext⟩ := hsupplies
    cases htext

end Anchors
end Soter.Verification.Anchors
