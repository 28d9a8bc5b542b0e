import Soter.Audit.ChainUtil

/-! The `AuditLog` table and the chain service over it. Each transaction holds the lock of the chain
from its first statement on, so it is one step. -/
namespace Soter.Audit
open Soter.Json

variable {Num : Type}

abbrev JsonValue (Num : Type) := {v : Value Num // v.WF}

def JsonValue.null : JsonValue Num := ⟨.null, .null⟩
def JsonValue.empty : JsonValue Num := ⟨.obj [], .obj List.nodup_nil (by simp)⟩

structure AuditLog (Num : Type) where
  id : Text
  actorId : Text
  entity : Text
  entityId : Text
  action : Text
  timestamp : ℤ
  metadata : Option (JsonValue Num)
  deletedAt : Option ℤ := none
  sequence : Option ℤ := none
  prevHash : Option Text := none
  entryHash : Option Text := none
  metadataCanonical : Option Text := none

abbrev Table (Num : Type) := List (AuditLog Num)

/-- What the service calls: how numbers are written, the hash, the columns of type JSONB and the
order of texts. A value that JSONB takes is stored as the same value, its members in another order. -/
structure Services (Num : Type) where
  numerals : Numerals Num
  sha256 : Text → Text
  jsonb : JsonValue Num → Option (JsonValue Num)
  jsonb_same : ∀ m stored, jsonb m = some stored → stored.1.Same m.1
  collation : Text → Text → Bool

/-- `row.metadata ?? null`. -/
def AuditLog.metadataOrNull (row : AuditLog Num) : JsonValue Num := row.metadata.getD .null

/-- `where: { entryHash: { not: null } }` -/
def AuditLog.isSealed (row : AuditLog Num) : Bool := row.entryHash.isSome

/-- The order of `sequence` in the index, in which nulls come last. -/
def sequenceLE : Option ℤ → Option ℤ → Bool
  | some a, some b => a ≤ b
  | none, some _ => false
  | _, none => true

def bySequence (table : Table Num) : Table Num :=
  (table.filter (·.isSealed)).insertionSort fun r r' => sequenceLE r.sequence r'.sequence

def findHead (table : Table Num) : Option (AuditLog Num) :=
  ((table.filter (·.isSealed)).insertionSort fun r r' => sequenceLE r'.sequence r.sequence).head?

def AuditLog.entry (row : AuditLog Num) (sequence : ℤ) (metadataCanonical : Text) : Entry :=
  { id := row.id, sequence := sequence, prevHash := row.prevHash, actorId := row.actorId,
    entity := row.entity, entityId := row.entityId, action := row.action,
    timestamp := row.timestamp, metadataCanonical := metadataCanonical }

/-- `update where: { id }`, which the unique index on `sequence` may refuse. -/
def updateRow (table : Table Num) (id : Text) (f : AuditLog Num → AuditLog Num) : Option (Table Num) :=
  if table.any fun row => row.id = id ∧ (f row).sequence ≠ none ∧
      table.any fun row' => row'.id ≠ id ∧ row'.sequence = (f row).sequence then none
  else some (table.map fun row => if row.id = id then f row else row)

section Append

structure AuditLogParams (Num : Type) where
  actorId : Text
  entity : Text
  entityId : Text
  action : Text
  metadata : Option (JsonValue Num)

/-- `params.metadata ?? {}` -/
def AuditLogParams.metadataOrEmpty (params : AuditLogParams Num) : JsonValue Num :=
  match params.metadata with
  | none | some ⟨.null, _⟩ => .empty
  | some metadata => metadata

structure Appended where
  id : Text
  sequence : ℤ
  prevHash : Text
  entryHash : Text
  metadataCanonical : Text

variable (services : Services Num)

/-- `id` and `timestamp` are what the database fills in. -/
def appendInTx (table : Table Num) (params : AuditLogParams Num) (id : Text) (timestamp : ℤ) :
    Option (Table Num × Appended) :=
  let head := findHead table
  let sequence := (head.bind (·.sequence)).getD 0 + 1
  let prevHash := (head.bind (·.entryHash)).getD genesisPrevHash
  let metadata := params.metadataOrEmpty
  let metadataCanonical := canonicalMetadata services.numerals metadata.1 none
  match services.jsonb metadata with
  | none => none
  | some stored =>
    if table.any fun row => row.id = id ∨ row.sequence = some sequence then none
    else
      let created : AuditLog Num :=
        { id := id, actorId := params.actorId, entity := params.entity, entityId := params.entityId,
          action := params.action, timestamp := timestamp, metadata := some stored,
          sequence := some sequence, prevHash := some prevHash,
          metadataCanonical := some metadataCanonical }
      let entryHash := computeEntryHash services.sha256 services.numerals
        (created.entry sequence metadataCanonical)
      match updateRow (table ++ [created]) id fun row => { row with entryHash := some entryHash } with
      | none => none
      | some table => some (table, ⟨id, sequence, prevHash, entryHash, metadataCanonical⟩)

end Append
section Backfill

def backfillBatchSize : ℕ := 500

structure Sealing (Num : Type) where
  table : Table Num
  prevHash : Text
  sequence : ℤ

structure BatchResult where
  sealedCount : ℕ
  head : Option (ℤ × Text)

variable (services : Services Num)

def legacyBatch (table : Table Num) : Table Num :=
  ((table.filter (!·.isSealed)).insertionSort fun r r' => r.timestamp < r'.timestamp ∨
    r.timestamp = r'.timestamp ∧ services.collation r.id r'.id).take backfillBatchSize

def AuditLog.canonicalForm (row : AuditLog Num) : Text :=
  row.metadataCanonical.getD (canonicalMetadata services.numerals row.metadataOrNull.1 none)

/-- A legacy row with a `prevHash` aborts the batch. -/
def sealRow (s : Sealing Num) (row : AuditLog Num) : Option (Sealing Num) :=
  if row.prevHash ≠ none then none
  else
    let sequence := s.sequence + 1
    let metadataCanonical := row.canonicalForm services
    let entryHash := computeEntryHash services.sha256 services.numerals
      { row.entry sequence metadataCanonical with prevHash := some s.prevHash }
    (updateRow s.table row.id fun row =>
      { row with sequence := some sequence, prevHash := some s.prevHash,
                 entryHash := some entryHash, metadataCanonical := some metadataCanonical }).map
      fun table => ⟨table, entryHash, sequence⟩

/-- One batch of `backfillChain`, which goes on to the next as long as batches are full. -/
def backfillBatch (table : Table Num) : Option (Table Num × BatchResult) :=
  let currentHead := findHead table
  let batch := legacyBatch services table
  if batch = [] then some (table, ⟨0, none⟩)
  else
    (batch.foldlM (sealRow services)
      ⟨table, (currentHead.bind (·.entryHash)).getD genesisPrevHash,
        (currentHead.bind (·.sequence)).getD 0⟩).map
      fun s => (s.table, ⟨batch.length, some (s.sequence, s.prevHash)⟩)

end Backfill
section Verify

def verifyPageSize : ℕ := 1000
def maxIssues : ℕ := 50

inductive Reason
  | missingHash
  | missingCanonical
  | invalidHash (sequence : ℤ) (expected found : Text)
  | brokenLink (sequence : ℤ) (recorded expected : Text)
  | metadataMismatch (sequence : ℤ)
  | noSequence
  | notIncreasing (sequence previous : ℤ)
  | headMismatch (found expected : Text)
  deriving DecidableEq

structure ChainIssue where
  id : Text
  sequence : Option ℤ
  reason : Reason
  deriving DecidableEq

variable (services : Services Num) [DecidableEq Num]

def canonicalMatches (metadataCanonical : Text) (metadata : JsonValue Num) : Bool :=
  let recomputed := canonicalMetadata services.numerals metadata.1 none
  match parse services.numerals metadataCanonical with
  | none => false
  | some v => jsonDeepEqual v metadata.1 || (recomputed == metadataCanonical &&
      match parse services.numerals recomputed with
      | none => false
      | some v => jsonDeepEqual v metadata.1)

def foldSealedRow (row : AuditLog Num) (sequence : ℤ) (expectedPrevHash : Option Text) :
    Except Reason Unit :=
  match row.entryHash, row.metadataCanonical with
  | none, _ => .error .missingHash
  | some _, none => .error .missingCanonical
  | some stored, some metadataCanonical =>
    let entryHash := computeEntryHash services.sha256 services.numerals
      (row.entry sequence metadataCanonical)
    if entryHash ≠ stored then .error (.invalidHash sequence entryHash stored)
    else
      let recorded := row.prevHash.getD genesisPrevHash
      match expectedPrevHash with
      | some expected =>
        if recorded ≠ expected then .error (.brokenLink sequence recorded expected)
        else if canonicalMatches services metadataCanonical row.metadataOrNull then .ok ()
        else .error (.metadataMismatch sequence)
      | none =>
        if canonicalMatches services metadataCanonical row.metadataOrNull then .ok ()
        else .error (.metadataMismatch sequence)

structure Walk where
  issues : List ChainIssue := []
  expectedPrevHash : Option Text := some genesisPrevHash
  sealedCount : ℕ := 0
  skippedAnonymized : ℕ := 0
  headSequence : Option ℤ := none
  headHash : Option Text := none
  prevSeenSequence : Option ℤ := none

def Walk.report (w : Walk) (issue : ChainIssue) : Walk := { w with issues := w.issues ++ [issue] }

def Walk.checkOrder (w : Walk) (id : Text) (sequence : ℤ) : Walk :=
  match w.prevSeenSequence with
  | some previous =>
    if sequence ≤ previous then w.report ⟨id, some sequence, .notIncreasing sequence previous⟩ else w
  | none => w

def Walk.checkContent (w : Walk) (row : AuditLog Num) (sequence : ℤ) : Walk :=
  if row.deletedAt ≠ none then { w with skippedAnonymized := w.skippedAnonymized + 1 }
  else
    match foldSealedRow services row sequence w.expectedPrevHash with
    | .ok () => w
    | .error reason => w.report ⟨row.id, some sequence, reason⟩

/-- With `maxIssues` reported, the rest of the rows is left out. -/
def Walk.visit (w : Walk) (row : AuditLog Num) : Walk :=
  if maxIssues ≤ w.issues.length then w
  else
    let w := { w with sealedCount := w.sealedCount + 1 }
    match row.sequence with
    | none => w.report ⟨row.id, none, .noSequence⟩
    | some sequence =>
      let w := w.checkOrder row.id sequence
      let w := { w with prevSeenSequence := some sequence }
      let w := w.checkContent services row sequence
      { w with expectedPrevHash := row.entryHash, headSequence := some sequence,
               headHash := row.entryHash }

def page (table : Table Num) (lastSequence : Option ℤ) : Table Num :=
  match lastSequence with
  | none => (bySequence table).take verifyPageSize
  | some last =>
    (((bySequence table).filter fun row => sequenceLE (some last) row.sequence).drop 1).take
      verifyPageSize

/-- The pages that follow; every page has a row, so the number of sealed rows is enough fuel. -/
def walkPages (table : Table Num) (sealedTotal : ℕ) :
    ℕ → Walk → Option ℤ → ℕ → Walk
  | 0, w, _, _ => w
  | fuel + 1, w, lastSequence, processed =>
    if processed < sealedTotal ∧ w.issues.length < maxIssues then
      match page table lastSequence with
      | [] => w
      | row :: rows =>
        walkPages table sealedTotal fuel ((row :: rows).foldl (Walk.visit services) w)
          ((row :: rows).getLast (List.cons_ne_nil row rows)).sequence
          (processed + (row :: rows).length)
    else w

structure ChainVerificationResult where
  valid : Bool
  backfillPending : Bool
  sealedCount : ℕ
  legacyCount : ℕ
  skippedAnonymized : ℕ
  issues : List ChainIssue
  headSequence : Option ℤ
  headHash : Option Text

def chainHead : Text := ['c', 'h', 'a', 'i', 'n', '-', 'h', 'e', 'a', 'd']

def Walk.checkAnchor (w : Walk) (expectedHeadHash : Option Text) : Walk :=
  match expectedHeadHash, w.headHash with
  | some expected, some headHash =>
    if expected ≠ [] ∧ headHash ≠ expected then
      w.report ⟨chainHead, w.headSequence, .headMismatch headHash expected⟩
    else w
  | _, _ => w

def verify (table : Table Num) (expectedHeadHash : Option Text) : ChainVerificationResult :=
  let sealedTotal := (table.filter (·.isSealed)).length
  let legacyCount := (table.filter (!·.isSealed)).length
  if sealedTotal = 0 then
    { valid := true, backfillPending := 0 < legacyCount, sealedCount := 0, legacyCount := legacyCount,
      skippedAnonymized := 0, issues := [], headSequence := none, headHash := none }
  else
    let w := (walkPages services table sealedTotal sealedTotal {} none 0).checkAnchor expectedHeadHash
    { valid := w.issues = [], backfillPending := 0 < legacyCount, sealedCount := w.sealedCount,
      legacyCount := legacyCount, skippedAnonymized := w.skippedAnonymized, issues := w.issues,
      headSequence := w.headSequence, headHash := w.headHash }

end Verify
end Soter.Audit
