import Mathlib
import Soter.Lib.JsonNesting
import Soter.Lib.PyJson
import Soter.Lib.Run

/-! The decision audit store (`services/decision_audit.py`): its records, the indexes over them and the log file behind them. A
record is taken as `redacted` leaves it. The file is read and written one character for each byte, as its lines are ASCII. -/
namespace Soter.DecisionAudit
open Soter.Json Soter.PyJson Soter.Runs

variable {Num : Type}

structure DecisionAuditRecord (Num : Type) where
  decisionType : Text
  outcome : Text
  recordId : Text
  createdAt : Num
  traceId : Option Text := none
  claimId : Option Text := none
  campaignRef : Option Text := none
  packageId : Option Text := none
  orgId : Option Text := none
  provider : Option Text := none
  model : Option Text := none
  promptVersion : Option Text := none
  promptVariant : Option Text := none
  confidence : Option Num := none
  reasons : List Text := []
  inputs : List (Text × Value Num) := []
  metadata : List (Text × Value Num) := []
  schemaVersion : Text := ['1']

namespace DecisionAuditRecord
variable (r : DecisionAuditRecord Num)

def toDict : List (Text × Value Num) :=
  [("decision_type".toList, .str r.decisionType),
    ("outcome".toList, .str r.outcome),
    ("record_id".toList, .str r.recordId),
    ("created_at".toList, .num r.createdAt),
    ("trace_id".toList, r.traceId.elim .null .str),
    ("claim_id".toList, r.claimId.elim .null .str),
    ("campaign_ref".toList, r.campaignRef.elim .null .str),
    ("package_id".toList, r.packageId.elim .null .str),
    ("org_id".toList, r.orgId.elim .null .str),
    ("provider".toList, r.provider.elim .null .str),
    ("model".toList, r.model.elim .null .str),
    ("prompt_version".toList, r.promptVersion.elim .null .str),
    ("prompt_variant".toList, r.promptVariant.elim .null .str),
    ("confidence".toList, r.confidence.elim .null .num),
    ("reasons".toList, .arr (r.reasons.map .str)),
    ("inputs".toList, .obj r.inputs),
    ("metadata".toList, .obj r.metadata),
    ("schema_version".toList, .str r.schemaVersion)]

def IsWF : Prop := (Value.obj r.inputs).WF ∧ (Value.obj r.metadata).WF

/-- `record` leaves out the identifiers that are empty. -/
def made : DecisionAuditRecord Num :=
  { r with
    traceId := r.traceId.filter (· ≠ [])
    claimId := r.claimId.filter (· ≠ [])
    campaignRef := r.campaignRef.filter (· ≠ [])
    packageId := r.packageId.filter (· ≠ [])
    orgId := r.orgId.filter (· ≠ []) }

def ordered : DecisionAuditRecord Num :=
  { r with inputs := sortKeys (orderedMembers r.inputs), metadata := sortKeys (orderedMembers r.metadata) }

end DecisionAuditRecord

def asText : Value Num → Option Text
  | .str s => some s
  | _ => none

def asNum : Value Num → Option Num
  | .num n => some n
  | _ => none

def asOptional {α : Type} (f : Value Num → Option α) : Value Num → Option (Option α)
  | .null => some none
  | v => (f v).map some

def asTexts : Value Num → Option (List Text)
  | .arr items => items.mapM asText
  | _ => none

def asDict : Value Num → Option (List (Text × Value Num))
  | .obj members => some members
  | _ => none

def field {α : Type} (data : List (Text × Value Num)) (key : String) (f : Value Num → Option α) : Option α :=
  (data.lookup key.toList).bind f

/-- The defaults of fields that are missing, which no line of a store needs, are left out. -/
def DecisionAuditRecord.fromDict (data : List (Text × Value Num)) : Option (DecisionAuditRecord Num) := do
  return {
    decisionType := ← field data "decision_type" asText
    outcome := ← field data "outcome" asText
    recordId := ← field data "record_id" asText
    createdAt := ← field data "created_at" asNum
    traceId := ← field data "trace_id" (asOptional asText)
    claimId := ← field data "claim_id" (asOptional asText)
    campaignRef := ← field data "campaign_ref" (asOptional asText)
    packageId := ← field data "package_id" (asOptional asText)
    orgId := ← field data "org_id" (asOptional asText)
    provider := ← field data "provider" (asOptional asText)
    model := ← field data "model" (asOptional asText)
    promptVersion := ← field data "prompt_version" (asOptional asText)
    promptVariant := ← field data "prompt_variant" (asOptional asText)
    confidence := ← field data "confidence" (asOptional asNum)
    reasons := ← field data "reasons" asTexts
    inputs := ← field data "inputs" asDict
    metadata := ← field data "metadata" asDict
    schemaVersion := ← field data "schema_version" asText }

section Memory

structure AuditMemory (Num : Type) where
  records : List (DecisionAuditRecord Num) := []
  byTrace : Text → List Text := fun _ => []
  byClaim : Text → List Text := fun _ => []
  byCampaign : Text → List Text := fun _ => []
  byId : Text → Option (DecisionAuditRecord Num) := fun _ => none

/-- `index.setdefault(key, []).append(id)`, if there is a key. -/
def addTo (index : Text → List Text) (key : Option Text) (id : Text) : Text → List Text :=
  match key with
  | none | some [] => index
  | some (c :: k) => Function.update index (c :: k) (index (c :: k) ++ [id])

def AuditMemory.index (m : AuditMemory Num) (r : DecisionAuditRecord Num) : AuditMemory Num where
  records := m.records ++ [r]
  byTrace := addTo m.byTrace r.traceId r.recordId
  byClaim := addTo m.byClaim r.claimId r.recordId
  byCampaign := addTo m.byCampaign r.campaignRef r.recordId
  byId := Function.update m.byId r.recordId (some r)

/-- `_reindex_locked`: all of it computed from the records. -/
def AuditMemory.reindex (records : List (DecisionAuditRecord Num)) : AuditMemory Num := records.foldl AuditMemory.index {}

structure AuditSettings (Num : Type) where
  numerals : Numerals Num
  seconds : Num → ℚ
  retentionDays : ℚ
  enabled : Bool

def secondsPerDay : ℚ := 86400

def pruneEveryNWrites : ℕ := 100

variable (settings : AuditSettings Num)

def AuditSettings.IsYoung (now : ℚ) (r : DecisionAuditRecord Num) : Prop :=
  settings.retentionDays ≤ 0 ∨ now - settings.retentionDays * secondsPerDay ≤ settings.seconds r.createdAt

def AuditMemory.pruneLocked (now : ℚ) (m : AuditMemory Num) : Bool × AuditMemory Num :=
  if settings.retentionDays ≤ 0 then (false, m)
  else
    let cutoff := now - settings.retentionDays * secondsPerDay
    let keep := m.records.filter fun r => cutoff ≤ settings.seconds r.createdAt
    if keep.length = m.records.length then (false, m) else (true, .reindex keep)

structure Query where
  traceId : Option Text := none
  claimId : Option Text := none
  campaignRef : Option Text := none
  decisionType : Option Text := none
  limit : ℤ := 100

def intersect (ids : Option (List Text)) (lookup : Option Text × (Text → List Text)) : Option (List Text) :=
  match lookup.1 with
  | none | some [] => ids
  | some (c :: value) =>
    let found := (lookup.2 (c :: value)).dedup
    some (ids.elim found (·.filter (· ∈ found)))

def AuditMemory.candidateIds (m : AuditMemory Num) (q : Query) : Option (List Text) :=
  [(q.traceId, m.byTrace), (q.claimId, m.byClaim), (q.campaignRef, m.byCampaign)].foldl intersect none

def AuditMemory.found (m : AuditMemory Num) (q : Query) : List (DecisionAuditRecord Num) :=
  let candidates := match m.candidateIds q with
    | none => m.records
    | some ids => ids.filterMap m.byId
  let selected := match q.decisionType with
    | none | some [] => candidates
    | some (c :: decisionType) => candidates.filter (·.decisionType = c :: decisionType)
  selected.insertionSort fun r r' => settings.seconds r'.createdAt ≤ settings.seconds r.createdAt

def AuditMemory.query (m : AuditMemory Num) (q : Query) : List (DecisionAuditRecord Num) :=
  if 0 < q.limit then (m.found settings q).take q.limit.toNat else m.found settings q

end Memory
section Log
variable (settings : AuditSettings Num)

def lines : Text → List Text
  | [] => [[]]
  | c :: cs =>
    if c = '\n' then [] :: lines cs
    else
      match lines cs with
      | [] => [[c]]
      | l :: ls => (c :: l) :: ls

def AuditSettings.text (r : DecisionAuditRecord Num) : Text := dumps settings.numerals (.obj r.toDict)

def AuditSettings.line (r : DecisionAuditRecord Num) : Text := settings.text r ++ ['\n']

def AuditSettings.readLine (line : Text) : Option (DecisionAuditRecord Num) :=
  match parse settings.numerals (strip line) with
  | some (.obj data) => DecisionAuditRecord.fromDict data
  | _ => none

structure AuditStore (Num : Type) where
  memory : AuditMemory Num := {}
  writesSincePrune : ℕ := 0

/-- An append that `record` was called for: how much of the line was written, and whether `record` returned the record. -/
structure Attempt (Num : Type) where
  record : DecisionAuditRecord Num
  written : ℕ
  returned : Bool

structure AuditWorld (Num : Type) where
  file : Text := []
  now : ℚ := 0
  store : Option (AuditStore Num) := some {}
  attempts : List (Attempt Num) := []

/-- How `_append_to_disk` ends: the write may fail, and the process may be stopped, with some of the line written. -/
inductive AppendOutcome
  | done
  | error (written : ℕ)
  | crash (written : ℕ)

/-- How `_rewrite_locked` ends: the process may be stopped in front of `os.replace` or right behind it. -/
inductive RewriteOutcome
  | done
  | error
  | crash (replaced : Bool)

inductive AuditEvent (Num : Type)
  | record (args : { r : DecisionAuditRecord Num // r.IsWF }) (append : AppendOutcome) (rewrite : RewriteOutcome)
  | prune (rewrite : RewriteOutcome)
  | crash
  | restart (readable : Bool) (rewrite : RewriteOutcome)
  | pass (duration : ℚ)

def AuditSettings.rewritten (m : AuditMemory Num) : Text := m.records.flatMap settings.line

namespace AuditWorld
variable (w : AuditWorld Num)

def rewriteLocked (s : AuditStore Num) : RewriteOutcome → AuditWorld Num
  | .done => { w with file := settings.rewritten s.memory, store := some s }
  | .error => { w with store := some s }
  | .crash replaced => { w with file := if replaced then settings.rewritten s.memory else w.file, store := none }

def pruned (s : AuditStore Num) (rewrite : RewriteOutcome) : AuditWorld Num :=
  let pruned := s.memory.pruneLocked settings w.now
  if pruned.1 then w.rewriteLocked settings { s with memory := pruned.2 } rewrite else { w with store := some s }

/-- `record` after the append. -/
def indexed (s : AuditStore Num) (r : DecisionAuditRecord Num) (rewrite : RewriteOutcome) : AuditWorld Num :=
  let memory := s.memory.index r
  if pruneEveryNWrites ≤ s.writesSincePrune + 1 then w.pruned settings ⟨memory, 0⟩ rewrite
  else { w with store := some ⟨memory, s.writesSincePrune + 1⟩ }

def appended (text : Text) : AuditWorld Num := { w with file := w.file ++ text }

def tried (r : DecisionAuditRecord Num) (written : Text) (returned : Bool) : AuditWorld Num :=
  { w with attempts := w.attempts ++ [⟨r, written.length, returned⟩] }

/-- The record id is one that `uuid4` has not given before. -/
def record (args : DecisionAuditRecord Num) (append : AppendOutcome) (rewrite : RewriteOutcome) (s : AuditStore Num) :
    Option (AuditWorld Num) :=
  if settings.enabled = false then some w
  else if args.recordId ∈ w.attempts.map (·.record.recordId) then none
  else
    let r := args.made
    let line := settings.line r
    match append with
    | .done =>
      let w' := (w.appended line).indexed settings s r rewrite
      some (w'.tried r line w'.store.isSome)
    | .error written => some ((w.appended (line.take written)).tried r (line.take written) false)
    | .crash written => some { (w.appended (line.take written)).tried r (line.take written) false with store := none }

/-- `_load`, in a new process. -/
def load (readable : Bool) (rewrite : RewriteOutcome) : AuditWorld Num :=
  if settings.enabled && readable then
    w.pruned settings { memory := .reindex ((lines w.file).filterMap settings.readLine) } rewrite
  else { w with store := some {} }

def take : AuditEvent Num → Option (AuditWorld Num)
  | .record args append rewrite => w.store.bind (w.record settings args append rewrite)
  | .prune rewrite => w.store.map (w.pruned settings · rewrite)
  | .crash => some { w with store := none }
  | .restart readable rewrite => some (w.load settings readable rewrite)
  | .pass duration => if 0 ≤ duration then some { w with now := w.now + duration } else none

def Step (event : AuditEvent Num) (w' : AuditWorld Num) : Prop := w.take settings event = some w'

end AuditWorld

def AuditWorld.initial : AuditWorld Num := {}

abbrev AuditTransition (Num : Type) := Transition (AuditWorld Num) (AuditEvent Num)

end Log
end Soter.DecisionAudit
