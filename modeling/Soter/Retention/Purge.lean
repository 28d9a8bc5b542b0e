import Soter.Lib.Batches
import Soter.Lib.Calendar

/-! The purge of old rows by a retention policy (`retention-policy.service.ts`): rows older than the cutoff are marked as
deleted, deleted or anonymized, in one statement or in batches. -/
namespace Soter.Retention
open Soter.Batches

/-- A row of `AuditLog`. A value of type `Json` is kept as its text. -/
structure AuditLog where
  id : String
  actorId : String
  entity : String
  entityId : String
  action : String
  timestamp : ℤ
  metadata : Option String
  deletedAt : Option ℤ := none
  deriving DecidableEq

structure VerificationSession where
  id : String
  identifier : String
  code : String
  createdAt : ℤ
  updatedAt : ℤ
  deletedAt : Option ℤ := none
  deriving DecidableEq

structure Session where
  id : String
  metadata : Option String
  createdAt : ℤ
  updatedAt : ℤ
  deletedAt : Option ℤ := none
  deriving DecidableEq

structure SessionStep where
  id : String
  sessionId : String
  createdAt : ℤ
  deriving DecidableEq

structure SessionSubmission where
  id : String
  sessionId : String
  payload : String
  response : Option String
  createdAt : ℤ
  deletedAt : Option ℤ := none
  deriving DecidableEq

structure Claim where
  id : String
  recipientRef : String
  evidenceRef : Option String
  reissuedFromId : Option String := none
  createdAt : ℤ
  updatedAt : ℤ
  deletedAt : Option ℤ := none
  deriving DecidableEq

/-- A row of another table that may refer to a claim: `BalanceLedger`, `SorobanTransaction`, `SorobanEventCorrelation`. -/
structure ClaimReference where
  table : String
  id : String
  claimId : Option String
  createdAt : ℤ
  deriving DecidableEq

structure VerificationRequest where
  id : String
  createdAt : ℤ
  updatedAt : ℤ
  deletedAt : Option ℤ := none
  deriving DecidableEq

@[ext]
structure Database where
  auditLogs : List AuditLog := []
  verificationSessions : List VerificationSession := []
  sessions : List Session := []
  steps : List SessionStep := []
  submissions : List SessionSubmission := []
  claims : List Claim := []
  references : List ClaimReference := []
  verificationRequests : List VerificationRequest := []
  deriving DecidableEq

variable {Row : Type}

/-- A table, and what its foreign keys do when rows of it are deleted: to its own rows, and to those of other tables. -/
structure Delegate (Row : Type) where
  rows : Database → List Row
  set : List Row → Database → Database
  id : Row → String
  date : Row → ℤ
  deletedAt : Row → Option ℤ
  detach : List String → Row → Row := fun _ row => row
  others : List String → Database → Database := fun _ db => db

def auditLog : Delegate AuditLog where
  rows := (·.auditLogs)
  set rows db := { db with auditLogs := rows }
  id := (·.id)
  date := (·.timestamp)
  deletedAt := (·.deletedAt)

def verificationSession : Delegate VerificationSession where
  rows := (·.verificationSessions)
  set rows db := { db with verificationSessions := rows }
  id := (·.id)
  date := (·.createdAt)
  deletedAt := (·.deletedAt)

def session : Delegate Session where
  rows := (·.sessions)
  set rows db := { db with sessions := rows }
  id := (·.id)
  date := (·.createdAt)
  deletedAt := (·.deletedAt)
  others ids db :=
    { db with
      steps := db.steps.filter (·.sessionId ∉ ids)
      submissions := db.submissions.filter (·.sessionId ∉ ids) }

def sessionSubmission : Delegate SessionSubmission where
  rows := (·.submissions)
  set rows db := { db with submissions := rows }
  id := (·.id)
  date := (·.createdAt)
  deletedAt := (·.deletedAt)

def setNull (ids : List String) (claimId : Option String) : Option String := claimId.filter (· ∉ ids)

def ClaimReference.detach (ids : List String) (row : ClaimReference) : ClaimReference :=
  { row with claimId := setNull ids row.claimId }

def claim : Delegate Claim where
  rows := (·.claims)
  set rows db := { db with claims := rows }
  id := (·.id)
  date := (·.createdAt)
  deletedAt := (·.deletedAt)
  detach ids row := { row with reissuedFromId := setNull ids row.reissuedFromId }
  others ids db := { db with references := db.references.map (ClaimReference.detach ids) }

def verificationRequest : Delegate VerificationRequest where
  rows := (·.verificationRequests)
  set rows db := { db with verificationRequests := rows }
  id := (·.id)
  date := (·.createdAt)
  deletedAt := (·.deletedAt)

namespace Delegate
variable (d : Delegate Row)

/-- `createdAt: { lt: cutoffDate }` -/
def isOld (cutoffDate : ℤ) (row : Row) : Bool := d.date row < cutoffDate

/-- `createdAt: { lt: cutoffDate }, deletedAt: null` -/
def isOldLive (cutoffDate : ℤ) (row : Row) : Bool := d.date row < cutoffDate ∧ d.deletedAt row = none

def among (ids : List String) (row : Row) : Bool := d.id row ∈ ids

def count (where_ : Row → Bool) (db : Database) : ℕ := (d.rows db).countP where_

def findIds (where_ : Row → Bool) (db : Database) : List String := ((d.rows db).filter where_).map d.id

def updateMany (where_ : Row → Bool) (data : Row → Row) (db : Database) : ℕ × Database :=
  (d.count where_ db, d.set ((d.rows db).map fun row => if where_ row then data row else row) db)

def deleteMany (where_ : Row → Bool) (db : Database) : ℕ × Database :=
  let ids := d.findIds where_ db
  (d.count where_ db,
    d.others ids (d.set (((d.rows db).filter fun row => ¬ where_ row).map (d.detach ids)) db))

end Delegate

structure PurgeOptions where
  dryRun : Bool := false
  batchSize : Option ℕ := none
  /-- The order in which the reads of the batches find their rows. -/
  order : ℕ → List String → List String := fun _ ids => ids
  fuel : ℕ

/-- The three ways of a branch: the count of a dry run, its one statement, and its read and its statement of a batch. -/
structure Plan where
  count : Database → ℕ
  all : Database → ℕ × Database
  pending : Database → List String
  batch : List String → Database → ℕ × Database

def Plan.run (plan : Plan) (opts : PurgeOptions) (db : Database) : Option (ℕ × Database) :=
  if opts.dryRun then some (plan.count db, db)
  else
    match opts.batchSize.filter (· ≠ 0) with
    | none => some (plan.all db)
    | some take => batches plan.pending plan.batch opts.order take opts.fuel 0 0 db

def Delegate.updating (d : Delegate Row) (where_ : Row → Bool) (data : Row → Row) : Plan where
  count := d.count where_
  all := d.updateMany where_ data
  pending := d.findIds where_
  batch ids := d.updateMany (d.among ids) data

def Delegate.deleting (d : Delegate Row) (where_ : Row → Bool) : Plan where
  count := d.count where_
  all := d.deleteMany where_
  pending := d.findIds where_
  batch ids := d.deleteMany (d.among ids)

def softDelete (entity : String) (cutoffDate now : ℤ) : Option Plan :=
  match entity with
  | "AuditLog" =>
    some (auditLog.updating (auditLog.isOldLive cutoffDate) fun row => { row with deletedAt := some now })
  | "VerificationSession" =>
    some (verificationSession.updating (verificationSession.isOldLive cutoffDate)
      fun row => { row with deletedAt := some now, updatedAt := now })
  | "Session" =>
    some (session.updating (session.isOldLive cutoffDate)
      fun row => { row with deletedAt := some now, updatedAt := now })
  | "SessionSubmission" =>
    some (sessionSubmission.updating (sessionSubmission.isOldLive cutoffDate)
      fun row => { row with deletedAt := some now })
  | "Claim" =>
    some (claim.updating (claim.isOldLive cutoffDate)
      fun row => { row with deletedAt := some now, updatedAt := now })
  | "VerificationRequest" =>
    some (verificationRequest.updating (verificationRequest.isOldLive cutoffDate)
      fun row => { row with deletedAt := some now, updatedAt := now })
  | _ => none

def hardDelete (entity : String) (cutoffDate : ℤ) : Option Plan :=
  match entity with
  | "AuditLog" => some (auditLog.deleting (auditLog.isOld cutoffDate))
  | "VerificationSession" => some (verificationSession.deleting (verificationSession.isOld cutoffDate))
  | "Session" => some (session.deleting (session.isOld cutoffDate))
  | "SessionSubmission" => some (sessionSubmission.deleting (sessionSubmission.isOld cutoffDate))
  | "Claim" => some (claim.deleting (claim.isOld cutoffDate))
  | "VerificationRequest" => some (verificationRequest.deleting (verificationRequest.isOld cutoffDate))
  | _ => none

def anonymized : String := "[REDACTED]"

/-- `{}` -/
def emptyObject : String := "\x7b\x7d"

def Session.redact (now : ℤ) (row : Session) : Session :=
  { row with metadata := some emptyObject, deletedAt := some now, updatedAt := now }

def SessionSubmission.redact (now : ℤ) (row : SessionSubmission) : SessionSubmission :=
  { row with payload := emptyObject, response := some emptyObject, deletedAt := some now }

/-- `session: { createdAt: { lt: cutoffDate }, deletedAt: null }`, of a submission. -/
def ofOldLiveSession (cutoffDate : ℤ) (db : Database) (row : SessionSubmission) : Bool :=
  db.sessions.any fun s => s.id = row.sessionId ∧ session.isOldLive cutoffDate s

def anonymizeSessions (cutoffDate now : ℤ) (db : Database) : ℕ × Database :=
  let result := session.updateMany (session.isOldLive cutoffDate) (Session.redact now) db
  (result.1, (sessionSubmission.updateMany (ofOldLiveSession cutoffDate result.2) (SessionSubmission.redact now) result.2).2)

def anonymizeSessionsById (now : ℤ) (ids : List String) (db : Database) : ℕ × Database :=
  let result := session.updateMany (session.among ids) (Session.redact now) db
  (result.1, (sessionSubmission.updateMany (fun row => row.sessionId ∈ ids) (SessionSubmission.redact now) result.2).2)

def anonymizing (cutoffDate now : ℤ) : Plan where
  count := session.count (session.isOldLive cutoffDate)
  all := anonymizeSessions cutoffDate now
  pending := session.findIds (session.isOldLive cutoffDate)
  batch := anonymizeSessionsById now

def anonymize (entity : String) (cutoffDate now : ℤ) : Option Plan :=
  match entity with
  | "AuditLog" =>
    some (auditLog.updating (auditLog.isOldLive cutoffDate)
      fun row => { row with
        actorId := anonymized, entityId := anonymized, metadata := some emptyObject, deletedAt := some now })
  | "VerificationSession" =>
    some (verificationSession.updating (verificationSession.isOldLive cutoffDate)
      fun row => { row with identifier := anonymized, code := anonymized, deletedAt := some now, updatedAt := now })
  | "Session" => some (anonymizing cutoffDate now)
  | "SessionSubmission" =>
    some (sessionSubmission.updating (sessionSubmission.isOldLive cutoffDate) (SessionSubmission.redact now))
  | "Claim" =>
    some (claim.updating (claim.isOldLive cutoffDate)
      fun row => { row with
        recipientRef := anonymized, evidenceRef := none, deletedAt := some now, updatedAt := now })
  | "VerificationRequest" =>
    some (verificationRequest.updating (verificationRequest.isOldLive cutoffDate)
      fun row => { row with deletedAt := some now, updatedAt := now })
  | _ => none

/-- The clock of the server, and its calendar: `setDate` counts days of the server's own time zone. -/
structure Clock where
  now : ℤ
  daysAgo : ℕ → ℤ
  past : ∀ days, 1 ≤ days → daysAgo days ≤ now

/-- A row of `RetentionPolicy`. -/
structure RetentionPolicy where
  id : String
  entity : String
  retentionDays : ℕ
  strategy : String
  days : 1 ≤ retentionDays

structure PurgeResult where
  entity : String
  strategy : String
  affected : ℕ
  cutoffDate : ℤ

def RetentionPolicy.cutoffDate (policy : RetentionPolicy) (clock : Clock) : ℤ := clock.daysAgo policy.retentionDays

def RetentionPolicy.plan (policy : RetentionPolicy) (clock : Clock) : Option Plan :=
  match policy.strategy with
  | "soft_delete" => softDelete policy.entity (policy.cutoffDate clock) clock.now
  | "hard_delete" => hardDelete policy.entity (policy.cutoffDate clock)
  | "anonymize" => anonymize policy.entity (policy.cutoffDate clock) clock.now
  | _ => none

def RetentionPolicy.execute (policy : RetentionPolicy) (clock : Clock) (opts : PurgeOptions) (db : Database) :
    Option (ℕ × Database) :=
  match policy.plan clock with
  | none => some (0, db)
  | some plan => plan.run opts db

def objectText (members : List (String × String)) : String :=
  "\x7b" ++ String.intercalate "," (members.map fun member => "\"" ++ member.1 ++ "\":" ++ member.2) ++ "\x7d"

def quoted (text : String) : String := "\"" ++ text ++ "\""

/-- What `auditService.record` adds to the audit log. -/
def RetentionPolicy.purgeExecuted (policy : RetentionPolicy) (clock : Clock) (affected : ℕ) (id : String) : AuditLog where
  id := id
  actorId := "system:retention-purge"
  entity := "RetentionPolicy"
  entityId := policy.id
  action := "purge_executed"
  timestamp := clock.now
  metadata := some (objectText
    [("targetEntity", quoted policy.entity), ("strategy", quoted policy.strategy),
      ("retentionDays", toString policy.retentionDays),
      ("cutoffDate", quoted (String.ofList (Calendar.toISOString (policy.cutoffDate clock)))),
      ("affectedRecords", toString affected)])

def Database.record (db : Database) (events : List AuditLog) : Database := { db with auditLogs := db.auditLogs ++ events }

def RetentionPolicy.report (policy : RetentionPolicy) (clock : Clock) (affected : ℕ) : PurgeResult :=
  ⟨policy.entity, policy.strategy, affected, policy.cutoffDate clock⟩

def RetentionPolicy.purgeEntity (policy : RetentionPolicy) (clock : Clock) (opts : PurgeOptions) (id : String)
    (db : Database) : Option (PurgeResult × Database) :=
  (policy.execute clock opts db).map fun result =>
    (policy.report clock result.1, result.2.record [policy.purgeExecuted clock result.1 id])

def RetentionPolicy.purgeRuns (policy : RetentionPolicy) (clock : Clock) :
    List (PurgeOptions × String) → Database → Option (List PurgeResult × Database)
  | [], db => some ([], db)
  | (opts, id) :: runs, db => do
    let (result, db') ← policy.purgeEntity clock opts id db
    let (results, db'') ← policy.purgeRuns clock runs db'
    return (result :: results, db'')

end Soter.Retention
