import Soter.Lib.Protocol
import Soter.RecipientImport.Progress

/-! The import of recipients: the service that keeps the jobs (`recipient-import.service.ts`) and the worker that goes
through the rows of a file (`recipient-import.processor.ts`). Every call of a service is one request, and so are the
reading of the file and the report to the queue. -/
namespace Soter.RecipientImport
open Soter.Tasks Soter.Runs Soter.JsNumbers

inductive ImportJobStatus
  | pending
  | processing
  | completed
  | failed
  | cancelled
  deriving DecidableEq

/-- A row of `ImportJob`; `errors` is what the JSON in the column says. -/
structure ImportJob where
  status : ImportJobStatus := .pending
  campaignId : ℕ
  totalRows : ℕ
  processedRows : ℕ := 0
  errorRows : ℕ := 0
  errors : Option (List ImportError) := none
  reportUrl : Option String := none
  fileName : String
  filePath : Option ℕ
  checkpointRow : ℕ := 0
  startedAt : Option ℤ := none
  completedAt : Option ℤ := none
  cancelledAt : Option ℤ := none

structure ImportJobData where
  jobId : ℕ
  campaignId : ℕ
  fileName : String
  filePath : ℕ
  totalRows : ℕ

structure Claim where
  campaignId : ℕ
  amount : Option JsFloat
  recipientRef : Option Text
  evidenceRef : Option Text
  importJobId : ℕ
  importRowNumber : ℕ
  deriving DecidableEq

inductive Failure
  | app (status : ℕ) (message : Message)
  | other (message : Message)

/-- Why `claimsService.create` fails: the unique index on `(importJobId, importRowNumber)`, or anything else. -/
inductive ClaimFailure
  | duplicate
  | refused (message : Message)

/-- How the next calls of the database, the queue, the disk, the audit trail and the claims service fare, and whether the
queue lets go of a job, which it does not while a worker has it. -/
structure Fate where
  db : Except Message Unit := .ok ()
  queue : Except Message Unit := .ok ()
  remove : Except Message Unit := .ok ()
  disk : Except Message Unit := .ok ()
  audit : Except Message Unit := .ok ()
  claims : Except Message Unit := .ok ()

/-- A job's id is its place in `jobs`, and the path of a file its place in `files`. -/
structure Store where
  now : ℤ := 0
  fate : Fate := {}
  campaigns : List ℕ := []
  files : List Text := []
  jobs : List ImportJob := []
  queue : List ImportJobData := []
  claims : List Claim := []

inductive Query
  | elapse (d : ℕ)
  | foresee (fate : Fate)
  /-- The file is saved, and `createJob` is called with the number of its rows. -/
  | upload (campaignId : ℕ) (fileName : String) (content : Text)
  | resumeInterruptedJobs
  | cancelJob (jobId : ℕ)
  /-- A worker is given the job. -/
  | pickUp (jobId : ℕ)
  | setJobProcessing (jobId : ℕ)
  | getResumeState (jobId : ℕ)
  | readFile (path : ℕ)
  | isCancellationRequested (jobId : ℕ)
  | hasImportedRow (jobId rowNumber : ℕ)
  /-- `claimsService.create` -/
  | createClaim (claim : Claim)
  | updateJobProgress (jobId : ℕ) (view : View)
  /-- `job.updateProgress` -/
  | updateProgress (view : View)
  | completeJob (jobId : ℕ) (view : View) (reportUrl : Option String) (statusOverride : Option ImportJobStatus)

def Query.Reply : Query → Type
  | .elapse _ | .foresee _ => Unit
  | .upload .. => Except Failure ℕ
  | .resumeInterruptedJobs | .updateJobProgress .. | .updateProgress _ | .completeJob .. => Except Failure Unit
  | .cancelJob _ | .getResumeState _ => Except Failure ImportJob
  | .pickUp _ => Option ImportJobData
  | .setJobProcessing _ | .isCancellationRequested _ | .hasImportedRow .. => Except Failure Bool
  | .readFile _ => Except Failure Text
  | .createClaim _ => Except ClaimFailure Unit

def orDown {α : Type} (up : Except Message Unit) (answer : Except Failure α × Store) (s : Store) :
    Except Failure α × Store :=
  match up with
  | .error message => (.error (.other message), s)
  | .ok () => answer

def parseErrors (rawErrors : Option (List ImportError)) : List ImportError := rawErrors.getD []

/-- `errors.length > 0 ? JSON.stringify(errors) : null` -/
def stringifyErrors (errors : List ImportError) : Option (List ImportError) :=
  if 0 < errors.length then some errors else none

def ImportJob.view (job : ImportJob) : View := ⟨job.processedRows, job.errorRows, parseErrors job.errors⟩

def ImportJob.write (view : View) (job : ImportJob) : ImportJob :=
  { job with
    processedRows := view.processedRows
    errorRows := view.errorRows
    checkpointRow := view.processedRows
    errors := stringifyErrors view.errors }

def ImportJob.data (job : ImportJob) (jobId path : ℕ) : ImportJobData :=
  ⟨jobId, job.campaignId, job.fileName, path, job.totalRows⟩

/-- `queue.add`: nothing happens when there is a job of this id. -/
def addJob (data : ImportJobData) (queue : List ImportJobData) : List ImportJobData :=
  if queue.any (·.jobId = data.jobId) then queue else queue ++ [data]

def notFound (jobId : ℕ) : Failure := .app 404 s!"Import job {jobId} not found"

namespace Store
variable (s : Store)

def createJob (campaignId : ℕ) (fileName : String) (filePath totalRows : ℕ) : Except Failure ℕ × Store :=
  orDown s.fate.db (
    if campaignId ∉ s.campaigns then (.error (.app 400 "Campaign not found"), s)
    else if totalRows = 0 then (.error (.app 400 "CSV file contains no data rows"), s)
    else
      let job : ImportJob := { campaignId, fileName, filePath := some filePath, totalRows }
      let created := { s with jobs := s.jobs ++ [job] }
      let added := { created with queue := addJob (job.data s.jobs.length filePath) s.queue }
      orDown s.fate.queue (orDown s.fate.audit (.ok s.jobs.length, added) added) created) s

/-- `upload`: the file stays when the job cannot be created. -/
def upload (campaignId : ℕ) (fileName : String) (content : Text) : Except Failure ℕ × Store :=
  let saved := { s with files := s.files ++ [content] }
  match parseCsv content with
  | .error message => (.error (.app 400 message), saved)
  | .ok csv => saved.createJob campaignId fileName s.files.length csv.rows.length

def requeue (queue : List ImportJobData) (jobId : ℕ) : List ImportJobData :=
  match s.jobs[jobId]? with
  | none => queue
  | some job =>
    match job.filePath with
    | none => queue
    | some path => if job.status = .processing then addJob (job.data jobId path) queue else queue

def resumeInterruptedJobs : Except Failure Unit × Store :=
  orDown s.fate.db (orDown s.fate.queue
    (.ok (), { s with queue := (List.range s.jobs.length).foldl s.requeue s.queue }) s) s

def update (jobId : ℕ) (f : ImportJob → ImportJob) : Store := { s with jobs := s.jobs.modify jobId f }

def setJobProcessing (jobId : ℕ) : Except Failure Bool × Store :=
  orDown s.fate.db (
    match s.jobs[jobId]? with
    | none => (.ok false, s)
    | some job =>
      if job.status = .cancelled then (.ok false, s)
      else (.ok true, s.update jobId fun job => { job with status := .processing, startedAt := some s.now })) s

def getResumeState (jobId : ℕ) : Except Failure ImportJob × Store :=
  orDown s.fate.db (
    match s.jobs[jobId]? with
    | none => (.error (notFound jobId), s)
    | some job => (.ok job, s)) s

def isCancellationRequested (jobId : ℕ) : Except Failure Bool × Store :=
  orDown s.fate.db (.ok (decide ((s.jobs[jobId]?.map (·.status)) = some .cancelled)), s) s

def isClaimOf (jobId rowNumber : ℕ) (claim : Claim) : Bool :=
  claim.importJobId = jobId ∧ claim.importRowNumber = rowNumber

def hasImportedRow (jobId rowNumber : ℕ) : Except Failure Bool × Store :=
  orDown s.fate.db (.ok (s.claims.any (isClaimOf jobId rowNumber)), s) s

def createClaim (claim : Claim) : Except ClaimFailure Unit × Store :=
  match s.fate.claims with
  | .error message => (.error (.refused message), s)
  | .ok () =>
    if s.claims.any (isClaimOf claim.importJobId claim.importRowNumber) then (.error .duplicate, s)
    else (.ok (), { s with claims := s.claims ++ [claim] })

def updateOne (jobId : ℕ) (f : ImportJob → ImportJob) (after : Except Message Unit) : Except Failure Unit × Store :=
  orDown s.fate.db (
    match s.jobs[jobId]? with
    | none => (.error (.other "Record to update not found."), s)
    | some _ => orDown after (.ok (), s.update jobId f) (s.update jobId f)) s

def updateJobProgress (jobId : ℕ) (view : View) : Except Failure Unit × Store :=
  s.updateOne jobId (ImportJob.write view) (.ok ())

def completeJob (jobId : ℕ) (view : View) (reportUrl : Option String) (statusOverride : Option ImportJobStatus) :
    Except Failure Unit × Store :=
  let status := statusOverride.getD (if 0 < view.errorRows then .failed else .completed)
  s.updateOne jobId
    (fun job => { job.write view with status := status, reportUrl := reportUrl, completedAt := some s.now }) s.fate.audit

def isOver (status : ImportJobStatus) : Bool := status = .completed ∨ status = .failed ∨ status = .cancelled

def removeJob (jobId : ℕ) : Store :=
  match s.fate.remove with
  | .error _ => s
  | .ok () => { s with queue := s.queue.filter (·.jobId ≠ jobId) }

def cancelJob (jobId : ℕ) : Except Failure ImportJob × Store :=
  orDown s.fate.db (
    match s.jobs[jobId]? with
    | none => (.error (notFound jobId), s)
    | some job =>
      if isOver job.status then (.ok job, s)
      else
        let cancel (job : ImportJob) : ImportJob :=
          { job with status := .cancelled, cancelledAt := some s.now, completedAt := some s.now }
        let cancelled := (s.removeJob jobId).update jobId cancel
        orDown s.fate.queue (orDown s.fate.audit (.ok (cancel job), cancelled) cancelled) s) s

def readFile (path : ℕ) : Except Failure Text × Store :=
  orDown s.fate.disk (
    match s.files[path]? with
    | none => (.error (.other "ENOENT: no such file or directory"), s)
    | some content => (.ok content, s)) s

end Store

def perform : (q : Query) → Store → q.Reply × Store
  | .elapse d, s => ((), { s with now := s.now + d })
  | .foresee fate, s => ((), { s with fate := fate })
  | .upload campaignId fileName content, s => s.upload campaignId fileName content
  | .resumeInterruptedJobs, s => s.resumeInterruptedJobs
  | .cancelJob jobId, s => s.cancelJob jobId
  | .pickUp jobId, s => (s.queue.find? (·.jobId = jobId), s)
  | .setJobProcessing jobId, s => s.setJobProcessing jobId
  | .getResumeState jobId, s => s.getResumeState jobId
  | .readFile path, s => s.readFile path
  | .isCancellationRequested jobId, s => s.isCancellationRequested jobId
  | .hasImportedRow jobId rowNumber, s => s.hasImportedRow jobId rowNumber
  | .createClaim claim, s => s.createClaim claim
  | .updateJobProgress jobId view, s => s.updateJobProgress jobId view
  | .updateProgress _, s => orDown s.fate.queue (.ok (), s) s
  | .completeJob jobId view reportUrl statusOverride, s => s.completeJob jobId view reportUrl statusOverride

/-- At which of its `return`s a call ends: the run of a job was cancelled, or went through all of its rows. -/
inductive Outcome
  | cancelled
  | finished (jobId : ℕ)
  | none
  deriving DecidableEq

abbrev Handler := Task Query Query.Reply Failure Outcome

def orFail {α : Type} (next : α → Handler) : Except Failure α → Handler
  | .error e => .done (.error e)
  | .ok a => next a

/-- The `catch` around the rows. -/
def failJob (data : ImportJobData) (view : View) (error : Failure) : Handler :=
  .ask (.completeJob data.jobId view none (some .failed)) (orFail fun _ => .done (.error error))

/-- What a worker goes on with inside the `try` around the rows. -/
def orFailJob {α : Type} (data : ImportJobData) (view : View) (next : α → Handler) : Except Failure α → Handler
  | .error e => failJob data view e
  | .ok a => next a

def checkpoint (data : ImportJobData) (view : View) (next : Handler) : Handler :=
  .ask (.updateJobProgress data.jobId view) (orFailJob data view fun _ =>
    .ask (.updateProgress view) (orFailJob data view fun _ => next))

def finish (data : ImportJobData) (view : View) : Handler :=
  let reportUrl := if 0 < view.errors.length then some s!"/recipient-import/{data.jobId}/report" else none
  .ask (.completeJob data.jobId view reportUrl none) (orFailJob data view fun _ => .done (.ok (.finished data.jobId)))

def claimOf (data : ImportJobData) (n : ℕ) (validation : Validation) : Claim where
  campaignId := data.campaignId
  amount := validation.amount
  recipientRef := validation.recipientRef
  evidenceRef := validation.evidenceRef
  importJobId := data.jobId
  importRowNumber := n + 2

def View.afterCreate (view : View) (n : ℕ) : Except ClaimFailure Unit → View
  | .ok () | .error .duplicate => view.accept
  | .error (.refused message) => view.reject [claimError n message]

/-- The rows from the one at `n` on. The batches that the source takes them in have no other effect. -/
def importRows (data : ImportJobData) (headers : List Text) : List (List Text) → ℕ → View → Handler
  | [], _, view => finish data view
  | row :: rows, n, view =>
    .ask (.isCancellationRequested data.jobId) (orFailJob data view fun cancelled =>
      if cancelled then .done (.ok .cancelled)
      else .ask (.hasImportedRow data.jobId (n + 2)) (orFailJob data view fun alreadyImported =>
        if alreadyImported then
          checkpoint data (view.skip n) (importRows data headers rows (n + 1) (view.skip n))
        else
          let validation := validateRow row headers (n + 2)
          if validation.valid then
            .ask (.createClaim (claimOf data n validation)) fun created =>
              checkpoint data (view.afterCreate n created)
                (importRows data headers rows (n + 1) (view.afterCreate n created))
          else
            checkpoint data (view.reject validation.errors)
              (importRows data headers rows (n + 1) (view.reject validation.errors))))

def process (data : ImportJobData) : Handler :=
  .ask (.setJobProcessing data.jobId) (orFail fun started =>
    if started = false then .done (.ok .cancelled)
    else .ask (.getResumeState data.jobId) (orFail fun resumeState =>
      if resumeState.status = .cancelled then .done (.ok .cancelled)
      else .ask (.readFile (resumeState.filePath.getD data.filePath)) (orFailJob data resumeState.view fun content =>
        match parseCsv content with
        | .error message => failJob data resumeState.view (.app 400 message)
        | .ok csv => importRows data csv.headers (csv.rows.drop resumeState.checkpointRow) resumeState.checkpointRow
            resumeState.view)))

inductive ImportOp
  | elapse (d : ℕ)
  | foresee (fate : Fate)
  | upload (campaignId : ℕ) (fileName : String) (content : Text)
  | onModuleInit
  | cancelJob (jobId : ℕ)
  /-- A worker takes the job, for the first time or again. -/
  | work (jobId : ℕ)

def ImportOp.body : ImportOp → Handler
  | .elapse d => .ask (.elapse d) fun _ => .done (.ok .none)
  | .foresee fate => .ask (.foresee fate) fun _ => .done (.ok .none)
  | .upload campaignId fileName content => .ask (.upload campaignId fileName content) (orFail fun _ => .done (.ok .none))
  | .onModuleInit => .ask .resumeInterruptedJobs (orFail fun _ => .done (.ok .none))
  | .cancelJob jobId => .ask (.cancelJob jobId) (orFail fun _ => .done (.ok .none))
  | .work jobId => .ask (.pickUp jobId) fun
    | none => .done (.ok .none)
    | some data => process data

abbrev ImportPool := Pool Store Query Query.Reply Failure Outcome ImportOp

abbrev ImportStep : ImportPool → Turn ImportOp → ImportPool → Prop := Pool.Step perform ImportOp.body

abbrev ImportTransition := Transition ImportPool (Turn ImportOp)

end Soter.RecipientImport
