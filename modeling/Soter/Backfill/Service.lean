import Mathlib.Data.Int.Notation
import Mathlib.Data.Rat.Init
import Soter.Lib.Task

/-! `LedgerBackfillService` for one range of ledgers (`ledger-backfill.service.ts`). Every Prisma call, every
fetch, every job added or taken and every look at the clock is one request. -/
namespace Soter.Backfill
open Soter.Tasks Soter.Runs

/-- Milliseconds, as `Date.getTime` counts them. -/
abbrev Time := ℤ

structure BackfillJobData where
  startLedger : ℤ
  endLedger : ℤ
  campaignId : Option String
  batchSize : ℤ
  checkpointId : String

inductive BackfillStatus
  | running
  | completed
  | failed
  | cancelled
  deriving DecidableEq

/-- A row of `BackfillCheckpoint`. -/
structure BackfillCheckpoint where
  id : String
  jobKey : String
  startLedger : ℤ
  endLedger : ℤ
  lastProcessedLedger : ℤ
  status : BackfillStatus := .running
  campaignId : Option String
  batchSize : ℤ
  processedCount : ℕ := 0
  skippedCount : ℕ := 0
  errorCount : ℕ := 0
  lastError : Option String := none
  triggeredBy : Option String
  startedAt : Time
  completedAt : Option Time := none
  heartbeatAt : Option Time

/-- What `fetchLedgerRange` gives of a ledger entry. -/
structure FetchedEntry where
  id : String
  campaignId : Option String := none
  claimId : Option String := none
  eventType : String
  amount : ℚ
  note : Option String := none
  createdAt : Time

/-- A row of `BalanceLedger`. -/
structure LedgerEntry where
  id : String
  campaignId : Option String
  claimId : Option String
  eventType : String
  amount : ℚ
  note : Option String
  createdAt : Time

def FetchedEntry.row (entry : FetchedEntry) (campaignId : Option String) : LedgerEntry where
  id := entry.id
  campaignId := entry.campaignId.or campaignId
  claimId := entry.claimId
  eventType := entry.eventType
  amount := entry.amount
  note := entry.note
  createdAt := entry.createdAt

def buildJobKey (startLedger endLedger : ℤ) (campaignId : Option String) : String :=
  "backfill:" ++ toString startLedger ++ ":" ++ toString endLedger ++
    ((campaignId.filter (· ≠ "")).map (":" ++ ·)).getD ""

/-- What is written after a batch. `batch` is the batch if it was processed without an error, for the
record. -/
structure SaveData where
  lastProcessedLedger : ℤ
  processed : ℕ
  skipped : ℕ
  errors : ℕ
  lastError : Option String
  now : Time
  batch : Option (ℤ × ℤ)

structure Weather where
  db : Except String Unit := .ok ()
  fetchLedgerRange : ℤ → ℤ → Except String (List FetchedEntry) := fun _ _ => .ok []

/-- The tables and the queue. For the record, the batches that were processed without an error, the
number of entries that were inserted, and of those since the last progress was written. -/
structure Store where
  now : Time := 0
  checkpoint : Option BackfillCheckpoint := none
  entries : List LedgerEntry := []
  jobs : List BackfillJobData := []
  weather : Weather := {}
  processed : List (ℤ × ℤ) := []
  inserted : ℕ := 0
  unsaved : ℕ := 0

inductive Query
  | clock
  /-- Nothing but time goes by. -/
  | elapse (d : ℕ)
  | findByKey (jobKey : String)
  | findById (id : String)
  | createCheckpoint (row : BackfillCheckpoint)
  | resume (id : String) (triggeredBy : Option String) (now : Time)
  | addJob (job : BackfillJobData)
  /-- The queue delivers one of its jobs, perhaps once more. -/
  | takeJob (pick : ℕ)
  | findEntries (since : Time)
  | fetchLedgerRange (startLedger endLedger : ℤ)
  /-- An entry of a batch that ends with `batchEnd`. -/
  | createEntry (row : LedgerEntry) (batchEnd : ℤ)
  | saveProgress (id : String) (save : SaveData)
  | finish (id : String) (status : BackfillStatus) (now : Time)
  | cancel (id : String) (now : Time)
  /-- What the next calls come to is decided elsewhere. -/
  | foresee (weather : Weather)

def Query.Reply : Query → Type
  | .clock => Time
  | .elapse _ | .foresee _ | .addJob _ => Unit
  | .findByKey _ | .findById _ => Except String (Option BackfillCheckpoint)
  | .createCheckpoint _ | .resume .. => Except String BackfillCheckpoint
  | .takeJob _ => Option BackfillJobData
  | .findEntries _ => Except String (List String)
  | .fetchLedgerRange .. => Except String (List FetchedEntry)
  | .createEntry .. | .saveProgress .. | .finish .. | .cancel .. => Except String Unit

def Store.find (s : Store) (selects : BackfillCheckpoint → Bool) :
    Except String (Option BackfillCheckpoint) :=
  s.weather.db.map fun _ => s.checkpoint.filter selects

/-- `prisma.backfillCheckpoint.update`. -/
def Store.update (s : Store) (id : String) (f : BackfillCheckpoint → BackfillCheckpoint) :
    Except String (BackfillCheckpoint × Store) :=
  match s.weather.db, s.checkpoint.filter (·.id = id) with
  | .error e, _ => .error e
  | .ok (), none => .error "Record to update not found."
  | .ok (), some row => .ok (f row, { s with checkpoint := some (f row) })

def Store.createCheckpoint (s : Store) (row : BackfillCheckpoint) :
    Except String (BackfillCheckpoint × Store) :=
  match s.weather.db, s.checkpoint with
  | .error e, _ => .error e
  | .ok (), some _ => .error "Unique constraint failed on jobKey"
  | .ok (), none => .ok (row, { s with checkpoint := some row })

def Store.createEntry (s : Store) (row : LedgerEntry) : Except String (Unit × Store) :=
  match s.weather.db with
  | .error e => .error e
  | .ok () =>
    if row.id ∈ s.entries.map (·.id) then .error "Unique constraint failed on id"
    else .ok ((),
      { s with
        entries := s.entries ++ [row]
        inserted := s.inserted + 1
        unsaved := s.unsaved + 1 })

def resumed (triggeredBy : Option String) (now : Time) (row : BackfillCheckpoint) : BackfillCheckpoint :=
  { row with
    status := .running
    lastError := none
    triggeredBy := triggeredBy.or row.triggeredBy
    startedAt := now
    completedAt := none
    heartbeatAt := some now }

def saved (save : SaveData) (row : BackfillCheckpoint) : BackfillCheckpoint :=
  { row with
    lastProcessedLedger := save.lastProcessedLedger
    processedCount := row.processedCount + save.processed
    skippedCount := row.skippedCount + save.skipped
    errorCount := row.errorCount + save.errors
    lastError := save.lastError.or row.lastError
    heartbeatAt := some save.now }

def finished (status : BackfillStatus) (now : Time) (row : BackfillCheckpoint) : BackfillCheckpoint :=
  { row with status := status, completedAt := some now, heartbeatAt := some now }

def cancelled (now : Time) (row : BackfillCheckpoint) : BackfillCheckpoint :=
  { row with status := .cancelled, completedAt := some now }

def noRow (tx : Except String (BackfillCheckpoint × Store)) : Except String (Unit × Store) :=
  tx.map fun res => ((), res.2)

def Store.record (s : Store) (save : SaveData) : Store :=
  { s with processed := s.processed ++ save.batch.toList }

def Store.saveProgress (s : Store) (id : String) (save : SaveData) : Except String (Unit × Store) :=
  (s.update id (saved save)).map fun res => ((), { res.2 with unsaved := 0 })

def perform : (q : Query) → Store → q.Reply × Store
  | .clock, s => (s.now, s)
  | .elapse d, s => ((), { s with now := s.now + d })
  | .findByKey jobKey, s => (s.find (·.jobKey = jobKey), s)
  | .findById id, s => (s.find (·.id = id), s)
  | .createCheckpoint row, s => commit (s.createCheckpoint row) s
  | .resume id triggeredBy now, s => commit (s.update id (resumed triggeredBy now)) s
  | .addJob job, s => ((), { s with jobs := s.jobs ++ [job] })
  | .takeJob pick, s => (s.jobs[pick % s.jobs.length]?, s)
  | .findEntries since, s =>
    (s.weather.db.map fun _ => (s.entries.filter (since ≤ ·.createdAt)).map (·.id), s)
  | .fetchLedgerRange startLedger endLedger, s => (s.weather.fetchLedgerRange startLedger endLedger, s)
  | .createEntry row _, s => commit (s.createEntry row) s
  | .saveProgress id save, s => commit ((s.record save).saveProgress id save) (s.record save)
  | .finish id status now, s => commit (noRow (s.update id (finished status now))) s
  | .cancel id now, s => commit (noRow (s.update id (cancelled now))) s
  | .foresee weather, s => ((), { s with weather := weather })

abbrev Handler := Task Query Query.Reply String

def clock : Handler Time := .ask .clock fun now => .done (.ok now)

structure Counts where
  processed : ℕ := 0
  skipped : ℕ := 0

def createEntries (existingIds : List String) (campaignId : Option String) (batchEnd : ℤ) :
    Counts → List FetchedEntry → Handler Counts
  | counts, [] => return counts
  | counts, entry :: rest =>
    if entry.id ∈ existingIds then
      createEntries existingIds campaignId batchEnd { counts with skipped := counts.skipped + 1 } rest
    else do
      let _ ← .ask (.createEntry (entry.row campaignId) batchEnd) fun reply => .done reply
      createEntries existingIds campaignId batchEnd { counts with processed := counts.processed + 1 } rest

def dayMs : ℤ := 86400000

def processLedgerRange (startLedger endLedger : ℤ) (campaignId : Option String) : Handler Counts := do
  let now ← clock
  let existingIds ← .ask (.findEntries (now - dayMs)) fun reply => .done reply
  let ledgerData ← .ask (.fetchLedgerRange startLedger endLedger) fun reply => .done reply
  createEntries existingIds campaignId endLedger {} ledgerData

structure BatchTotals where
  processed : ℕ := 0
  skipped : ℕ := 0
  errors : List String := []

def BatchTotals.add (totals : BatchTotals) (startLedger endLedger : ℤ) :
    Except String Counts → BatchTotals
  | .ok counts =>
    { totals with
      processed := totals.processed + counts.processed
      skipped := totals.skipped + counts.skipped }
  | .error message =>
    { totals with
      errors := totals.errors ++
        ["Failed to process ledgers " ++ toString startLedger ++ "-" ++ toString endLedger ++ ": " ++
          message] }

def BatchTotals.save (totals : BatchTotals) (startLedger endLedger : ℤ) (result : Except String Counts)
    (now : Time) : SaveData where
  lastProcessedLedger := endLedger
  processed := totals.processed
  skipped := totals.skipped
  errors := totals.errors.length
  lastError := totals.errors.getLast?
  now := now
  batch :=
    match result with
    | .ok _ => some (startLedger, endLedger)
    | .error _ => none

/-- The loop over the batches from `ledger` on, for so many rounds: none if it is not at its end then. -/
def batchLoop (data : BackfillJobData) : ℕ → ℤ → BatchTotals → Handler (Option BatchTotals)
  | 0, _, _ => return none
  | rounds + 1, ledger, totals =>
    if ledger ≤ data.endLedger then do
      let batchEnd := min (ledger + data.batchSize - 1) data.endLedger
      let result ← (processLedgerRange ledger batchEnd data.campaignId).attempt
      let totals := totals.add ledger batchEnd result
      let now ← clock
      let _ ← .ask (.saveProgress data.checkpointId (totals.save ledger batchEnd result now))
        fun reply => .done reply
      batchLoop data rounds (ledger + data.batchSize) totals
    else return some totals

def rounds (data : BackfillJobData) : ℕ := (data.endLedger - data.startLedger + 1).toNat + 1

def processBackfillBatch (data : BackfillJobData) : Handler (Option BatchTotals) := do
  match ← batchLoop data (rounds data) data.startLedger {} with
  | none => return none
  | some totals =>
    let finalStatus := if totals.errors = [] then .completed else .failed
    let now ← clock
    let _ ← .ask (.finish data.checkpointId finalStatus now) fun reply => .done reply
    return some totals

def runJob (pick : ℕ) : Handler Unit := do
  let taken ← .ask (.takeJob pick) fun job => .done (.ok job)
  match taken with
  | none => return ()
  | some job =>
    let _ ← processBackfillBatch job
    return ()

inductive ResultStatus
  | queued
  | processing
  | completed
  | failed

structure BackfillResult where
  checkpointId : String
  jobKey : String
  startLedger : ℤ
  endLedger : ℤ
  status : ResultStatus
  processedCount : ℕ := 0
  skippedCount : ℕ := 0
  errorCount : ℕ := 0
  totalCount : ℤ
  resumeFrom : Option ℤ := none

structure Range where
  startLedger : ℤ
  endLedger : ℤ
  campaignId : Option String

def Range.jobKey (range : Range) : String :=
  buildJobKey range.startLedger range.endLedger range.campaignId

def Range.newCheckpoint (range : Range) (newId : String) (batchSize : ℤ) (triggeredBy : Option String)
    (now : Time) : BackfillCheckpoint where
  id := newId
  jobKey := range.jobKey
  startLedger := range.startLedger
  endLedger := range.endLedger
  lastProcessedLedger := range.startLedger
  campaignId := range.campaignId
  batchSize := batchSize
  triggeredBy := triggeredBy
  startedAt := now
  heartbeatAt := some now

def Range.result (range : Range) (row : BackfillCheckpoint) (status : ResultStatus) : BackfillResult where
  checkpointId := row.id
  jobKey := range.jobKey
  startLedger := range.startLedger
  endLedger := range.endLedger
  status := status
  processedCount := row.processedCount
  skippedCount := row.skippedCount
  errorCount := row.errorCount
  totalCount := range.endLedger - range.startLedger + 1

def addJob (job : BackfillJobData) : Handler Unit := .ask (.addJob job) fun _ => .done (.ok ())

def triggerBackfill (range : Range) (batchSize : ℤ) (triggeredBy : Option String) (newId : String) :
    Handler BackfillResult := do
  match ← .ask (.findByKey range.jobKey) fun reply => .done reply with
  | some existing =>
    if existing.status = .running then
      .done (.error ("A backfill job for ledger range " ++ toString range.startLedger ++ "-" ++
        toString range.endLedger ++ " is already running (id: " ++ existing.id ++ "). " ++
        "Use GET /admin/ledger/backfill/checkpoint/" ++ existing.id ++ " to monitor progress."))
    else if existing.status = .completed then return range.result existing .completed
    else
      -- `existing.lastProcessedLedger || startLedger`
      let resumeFrom :=
        if existing.lastProcessedLedger = 0 then range.startLedger else existing.lastProcessedLedger
      let now ← clock
      let checkpoint ← .ask (.resume existing.id triggeredBy now) fun reply => .done reply
      addJob
        { startLedger := resumeFrom, endLedger := range.endLedger, campaignId := range.campaignId,
          batchSize := batchSize, checkpointId := checkpoint.id }
      return { range.result existing .queued with resumeFrom := some resumeFrom }
  | none =>
    let now ← clock
    let checkpoint ← .ask (.createCheckpoint (range.newCheckpoint newId batchSize triggeredBy now))
      fun reply => .done reply
    addJob
      { startLedger := range.startLedger, endLedger := range.endLedger,
        campaignId := range.campaignId, batchSize := batchSize, checkpointId := checkpoint.id }
    return range.result checkpoint .queued

def cancelBackfill (checkpointId : String) : Handler Unit := do
  match ← .ask (.findById checkpointId) fun reply => .done reply with
  | none => .done (.error ("Backfill checkpoint " ++ checkpointId ++ " not found"))
  | some checkpoint =>
    if checkpoint.status ≠ .running then return ()
    else
      let now ← clock
      .ask (.cancel checkpointId now) fun reply => .done reply

inductive BackfillOp
  | triggerBackfill (batchSize : ℤ) (triggeredBy : Option String) (newId : String)
  | cancelBackfill (checkpointId : String)
  | runJob (pick : ℕ)
  | elapse (d : ℕ)
  | foresee (weather : Weather)

def BackfillOp.body (range : Range) : BackfillOp → Handler Unit
  | .triggerBackfill batchSize triggeredBy newId => do
    let _ ← Backfill.triggerBackfill range batchSize triggeredBy newId
    return ()
  | .cancelBackfill checkpointId => Backfill.cancelBackfill checkpointId
  | .runJob pick => Backfill.runJob pick
  | .elapse d => .ask (.elapse d) fun _ => .done (.ok ())
  | .foresee weather => .ask (.foresee weather) fun _ => .done (.ok ())

abbrev BackfillPool := Pool Store Query Query.Reply String Unit BackfillOp

inductive Event
  | turn (turn : Turn BackfillOp)
  | crash (thread : ℕ)

def BackfillPool.take (range : Range) (p : BackfillPool) : Event → Option BackfillPool
  | .turn turn => Pool.take perform (BackfillOp.body range) p turn
  | .crash i =>
    match p.threads[i]? with
    | some (op, .ask _ _) => some { p with threads := p.threads.set i (op, .done (.error "crashed")) }
    | _ => none

def BackfillStep (range : Range) (p : BackfillPool) (event : Event) (p' : BackfillPool) : Prop :=
  BackfillPool.take range p event = some p'

abbrev BackfillTransition := Transition BackfillPool Event

end Soter.Backfill
