import Soter.Lib.Run
import Soter.Search.Index

/-! The rebuilds of the search index (`search-index.service.ts`): what instances of the service do with the builds and
with the index. Between any two calls of the database anybody else may have a turn, and an instance may crash. The
source does not change. -/
namespace Soter.Search
open Soter.Keyset Soter.Runs

inductive SearchIndexBuildStatus
  | running
  | completed
  | failed
  deriving DecidableEq

inductive RebuildMode
  | rebuild
  | dryRun
  deriving DecidableEq

structure EntityCursorState where
  cursor : Option String := none
  done : Bool := false

abbrev RebuildCheckpoint := SearchIndexEntityType → EntityCursorState

def emptyCheckpoint : RebuildCheckpoint := fun _ => {}

structure EntityCounts where
  campaign : ℕ
  claim : ℕ
  recipient : ℕ
  verification : ℕ

def EntityCounts.total (counts : EntityCounts) : ℕ :=
  counts.campaign + counts.claim + counts.recipient + counts.verification

/-- A row of `SearchIndexBuild`. -/
structure SearchIndexBuild where
  status : SearchIndexBuildStatus := .running
  mode : RebuildMode
  entityTypes : List SearchIndexEntityType
  batchSize : ℤ
  triggeredBy : Option String
  totalDocuments : ℕ := 0
  processedDocuments : ℕ := 0
  checkpoint : Option RebuildCheckpoint := none
  statistics : Option EntityCounts := none
  error : Option String := none
  completedAt : Option ℤ := none
  heartbeatAt : Option ℤ := none
  updatedAt : ℤ

/-- A row of `SearchIndexEntry`. -/
structure SearchIndexEntry where
  record : IndexRecord
  buildId : ℕ
  deriving DecidableEq

/-- A build's id is its place in `builds`. Each instance of the service has its own `activeBuildId`. -/
structure Store where
  now : ℤ := 0
  entries : List SearchIndexEntry := []
  builds : List SearchIndexBuild := []
  activeBuildId : ℕ → Option ℕ := fun _ => none
  /-- How the next calls of the database fare, and whether the advisory lock is free. -/
  db : Except String Unit := .ok ()
  locked : Bool := true

structure RebuildOptions where
  dryRun : Bool := false
  resume : Bool := false
  batchSize : Option ℤ := none
  entityTypes : List SearchIndexEntityType := []
  triggeredBy : Option String := none

inductive RebuildClaim
  | created (buildId : ℕ) (dryRun : Bool)
  | resumed (buildId : ℕ)

inductive Failure
  | app (status : ℕ) (message : String)
  | prisma (message : String)

def Failure.message : Failure → String
  | .app _ message => message
  | .prisma message => message

def defaultBatchSize : ℕ := 100
def minBatchSize : ℤ := 10
def maxBatchSize : ℤ := 1000
def staleThresholdMs : ℤ := 5 * 60 * 1000

def resolveEntityTypes (input : List SearchIndexEntityType) : List SearchIndexEntityType :=
  if input = [] then searchIndexEntityTypes else input.eraseDups

def clampBatchSize (batchSize : Option ℤ) : ℕ :=
  match batchSize with
  | none => defaultBatchSize
  | some n => (min maxBatchSize (max minBatchSize n)).toNat

def supersede (now : ℤ) (build : SearchIndexBuild) : SearchIndexBuild :=
  { build with
    status := .failed
    error := some "Superseded by a fresh rebuild after becoming stale"
    completedAt := some now }

def SearchIndexBuild.finishDryRun (counts : EntityCounts) (triggeredBy : Option String) (now : ℤ)
    (build : SearchIndexBuild) : SearchIndexBuild :=
  { build with
    status := .completed
    totalDocuments := counts.total
    processedDocuments := counts.total
    statistics := some counts
    triggeredBy := triggeredBy
    completedAt := some now }

def SearchIndexBuild.total (counts : EntityCounts) (build : SearchIndexBuild) : SearchIndexBuild :=
  { build with totalDocuments := counts.total, statistics := some counts }

def SearchIndexBuild.retrigger (triggeredBy : String) (build : SearchIndexBuild) : SearchIndexBuild :=
  { build with triggeredBy := some triggeredBy }

def SearchIndexBuild.persist (checkpoint : RebuildCheckpoint) (processed : ℕ) (now : ℤ) (build : SearchIndexBuild) :
    SearchIndexBuild :=
  { build with processedDocuments := processed, checkpoint := some checkpoint, heartbeatAt := some now }

def SearchIndexBuild.complete (checkpoint : RebuildCheckpoint) (processed : ℕ) (now : ℤ) (build : SearchIndexBuild) :
    SearchIndexBuild :=
  { build with
    status := .completed
    processedDocuments := processed
    checkpoint := some checkpoint
    completedAt := some now
    heartbeatAt := some now }

def SearchIndexBuild.fail (message : String) (now : ℤ) (build : SearchIndexBuild) : SearchIndexBuild :=
  { build with status := .failed, error := some message, completedAt := some now, heartbeatAt := some now }

namespace Store
variable (s : Store)

/-- `prisma.searchIndexBuild.update`. -/
def update (id : ℕ) (f : SearchIndexBuild → SearchIndexBuild) : Store :=
  { s with builds := s.builds.modify id fun build => { f build with updatedAt := s.now } }

def running : Option ℕ :=
  (List.range s.builds.length).reverse.find? fun id => (s.builds[id]?.map (·.status)) = some .running

def isStale (build : SearchIndexBuild) : Bool :=
  staleThresholdMs < s.now - build.heartbeatAt.getD build.updatedAt

def setActive (inst : ℕ) (id : Option ℕ) : Store :=
  { s with activeBuildId := fun i => if i = inst then id else s.activeBuildId i }

/-- The `finally` of a build. -/
def release (inst id : ℕ) : Store := if s.activeBuildId inst = some id then s.setActive inst none else s

def createBuild (options : RebuildOptions) : RebuildClaim × Store :=
  let mode := if options.dryRun then .dryRun else .rebuild
  (.created s.builds.length options.dryRun,
    { s with builds := s.builds ++
      [{ mode, entityTypes := resolveEntityTypes options.entityTypes, batchSize := clampBatchSize options.batchSize
         triggeredBy := options.triggeredBy, updatedAt := s.now
         checkpoint := if mode = .rebuild then some emptyCheckpoint else none }] })

/-- The transaction of `startRebuild`. -/
def claim (inst : ℕ) (options : RebuildOptions) : Except Failure (RebuildClaim × Store) :=
  match s.db with
  | .error e => .error (.prisma e)
  | .ok () =>
    if s.locked = false then
      .error (.app 409 "A search index rebuild request is already being claimed; retry shortly")
    else
      match s.activeBuildId inst with
      | some id => .error (.app 409 s!"A search index rebuild ({id}) is already running in this process")
      | none =>
        match s.running with
        | none =>
          if options.resume then .error (.app 400 "No interrupted search index rebuild to resume")
          else .ok (s.createBuild options)
        | some id =>
          let stale := (s.builds[id]?.map s.isStale).getD false
          if options.resume then
            if stale = false then
              .error (.app 409 s!"Search index rebuild {id} is still active, so it cannot be resumed yet")
            else .ok (.resumed id, s)
          else if stale = false then
            .error (.app 409 (s!"A search index rebuild ({id}) is already in progress; concurrent rebuilds are rejected. "
              ++ "Wait for it to finish, or pass resume=true after it stalls."))
          else .ok ((s.update id (supersede s.now)).createBuild options)

/-- `prisma.searchIndexEntry.upsert` -/
def upsertEntry (record : IndexRecord) (buildId : ℕ) : Store :=
  { s with entries := upsert (fun entry : SearchIndexEntry => entry.record.key) ⟨record, buildId⟩ s.entries }

/-- `prisma.searchIndexEntry.deleteMany({ where: { entityType, buildId: { not: buildId } } })` -/
def deleteStale (entityType : SearchIndexEntityType) (buildId : ℕ) : Store :=
  { s with entries := s.entries.filter fun entry => ¬ (entry.record.entityType = entityType ∧ entry.buildId ≠ buildId) }

end Store

def Source.countDocuments (source : Source) : EntityCounts where
  campaign := source.campaigns.countP fun row => row.deletedAt = none ∧ (row.orgId ≠ none ∨ row.ngoId ≠ none)
  claim := source.claimRows.length
  recipient := (source.recipientRows.map (·.recipientRef)).eraseDups.length
  verification := source.verificationRows.length

section Workers

/-- What `processBuild` has read of its build. -/
structure Job where
  id : ℕ
  entityTypes : List SearchIndexEntityType
  batchSize : ℕ

structure Progress where
  checkpoint : RebuildCheckpoint
  processed : ℕ

inductive Phase
  /-- `startRebuild`, up to its transaction, and what follows it. -/
  | claiming (options : RebuildOptions)
  | counting (id : ℕ) (dryRun : Bool) (triggeredBy : Option String)
  | totalling (id : ℕ) (dryRun : Bool) (triggeredBy : Option String) (counts : EntityCounts)
  | auditingDryRun
  /-- `resumeBuild` -/
  | resuming (id : ℕ) (triggeredBy : Option String)
  | retriggering (id : ℕ) (triggeredBy : String)
  /-- `resumeInterruptedBuilds` -/
  | booting
  /-- `processBuild`, and what is left of its loops: of the types after this one, of the records of a batch, or of the
  types that are to be purged. -/
  | loading (id : ℕ)
  | scanning (job : Job) (progress : Progress) (entityType : SearchIndexEntityType) (rest : List SearchIndexEntityType)
      (seen : List String)
  | upserting (job : Job) (progress : Progress) (entityType : SearchIndexEntityType) (rest : List SearchIndexEntityType)
      (seen : List String) (record : IndexRecord) (records : List IndexRecord)
  | persisting (job : Job) (progress : Progress) (entityType : SearchIndexEntityType) (rest : List SearchIndexEntityType)
      (seen : List String)
  | purging (job : Job) (progress : Progress) (entityType : SearchIndexEntityType) (rest : List SearchIndexEntityType)
  | completing (job : Job) (progress : Progress)
  | auditing (job : Job)
  | failing (id : ℕ) (message : String)
  | ended

def Phase.purge (job : Job) (progress : Progress) : List SearchIndexEntityType → Phase
  | [] => .completing job progress
  | entityType :: rest => .purging job progress entityType rest

def Phase.index (job : Job) (progress : Progress) : List SearchIndexEntityType → Phase
  | [] => .purge job progress job.entityTypes
  | entityType :: rest =>
    if (progress.checkpoint entityType).done then .index job progress rest
    else .scanning job progress entityType rest []

def Phase.upsert (job : Job) (progress : Progress) (entityType : SearchIndexEntityType)
    (rest : List SearchIndexEntityType) (seen : List String) : List IndexRecord → Phase
  | [] => .persisting job progress entityType rest seen
  | record :: records => .upserting job progress entityType rest seen record records

def Progress.add (progress : Progress) (entityType : SearchIndexEntityType) (batch : EntityBatch) : Progress where
  checkpoint t :=
    if t = entityType then { cursor := batch.nextCursor, done := batch.nextCursor = none } else progress.checkpoint t
  processed := progress.processed + batch.records.length

def Phase.afterClaim (inst : ℕ) (options : RebuildOptions) : RebuildClaim × Store → Phase × Store
  | (.resumed id, s) => (.resuming id options.triggeredBy, s)
  | (.created id true, s) => (.counting id true options.triggeredBy, s)
  | (.created id false, s) => (.counting id false options.triggeredBy, s.setActive inst (some id))

variable (lower : String → String) (source : Source)

def Phase.act (inst : ℕ) : Phase → Store → Phase × Store
  | .claiming options, s =>
    match s.claim inst options with
    | .error _ => (.ended, s)
    | .ok claimed => Phase.afterClaim inst options claimed
  | .counting id dryRun triggeredBy, s =>
    match s.db with
    | .error _ => (.ended, s)
    | .ok () => (.totalling id dryRun triggeredBy source.countDocuments, s)
  | .totalling id dryRun triggeredBy counts, s =>
    match s.db with
    | .error _ => (.ended, s)
    | .ok () =>
      if dryRun then (.auditingDryRun, s.update id (.finishDryRun counts triggeredBy s.now))
      else (.loading id, (s.update id (.total counts)).setActive inst (some id))
  | .auditingDryRun, s => (.ended, s)
  | .resuming id triggeredBy, s =>
    match s.db, s.builds[id]? with
    | .error _, _ | .ok (), none => (.ended, s)
    | .ok (), some build =>
      if build.status ≠ .running then (.ended, s)
      else
        match triggeredBy.filter (· ≠ "") with
        | none => (.loading id, s.setActive inst (some id))
        | some actor => (.retriggering id actor, s)
  | .retriggering id triggeredBy, s =>
    match s.db with
    | .error _ => (.ended, s)
    | .ok () =>
      (.loading id, (s.update id (.retrigger triggeredBy)).setActive inst (some id))
  | .booting, s =>
    match s.db, s.running with
    | .error _, _ | .ok (), none => (.ended, s)
    | .ok (), some id =>
      if (s.builds[id]?.map s.isStale).getD false then (.loading id, s.setActive inst (some id)) else (.ended, s)
  | .loading id, s =>
    match s.db, s.builds[id]? with
    | .error _, _ | .ok (), none => (.ended, s)
    | .ok (), some build =>
      if build.mode = .dryRun ∨ build.status ≠ .running ∨ (s.activeBuildId inst).any (· ≠ id) then (.ended, s)
      else
        let job := ⟨id, resolveEntityTypes build.entityTypes, clampBatchSize (some build.batchSize)⟩
        (.index job ⟨build.checkpoint.getD emptyCheckpoint, build.processedDocuments⟩ job.entityTypes,
          s.setActive inst (some id))
  | .scanning job progress entityType rest seen, s =>
    match s.db with
    | .error e => (.failing job.id e, s)
    | .ok () =>
      let batch := scanEntityBatch lower source entityType (progress.checkpoint entityType).cursor job.batchSize seen
      (.upsert job (progress.add entityType batch) entityType rest batch.seen batch.records, s)
  | .upserting job progress entityType rest seen record records, s =>
    match s.db with
    | .error e => (.failing job.id e, s)
    | .ok () => (.upsert job progress entityType rest seen records, s.upsertEntry record job.id)
  | .persisting job progress entityType rest seen, s =>
    match s.db with
    | .error e => (.failing job.id e, s)
    | .ok () =>
      (if (progress.checkpoint entityType).done then .index job progress rest
        else .scanning job progress entityType rest seen,
        s.update job.id (.persist progress.checkpoint progress.processed s.now))
  | .purging job progress entityType rest, s =>
    match s.db with
    | .error e => (.failing job.id e, s)
    | .ok () => (.purge job progress rest, s.deleteStale entityType job.id)
  | .completing job progress, s =>
    match s.db with
    | .error e => (.failing job.id e, s)
    | .ok () =>
      (.auditing job, s.update job.id (.complete progress.checkpoint progress.processed s.now))
  | .auditing job, s =>
    match s.db with
    | .error e => (.failing job.id e, s)
    | .ok () => (.ended, s.release inst job.id)
  | .failing id message, s =>
    match s.db with
    | .error _ => (.ended, s.release inst id)
    | .ok () =>
      (.ended, (s.update id (.fail message s.now)).release inst id)
  | .ended, s => (.ended, s)

structure Worker where
  inst : ℕ
  phase : Phase

structure World where
  store : Store
  workers : List Worker := []

inductive Event
  | startRebuild (inst : ℕ) (options : RebuildOptions)
  | onModuleInit (inst : ℕ)
  | advance (worker : ℕ)
  | crash (inst : ℕ)
  | elapse (d : ℕ)
  | foresee (db : Except String Unit) (locked : Bool)

def Worker.crash (inst : ℕ) (worker : Worker) : Worker :=
  if worker.inst = inst then { worker with phase := .ended } else worker

def World.take (w : World) : Event → Option World
  | .startRebuild inst options => some { w with workers := w.workers ++ [⟨inst, .claiming options⟩] }
  | .onModuleInit inst => some { w with workers := w.workers ++ [⟨inst, .booting⟩] }
  | .advance i =>
    match w.workers[i]? with
    | none => none
    | some worker => some
        { store := (worker.phase.act lower source worker.inst w.store).2
          workers := w.workers.set i { worker with phase := (worker.phase.act lower source worker.inst w.store).1 } }
  | .crash inst => some { store := w.store.setActive inst none, workers := w.workers.map (Worker.crash inst) }
  | .elapse d => some { w with store := { w.store with now := w.store.now + d } }
  | .foresee db locked => some { w with store := { w.store with db := db, locked := locked } }

def World.Step (w : World) (event : Event) (w' : World) : Prop := w.take lower source event = some w'

abbrev RebuildTransition := Transition World Event

end Workers
end Soter.Search
