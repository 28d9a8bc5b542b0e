import Mathlib.Data.Int.Order.Basic
import Mathlib.Data.List.Nodup
import Mathlib.Order.Basic
import Soter.Lib.Rely

/-! `ReviewLockService`: the `ReviewLock` table, its requests and the handlers over them. Every request
is one Prisma call or one look at the clock. -/
namespace Soter.Review
open Soter.Tasks Soter.Runs

abbrev LockId := String
abbrev ReviewerId := String
/-- Milliseconds, as `Date.getTime` counts them. -/
abbrev Time := ℤ

inductive LockEntityType
  | verification
  | claim
  deriving DecidableEq

structure Entity where
  entityType : LockEntityType
  entityId : String
  deriving DecidableEq

inductive LockStatus
  | active
  | released
  | expired
  | forceExpired
  deriving DecidableEq

structure ReviewLock where
  id : LockId
  entity : Entity
  lockedBy : ReviewerId
  lockedAt : Time
  expiresAt : Time
  status : LockStatus := .active
  releasedAt : Option Time := none
  releaseReason : Option String := none
  version : ℕ := 1
  deriving DecidableEq

structure Store where
  now : Time
  locks : List ReviewLock := []

/-- The `where` clauses of the service; all of them ask for active rows. -/
structure LockWhere where
  entity : Option Entity := none
  lockedBy : Option ReviewerId := none
  expiresAfter : Option Time := none
  expiresBefore : Option Time := none

def LockWhere.selects (w : LockWhere) (l : ReviewLock) : Bool :=
  l.status = .active ∧ (∀ e ∈ w.entity, l.entity = e) ∧ (∀ u ∈ w.lockedBy, l.lockedBy = u) ∧
    (∀ t ∈ w.expiresAfter, t < l.expiresAt) ∧ ∀ t ∈ w.expiresBefore, l.expiresAt < t

structure NewLock where
  entity : Entity
  lockedBy : ReviewerId
  lockedAt : Time
  expiresAt : Time

def NewLock.row (new : NewLock) (id : LockId) : ReviewLock where
  id := id
  entity := new.entity
  lockedBy := new.lockedBy
  lockedAt := new.lockedAt
  expiresAt := new.expiresAt

inductive Failure
  | uniqueConstraint
  | recordNotFound
  | auditFailed
  deriving DecidableEq

inductive LockQuery
  | clock
  /-- Nothing but time goes by. -/
  | elapse (d : ℕ)
  /-- Which of several rows comes first is up to the database: `pick` of them. -/
  | findFirst (w : LockWhere) (pick : ℕ)
  | findUnique (id : LockId)
  | create (newId : LockId) (new : NewLock)
  | extend (id : LockId) (expiresAt : Time)
  | release (id : LockId) (releasedAt : Time) (reason : String)
  | forceExpire (w : LockWhere) (releasedAt : Time) (reason : String)
  /-- `auditService.record`, with its outcome. -/
  | record (outcome : Except Failure Unit)

def LockQuery.Reply : LockQuery → Type
  | .clock => Time
  | .elapse _ => Unit
  | .findFirst .. | .findUnique _ => Option ReviewLock
  | .create .. | .extend .. | .release .. => Except Failure ReviewLock
  | .forceExpire .. => ℕ
  | .record _ => Except Failure Unit

def Store.update (s : Store) (id : LockId) (f : ReviewLock → ReviewLock) :
    Except Failure ReviewLock × Store :=
  match s.locks.find? (·.id = id) with
  | none => (.error .recordNotFound, s)
  | some l => (.ok (f l), { s with locks := s.locks.map fun l => if l.id = id then f l else l })

def perform : (q : LockQuery) → Store → q.Reply × Store
  | .clock, s => (s.now, s)
  | .elapse d, s => ((), { s with now := s.now + d })
  | .findFirst w pick, s =>
    let found := s.locks.filter w.selects
    (found[pick % found.length]?, s)
  | .findUnique id, s => (s.locks.find? (·.id = id), s)
  | .create newId new, s =>
    if s.locks.any (·.id = newId) then (Except.error Failure.uniqueConstraint, s)
    else (Except.ok (new.row newId), { s with locks := s.locks ++ [new.row newId] })
  | .extend id expiresAt, s =>
    s.update id fun l => { l with expiresAt := expiresAt, version := l.version + 1 }
  | .release id releasedAt reason, s =>
    s.update id fun l =>
      { l with status := .released, releasedAt := some releasedAt, releaseReason := some reason }
  | .forceExpire w releasedAt reason, s =>
    ((s.locks.filter w.selects).length,
      { s with locks := s.locks.map fun l => if w.selects l then
          { l with status := .forceExpired, releasedAt := some releasedAt, releaseReason := some reason }
        else l })
  | .record outcome, s => (outcome, s)

abbrev LockHandler := Task LockQuery LockQuery.Reply Failure

def clock : LockHandler Time := .ask .clock fun now => .done (.ok now)

def findFirst (w : LockWhere) (pick : ℕ) : LockHandler (Option ReviewLock) :=
  .ask (.findFirst w pick) fun found => .done (.ok found)

def findUnique (id : LockId) : LockHandler (Option ReviewLock) :=
  .ask (.findUnique id) fun found => .done (.ok found)

def createLock (newId : LockId) (new : NewLock) : LockHandler ReviewLock :=
  .ask (.create newId new) fun result => .done result

def releaseRow (id : LockId) (releasedAt : Time) (reason : String) : LockHandler ReviewLock :=
  .ask (.release id releasedAt reason) fun result => .done result

def forceExpire (w : LockWhere) (releasedAt : Time) (reason : String) : LockHandler ℕ :=
  .ask (.forceExpire w releasedAt reason) fun count => .done (.ok count)

def record (outcome : Except Failure Unit) : LockHandler Unit :=
  .ask (.record outcome) fun result => .done result

inductive LockResponseCode
  | acquired
  | alreadyLocked
  | notLocked
  | expired
  | released
  | conflict
  | notOwner
  deriving DecidableEq

inductive SuggestedAction
  | refreshPage
  | tryAgainLater
  | forceRefresh
  deriving DecidableEq

structure LockInfoResponse where
  lockId : LockId
  entity : Entity
  lockedBy : ReviewerId
  lockedAt : Time
  expiresAt : Time
  code : LockResponseCode := .acquired
  message : String := "Lock is active"
  remainingSeconds : ℤ

structure LockConflictResponse where
  code : LockResponseCode := .alreadyLocked
  message : String := "Entity is currently locked by another reviewer"
  lockedBy : ReviewerId
  lockedAt : Time
  expiresAt : Time
  remainingSeconds : ℤ
  suggestedAction : SuggestedAction

structure LockResult where
  success : Bool
  lockId : Option LockId := none
  code : LockResponseCode
  message : String
  conflict : Option LockConflictResponse := none
  lockInfo : Option LockInfoResponse := none

/-- What a call meets outside the table: the row that the database finds first, the id it draws for a
new row and whether the entry of the audit log goes through. -/
structure LockContext where
  pick : ℕ := 0
  newId : LockId := ""
  audit : Except Failure Unit := .ok ()

def defaultDurationSeconds : ℕ := 300
def staleLockThresholdMs : ℤ := 2 * 60 * 1000

def remainingSeconds (l : ReviewLock) (now : Time) : ℤ := max 0 ((l.expiresAt - now) / 1000)

def buildLockInfo (l : ReviewLock) : LockHandler LockInfoResponse := do
  let now ← clock
  return { lockId := l.id, entity := l.entity, lockedBy := l.lockedBy, lockedAt := l.lockedAt,
           expiresAt := l.expiresAt, remainingSeconds := remainingSeconds l now }

def suggestedAction (remainingSeconds : ℤ) : SuggestedAction :=
  if 60 < remainingSeconds then .tryAgainLater
  else if 10 < remainingSeconds then .refreshPage
  else .forceRefresh

def buildConflictResponse (l : ReviewLock) : LockHandler LockConflictResponse := do
  let now ← clock
  return { lockedBy := l.lockedBy, lockedAt := l.lockedAt, expiresAt := l.expiresAt,
           remainingSeconds := remainingSeconds l now,
           suggestedAction := suggestedAction (remainingSeconds l now) }

def durationMs (durationSeconds : Option ℕ) : ℤ := (durationSeconds.getD defaultDurationSeconds : ℕ) * 1000

def refreshExistingLock (lockId : LockId) (durationSeconds : Option ℕ) : LockHandler ReviewLock := do
  let now ← clock
  .ask (.extend lockId (now + durationMs durationSeconds)) fun result => .done result

def cleanupStaleLocks (entity : Entity) : LockHandler ℕ := do
  let now ← clock
  forceExpire { entity := some entity, expiresBefore := some (now - staleLockThresholdMs) } now
    "stale_cleanup"

def heldWhere (entity : Entity) (now : Time) : LockWhere where
  entity := some entity
  expiresAfter := some now

/-- What `acquireLock` goes on with once it has found no row that holds the entity. -/
def acquireFresh (new : NewLock) (ctx : LockContext) : LockHandler LockResult := do
  let _ ← cleanupStaleLocks new.entity
  let lock ← createLock ctx.newId new
  let _ ← record ctx.audit
  let lockInfo ← buildLockInfo lock
  return { success := true, lockId := some lock.id, code := .acquired,
           message := "Lock acquired successfully", lockInfo := some lockInfo }

def acquireLock (entity : Entity) (durationSeconds : Option ℕ) (reviewerId : ReviewerId)
    (ctx : LockContext) : LockHandler LockResult := do
  let now ← clock
  match ← findFirst (heldWhere entity now) ctx.pick with
  | some existingLock =>
    if existingLock.lockedBy = reviewerId then
      let refreshedLock ← refreshExistingLock existingLock.id durationSeconds
      let lockInfo ← buildLockInfo refreshedLock
      return { success := true, lockId := some refreshedLock.id, code := .acquired,
               message := "Lock refreshed successfully", lockInfo := some lockInfo }
    else
      let conflict ← buildConflictResponse existingLock
      return { success := false, code := .alreadyLocked,
               message := "Entity is currently locked by another reviewer",
               conflict := some conflict }
  | none =>
    acquireFresh { entity := entity, lockedBy := reviewerId, lockedAt := now,
                   expiresAt := now + durationMs durationSeconds } ctx

def releaseLock (lockId : LockId) (reviewerId : ReviewerId) (ctx : LockContext) :
    LockHandler LockResult := do
  match ← findUnique lockId with
  | none => return { success := false, code := .notLocked, message := "Lock not found" }
  | some lock =>
    if lock.status ≠ .active then
      return { success := false, code := .notLocked, message := "Lock is not active" }
    else if lock.lockedBy ≠ reviewerId then
      let conflict ← buildConflictResponse lock
      return { success := false, code := .notOwner, message := "You do not own this lock",
               conflict := some conflict }
    else
      let now ← clock
      let _ ← releaseRow lockId now "manual"
      let _ ← record ctx.audit
      return { success := true, lockId := some lock.id, code := .released,
               message := "Lock released successfully" }

def refreshLock (lockId : LockId) (durationSeconds : Option ℕ) (reviewerId : ReviewerId)
    (ctx : LockContext) : LockHandler LockResult := do
  match ← findUnique lockId with
  | none => return { success := false, code := .notLocked, message := "Lock not found" }
  | some lock =>
    if lock.status ≠ .active then
      return { success := false, code := .expired, message := "Lock is no longer active" }
    else if lock.lockedBy ≠ reviewerId then
      let conflict ← buildConflictResponse lock
      return { success := false, code := .notOwner, message := "You do not own this lock",
               conflict := some conflict }
    else
      let refreshedLock ← refreshExistingLock lock.id durationSeconds
      let _ ← record ctx.audit
      let lockInfo ← buildLockInfo refreshedLock
      return { success := true, lockId := some refreshedLock.id, code := .acquired,
               message := "Lock refreshed successfully", lockInfo := some lockInfo }

def getLockStatus (entity : Entity) (ctx : LockContext) : LockHandler (Option LockInfoResponse) := do
  let now ← clock
  let _ ← cleanupStaleLocks entity
  match ← findFirst (heldWhere entity now) ctx.pick with
  | none => return none
  | some lock =>
    let lockInfo ← buildLockInfo lock
    return some lockInfo

/-- What `verifyLockOwnership` goes on with once it has looked for a row that holds the entity. -/
def verifyFound (reviewerId : ReviewerId) : Option ReviewLock → LockHandler LockResult
  | none =>
    return { success := false, code := .notLocked, message := "No active lock found on this entity" }
  | some lock =>
    if lock.lockedBy ≠ reviewerId then do
      let conflict ← buildConflictResponse lock
      return { success := false, code := .conflict, message := "Lock is held by another reviewer",
               conflict := some conflict }
    else do
      let lockInfo ← buildLockInfo lock
      return { success := true, lockId := some lock.id, code := .acquired, message := "Lock verified",
               lockInfo := some lockInfo }

def verifyLockOwnership (entity : Entity) (reviewerId : ReviewerId) (ctx : LockContext) :
    LockHandler LockResult := do
  let now ← clock
  verifyFound reviewerId (← findFirst (heldWhere entity now) ctx.pick)

def releaseLockForReview (entity : Entity) (reviewerId : ReviewerId) (ctx : LockContext) :
    LockHandler Unit := do
  let now ← clock
  match ← findFirst { heldWhere entity now with lockedBy := some reviewerId } ctx.pick with
  | none => return ()
  | some lock =>
    let releasedAt ← clock
    let _ ← releaseRow lock.id releasedAt "review_completed"
    record ctx.audit

def recoverStaleLocks (ctx : LockContext) : LockHandler ℕ := do
  let now ← clock
  let count ← forceExpire
    { expiresBefore := some (now - staleLockThresholdMs), expiresAfter := some 0 } now
    "stale_lock_recovery"
  if 0 < count then
    let _ ← record ctx.audit
  return count

inductive LockOp
  | acquire (entity : Entity) (durationSeconds : Option ℕ) (reviewerId : ReviewerId) (ctx : LockContext)
  | release (lockId : LockId) (reviewerId : ReviewerId) (ctx : LockContext)
  | refresh (lockId : LockId) (durationSeconds : Option ℕ) (reviewerId : ReviewerId)
      (ctx : LockContext)
  | getStatus (entity : Entity) (ctx : LockContext)
  | verifyOwnership (entity : Entity) (reviewerId : ReviewerId) (ctx : LockContext)
  | releaseForReview (entity : Entity) (reviewerId : ReviewerId) (ctx : LockContext)
  | recover (ctx : LockContext)
  | elapse (d : ℕ)

def LockOp.body : LockOp → LockHandler Unit
  | .acquire entity durationSeconds reviewerId ctx => do
    let _ ← acquireLock entity durationSeconds reviewerId ctx
  | .release lockId reviewerId ctx => do
    let _ ← releaseLock lockId reviewerId ctx
  | .refresh lockId durationSeconds reviewerId ctx => do
    let _ ← refreshLock lockId durationSeconds reviewerId ctx
  | .getStatus entity ctx => do
    let _ ← getLockStatus entity ctx
  | .verifyOwnership entity reviewerId ctx => do
    let _ ← verifyLockOwnership entity reviewerId ctx
  | .releaseForReview entity reviewerId ctx => releaseLockForReview entity reviewerId ctx
  | .recover ctx => do
    let _ ← recoverStaleLocks ctx
  | .elapse d => .ask (.elapse d) fun _ => .done (.ok ())

abbrev LockSystem := Pool Store LockQuery LockQuery.Reply Failure Unit LockOp
abbrev LockTransition := Transition LockSystem (Turn LockOp)

def LockStep : LockSystem → Turn LockOp → LockSystem → Prop := Pool.Step perform LockOp.body

end Soter.Review
