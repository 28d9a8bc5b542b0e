import Soter.Soroban.Lifecycle

/-! The actions of the phone's offline queue, how its errors are told apart, what puts an attempt off and for how long
(`services/syncQueue.ts`). Times are milliseconds. -/
namespace Soter.SyncQueue

inductive SyncActionState
  | pending
  | retrying
  | failed
  | submitted
  | conflict
  deriving DecidableEq

inductive SyncActionPayload (K : Type)
  | statusRefresh
  | claimConfirmation
  | evidenceUpload (estimatedSize : ℕ)
  | claimSubmission (idempotencyKey : K)
  deriving DecidableEq

structure SyncActionRequest (K : Type) where
  payload : SyncActionPayload K
  urgent : Bool := false
  maxRetries : Option ℕ := none

structure QueuedSyncAction (K : Type) where
  id : ℕ
  payload : SyncActionPayload K
  urgent : Bool
  state : SyncActionState
  retryCount : ℕ
  maxRetries : ℕ
  nextRetryAt : ℤ
  rateLimitCount : ℕ
  deriving DecidableEq

section Errors

/-- What an attempt has thrown; a `RateLimitedError` brings the `Retry-After` of the server along, if it has sent one. -/
structure SyncError where
  message : String
  rateLimited : Option (Option ℤ) := none

variable (error : SyncError)

def SyncError.includes (patterns : List String) : Bool :=
  patterns.any fun pattern => pattern.toList <:+: Soroban.toLowerCase error.message

def conflictPatterns : List String :=
  ["409", "conflict", "already claimed", "already submitted", "already disbursed", "already verified", "already processed",
    "duplicate", "version mismatch", "idempotency conflict", "state conflict", "mismatch"]

def permanentFailurePatterns : List String :=
  ["400", "401", "403", "404", "bad request", "unauthorized", "forbidden", "not found", "validation"]

def retryableFailurePatterns : List String :=
  ["network", "timeout", "failed to fetch", "request failed", "429", "500", "502", "503"]

def isConflictError : Bool := error.includes conflictPatterns

def isRetryableError : Bool :=
  !isConflictError error && !error.includes permanentFailurePatterns && error.includes retryableFailurePatterns

def isRateLimitedError : Bool :=
  error.rateLimited.isSome || error.includes ["429", "rate limit", "too many requests"]

end Errors

def baseRetryDelayMs : ℤ := 30000
def maxRetryDelayMs : ℤ := 15 * 60 * 1000
def saverBackoffMultiplier : ℤ := 3

def backoffDelayMs (retryCount : ℕ) : ℤ := min (baseRetryDelayMs * 2 ^ retryCount) maxRetryDelayMs

def computeRateLimitBackoffMs (consecutiveRateLimits : ℕ) (retryAfterMs : Option ℤ) (saverMode : Bool) : ℤ :=
  let streak := max 1 consecutiveRateLimits
  let streakFloor := min (baseRetryDelayMs * 2 ^ streak) maxRetryDelayMs
  let delay := match retryAfterMs.filter (0 ≤ ·) with
    | some retryAfter => if 1 < streak then max retryAfter streakFloor else retryAfter
    | none => streakFloor
  min (max (if saverMode then delay * saverBackoffMultiplier else delay) 0) maxRetryDelayMs

structure FlushOptions where
  online : Bool := true
  saverMode : Bool := false
  forceSync : Bool := false
  batteryLevel : ℚ := -1
  isCharging : Bool := false
  isMetered : Bool := false
  meteredOptIn : Bool := false

inductive DeferralReason
  | lowBattery
  | largeUpload
  | meteredConnection
  deriving DecidableEq

def FlushOptions.isLowBattery (options : FlushOptions) : Bool :=
  !options.isCharging && 0 ≤ options.batteryLevel && options.batteryLevel < 1 / 5

def SyncActionPayload.isLargeUpload {K : Type} : SyncActionPayload K → Bool
  | .evidenceUpload estimatedSize => 5 * 1024 * 1024 < estimatedSize
  | _ => false

def FlushOptions.deferral {K : Type} (options : FlushOptions) (action : QueuedSyncAction K) : Option DeferralReason :=
  if (!action.urgent || options.isLowBattery) && !options.forceSync then
    if options.isLowBattery then some .lowBattery
    else if options.isMetered && !options.meteredOptIn then
      some (if action.payload.isLargeUpload then .largeUpload else .meteredConnection)
    else none
  else none

namespace QueuedSyncAction
variable {K : Type} (action : QueuedSyncAction K)

def isClaimSubmission : Bool :=
  match action.payload with
  | .claimSubmission _ => true
  | _ => false

def hasKey [DecidableEq K] (key : K) : Bool := action.payload = .claimSubmission key

def nextState (error : SyncError) : SyncActionState :=
  if isConflictError error then .conflict
  else if action.maxRetries ≤ action.retryCount + 1 || !isRetryableError error then .failed
  else .retrying

def nextRateLimitCount (error : SyncError) : ℕ := if isRateLimitedError error then action.rateLimitCount + 1 else 0

def delayMs (saverMode : Bool) (error : SyncError) : ℤ :=
  if isRateLimitedError error then computeRateLimitBackoffMs (action.nextRateLimitCount error) error.rateLimited.join saverMode
  else backoffDelayMs (action.retryCount + 1) * if saverMode then saverBackoffMultiplier else 1

def fail (now : ℤ) (saverMode : Bool) (error : SyncError) (item : QueuedSyncAction K) : QueuedSyncAction K :=
  { item with
    state := action.nextState error
    retryCount := action.retryCount + 1
    rateLimitCount := action.nextRateLimitCount error
    nextRetryAt := now + action.delayMs saverMode error }

def requeue (now : ℤ) : QueuedSyncAction K :=
  { action with state := .pending, retryCount := 0, rateLimitCount := 0, nextRetryAt := now }

end QueuedSyncAction

def defaultMaxRetries : ℕ := 5

def SyncActionRequest.action {K : Type} (request : SyncActionRequest K) (id : ℕ) (now : ℤ) : QueuedSyncAction K where
  id
  payload := request.payload
  urgent := request.urgent
  state := .pending
  retryCount := 0
  maxRetries := request.maxRetries.getD defaultMaxRetries
  nextRetryAt := now
  rateLimitCount := 0

end Soter.SyncQueue
