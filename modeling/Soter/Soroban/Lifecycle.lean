import Mathlib
import Soter.Lib.Task
import Soter.Soroban.Records

/-! `SorobanTransactionLifecycleService`, its scheduler and its queue workers, as far as one record goes:
every Prisma call, every job added or taken and every look at the clock is one request. What the adapter
asks of the chain is a parameter. -/
namespace Soter.Soroban
open Soter.Tasks Soter.Runs

structure TrackedTransaction extends SorobanTransaction String where
  id : String
  updatedAt : Time
  deriving DecidableEq

inductive JobOperation
  | execute
  | retry
  | cleanup
  deriving DecidableEq

structure SorobanTransactionJobData where
  transactionId : String
  operation : JobOperation
  deriving DecidableEq

structure Store (K : Type) where
  now : Time
  transaction : TrackedTransaction
  jobs : List SorobanTransactionJobData := []
  chain : K

/-- The lower case of a character. Outside ASCII only the Kelvin sign and the dotted capital I have a
letter from `a` to `z` in theirs; the others are left alone, no text that is looked for has them. -/
def lowerCase (c : Char) : List Char :=
  if c = Char.ofNat 0x212A then ['k']
  else if c = Char.ofNat 0x130 then ['i', Char.ofNat 0x307]
  else [c.toLower]

def toLowerCase (s : String) : List Char := s.toList.flatMap lowerCase

/-- The texts that `classifyError` looks for, in this order. -/
def retryableTexts : List (RetryableErrorType × List String) :=
  [(.networkTimeout, ["timeout", "network"]),
    (.rateLimit, ["rate limit", "too many requests"]),
    (.congestion, ["congestion", "busy"]),
    (.txTooLate, ["tx_too_late", "sequence"]),
    (.insufficientFee, ["insufficient fee", "fee too low"]),
    (.temporaryFailure, ["temporary", "retry"])]

structure ErrorClass where
  errorType : Option RetryableErrorType
  isRetryable : Bool
  deriving DecidableEq

def classifyError (errorMessage : String) : ErrorClass :=
  match retryableTexts.find? fun (_, texts) =>
      texts.any fun text => text.toList <:+: toLowerCase errorMessage with
  | some (errorType, _) => { errorType := some errorType, isRetryable := true }
  | none => { errorType := none, isRetryable := false }

section Requests

/-- What `handleTransactionError` writes. -/
structure ErrorRecord where
  attemptNumber : ℕ
  lastError : String
  errorType : Option RetryableErrorType
  shouldRetry : Bool
  nextRetryAt : Option Time
  now : Time

def ErrorRecord.status (e : ErrorRecord) : SorobanTransactionStatus :=
  if e.shouldRetry then .pending else .failed

inductive Query (C : Type)
  | clock
  /-- Nothing but time goes by. -/
  | elapse (d : ℕ)
  | sleepUntil (t : Time)
  | findUnique (id : String)
  | updateTransactionStatus (id : String) (status : SorobanTransactionStatus) (now : Time)
  | confirm (id txHash : String) (attemptNumber : ℕ) (now : Time)
  | recordError (id : String) (error : ErrorRecord)
  | findRetryable (now : Time)
  | findStuck (stuckThreshold : Time)
  | expire (createdBefore now : Time)
  | resetForRetry (id : String) (forceRetry : Bool) (now : Time)
  | addJob (job : SorobanTransactionJobData)
  /-- Which of the jobs comes next is up to the queue: `pick` of them. -/
  | takeJob (pick : ℕ)
  | chain (c : C)

variable {C K : Type} (ChainReply : C → Type)

def Query.Reply : Query C → Type
  | .clock => Time
  | .elapse _ | .sleepUntil _ | .addJob _ => Unit
  | .findUnique _ => Option TrackedTransaction
  | .updateTransactionStatus .. | .confirm .. | .recordError .. | .resetForRetry .. =>
    Except String Unit
  | .findRetryable _ | .findStuck _ => List TrackedTransaction
  | .expire .. => ℕ
  | .takeJob _ => Option SorobanTransactionJobData
  | .chain c => ChainReply c

def Store.rows (s : Store K) (selects : TrackedTransaction → Bool) : List TrackedTransaction :=
  [s.transaction].filter selects

def Store.write (s : Store K) (f : SorobanTransaction String → SorobanTransaction String) : Store K :=
  { s with transaction :=
      { s.transaction with
        toSorobanTransaction := f s.transaction.toSorobanTransaction
        updatedAt := s.now } }

/-- `prisma.sorobanTransaction.update`. -/
def Store.update (s : Store K) (id : String)
    (f : SorobanTransaction String → SorobanTransaction String) : Except String Unit × Store K :=
  if s.transaction.id = id then (.ok (), s.write f) else (.error "Record to update not found.", s)

def setStatus (status : SorobanTransactionStatus) (now : Time) (tx : SorobanTransaction String) :
    SorobanTransaction String :=
  { tx with
    status := status
    submittedAt := if status = .submitted then some now else tx.submittedAt
    confirmedAt := if status = .confirmed then some now else tx.confirmedAt
    failedAt := if status = .failed then some now else tx.failedAt }

def setConfirmed (txHash : String) (attemptNumber : ℕ) (now : Time) (tx : SorobanTransaction String) :
    SorobanTransaction String :=
  { tx with
    status := .confirmed
    txHash := some txHash
    confirmedAt := some now
    attemptCount := attemptNumber
    lastRetryAt := some now
    lastError := none
    errorType := none }

def setError (error : ErrorRecord) (tx : SorobanTransaction String) : SorobanTransaction String :=
  { tx with
    status := error.status
    attemptCount := error.attemptNumber
    lastRetryAt := some error.now
    lastError := some error.lastError
    errorType := error.errorType
    isRetryable := error.shouldRetry
    nextRetryAt := error.nextRetryAt
    failedAt := if error.shouldRetry then none else some error.now }

def setExpired (now : Time) (tx : SorobanTransaction String) : SorobanTransaction String :=
  { tx with status := .expired, expiredAt := some now, isRetryable := false }

def setForRetry (forceRetry : Bool) (now : Time) (tx : SorobanTransaction String) :
    SorobanTransaction String :=
  { tx with
    status := .pending
    nextRetryAt := some now
    isRetryable := true
    attemptCount := if forceRetry then 0 else tx.attemptCount }

def TrackedTransaction.ready (tx : TrackedTransaction) (now : Time) : Bool :=
  tx.status = .pending ∧ tx.isRetryable = true ∧ (∃ t ∈ tx.nextRetryAt, t ≤ now) ∧
    tx.attemptCount < tx.maxAttempts

def TrackedTransaction.unfinished (tx : TrackedTransaction) : Bool :=
  tx.status = .pending ∨ tx.status = .submitted

variable {ChainReply} (serve : (c : C) → Time → K → ChainReply c × K)

def perform : (q : Query C) → Store K → q.Reply ChainReply × Store K
  | .clock, s => (s.now, s)
  | .elapse d, s => ((), { s with now := s.now + d })
  | .sleepUntil t, s => ((), { s with now := max s.now t })
  | .findUnique id, s => ((s.rows (·.id = id)).head?, s)
  | .updateTransactionStatus id status now, s => s.update id (setStatus status now)
  | .confirm id txHash attemptNumber now, s => s.update id (setConfirmed txHash attemptNumber now)
  | .recordError id error, s => s.update id (setError error)
  | .findRetryable now, s => ((s.rows (·.ready now)).take 50, s)
  | .findStuck stuckThreshold, s =>
    (s.rows fun tx => tx.unfinished && tx.updatedAt < stuckThreshold, s)
  | .expire createdBefore now, s =>
    let expired := s.rows fun tx => tx.unfinished && tx.createdAt < createdBefore
    (expired.length, if expired = [] then s else s.write (setExpired now))
  | .resetForRetry id forceRetry now, s => s.update id (setForRetry forceRetry now)
  | .addJob job, s => ((), { s with jobs := s.jobs ++ [job] })
  | .takeJob pick, s =>
    let i := pick % s.jobs.length
    (s.jobs[i]?, { s with jobs := s.jobs.eraseIdx i })
  | .chain c, s => ((serve c s.now s.chain).1, { s with chain := (serve c s.now s.chain).2 })

end Requests
section Handlers
variable {C : Type} {ChainReply : C → Type}

abbrev Handler {C : Type} (ChainReply : C → Type) :=
  Task (Query C) (Query.Reply ChainReply) String

def clock : Handler ChainReply Time := .ask .clock fun now => .done (.ok now)

def sleepUntil (t : Time) : Handler ChainReply Unit := .ask (.sleepUntil t) fun _ => .done (.ok ())

def findUnique (id : String) : Handler ChainReply (Option TrackedTransaction) :=
  .ask (.findUnique id) fun found => .done (.ok found)

def addJob (job : SorobanTransactionJobData) : Handler ChainReply Unit :=
  .ask (.addJob job) fun _ => .done (.ok ())

def updateTransactionStatus (id : String) (status : SorobanTransactionStatus) :
    Handler ChainReply Unit := do
  let now ← clock
  .ask (.updateTransactionStatus id status now) fun result => .done result

/-- The calls of `OnchainAdapter` that a record stands for. What `!` vouches for may be missing. -/
inductive AdapterCall
  | createClaim (claimId recipientAddress amount tokenAddress : Option String) (expiresAt : ℤ)
  | disburse (claimId packageId tokenAddress receiptPointer : Option String)
  | initEscrow (adminAddress : Option String)

def thirtyDaysSeconds : ℤ := 30 * 24 * 60 * 60

def adapterCall (tx : TrackedTransaction) : Handler ChainReply AdapterCall :=
  match tx.operation with
  | .createClaim => do
    let now ← clock
    return .createClaim tx.claimId tx.recipientAddress tx.amount tx.tokenAddress
      (now / 1000 + thirtyDaysSeconds)
  | .disburseClaim =>
    return .disburse tx.claimId tx.packageId tx.tokenAddress tx.receiptPointer
  | .initEscrow => return .initEscrow tx.operatorAddress

def baseRetryDelayMs : ℤ := 2000
def maxRetryDelayMs : ℤ := 300000
def backoffMultiplier : ℤ := 2

def retryDelay (attemptNumber jitter : ℕ) : ℤ :=
  min (baseRetryDelayMs * backoffMultiplier ^ (attemptNumber - 1) + jitter) maxRetryDelayMs

def handleTransactionError (id errorMessage : String) (attemptNumber jitter : ℕ) :
    Handler ChainReply Unit := do
  match ← findUnique id with
  | none => .done (.error ("Transaction " ++ id ++ " not found during error handling"))
  | some transaction =>
    let shouldRetry :=
      (classifyError errorMessage).isRetryable && decide (attemptNumber < transaction.maxAttempts)
    let now ← clock
    .ask (.recordError id
        { attemptNumber := attemptNumber
          lastError := errorMessage
          errorType := (classifyError errorMessage).errorType
          shouldRetry := shouldRetry
          nextRetryAt := if shouldRetry then some (now + retryDelay attemptNumber jitter) else none
          now := now })
      fun result => .done result

/-- What `executeTransaction` tries: the record is marked, the adapter called and its result written. -/
def submitAttempt (onchainAdapter : AdapterCall → Handler ChainReply String) (id : String)
    (transaction : TrackedTransaction) (attemptNumber : ℕ) : Handler ChainReply Unit := do
  updateTransactionStatus id .submitted
  let call ← adapterCall transaction
  let transactionHash ← onchainAdapter call
  let now ← clock
  .ask (.confirm id transactionHash attemptNumber now) fun result => .done result

def executeTransactionInContext (onchainAdapter : AdapterCall → Handler ChainReply String)
    (jitter : ℕ) (id : String) (transaction : TrackedTransaction) : Handler ChainReply Unit :=
  if transaction.isRetryable = false ∨ transaction.maxAttempts ≤ transaction.attemptCount then
    return ()
  else do
    let attemptNumber := transaction.attemptCount + 1
    match ← (submitAttempt onchainAdapter id transaction attemptNumber).attempt with
    | .ok () => return ()
    | .error errorMessage => handleTransactionError id errorMessage attemptNumber jitter

def executeTransaction (onchainAdapter : AdapterCall → Handler ChainReply String) (jitter : ℕ)
    (id : String) : Handler ChainReply Unit := do
  match ← findUnique id with
  | none => .done (.error ("Soroban transaction " ++ id ++ " not found"))
  | some transaction => executeTransactionInContext onchainAdapter jitter id transaction

def transactionExpiryMs : ℤ := 24 * 60 * 60 * 1000

def markExpiredTransactions : Handler ChainReply ℕ := do
  let now ← clock
  .ask (.expire (now - transactionExpiryMs) now) fun count => .done (.ok count)

def getRetryableTransactions : Handler ChainReply (List TrackedTransaction) := do
  let now ← clock
  .ask (.findRetryable now) fun rows => .done (.ok rows)

inductive StuckTransactionClassification
  | retryable
  | terminal
  deriving DecidableEq

def classifyStuckTransaction (tx : TrackedTransaction) : StuckTransactionClassification :=
  if tx.isRetryable = true ∧ tx.attemptCount < tx.maxAttempts then .retryable else .terminal

structure StuckTransactionDetectionResult where
  stuckCount : ℕ
  retryableCount : ℕ
  terminalCount : ℕ
  /-- Each with its class and the time that it has been without progress. -/
  transactions : List (TrackedTransaction × StuckTransactionClassification × Time)

def detectStuckTransactions (thresholdMs : ℕ) : Handler ChainReply StuckTransactionDetectionResult := do
  let now ← clock
  let stuck ← .ask (.findStuck (now - thresholdMs)) fun rows => .done (.ok rows)
  let transactions := stuck.map fun tx => (tx, classifyStuckTransaction tx, now - tx.updatedAt)
  return { stuckCount := transactions.length
           retryableCount := (transactions.filter (·.2.1 = .retryable)).length
           terminalCount := (transactions.filter (·.2.1 = .terminal)).length
           transactions := transactions }

def retryTransaction (onchainAdapter : AdapterCall → Handler ChainReply String) (jitter : ℕ)
    (id : String) (forceRetry : Bool) : Handler ChainReply Unit := do
  match ← findUnique id with
  | none => .done (.error ("Transaction " ++ id ++ " not found"))
  | some transaction =>
    if forceRetry = false ∧ transaction.isRetryable = false then
      .done (.error ("Transaction " ++ id ++ " is not retryable"))
    else if forceRetry = false ∧ transaction.maxAttempts ≤ transaction.attemptCount then
      .done (.error ("Transaction " ++ id ++ " has exceeded maximum attempts"))
    else
      let now ← clock
      let _ ← .ask (.resetForRetry id forceRetry now) fun result => .done result
      executeTransaction onchainAdapter jitter id

end Handlers
section Jobs
variable {C E : Type} {ChainReply : C → Type}

def scheduleTransaction (id : String) : Handler ChainReply Unit :=
  addJob { transactionId := id, operation := .execute }

def addRetryJobs : List TrackedTransaction → Handler ChainReply Unit
  | [] => return ()
  | tx :: rest => do
    addJob { transactionId := tx.id, operation := .retry }
    addRetryJobs rest

def scheduleRetryableTransactions : Handler ChainReply Unit := do
  addRetryJobs (← getRetryableTransactions)

def cleanupExpiredTransactions : Handler ChainReply Unit :=
  addJob { transactionId := "cleanup", operation := .cleanup }

structure SorobanTransactionJobResult where
  success : Bool
  transactionId : String
  txHash : Option String := none
  error : Option String := none
  deriving DecidableEq

def runOperation (onchainAdapter : AdapterCall → Handler ChainReply String) (jitter : ℕ)
    (job : SorobanTransactionJobData) : Handler ChainReply Unit :=
  match job.operation with
  | .execute | .retry => executeTransaction onchainAdapter jitter job.transactionId
  | .cleanup => do
    let _ ← markExpiredTransactions
    return ()

def runJob (onchainAdapter : AdapterCall → Handler ChainReply String) (jitter : ℕ)
    (job : SorobanTransactionJobData) : Handler ChainReply SorobanTransactionJobResult := do
  match ← (runOperation onchainAdapter jitter job).attempt with
  | .error error =>
    return { success := false, transactionId := job.transactionId, error := some error }
  | .ok () =>
    if job.operation = .cleanup then
      return { success := true, transactionId := job.transactionId }
    else
      let transaction ← findUnique job.transactionId
      return { success := true, transactionId := job.transactionId,
               txHash := (transaction.bind (·.txHash)).filter (· ≠ "") }

def process (onchainAdapter : AdapterCall → Handler ChainReply String) (pick jitter : ℕ) :
    Handler ChainReply Unit := do
  let taken ← .ask (.takeJob pick) fun job => .done (.ok job)
  match taken with
  | none => return ()
  | some job =>
    let _ ← runJob onchainAdapter jitter job
    return ()

/-- What sets off a handler: the creation of the record, the clock of the scheduler, a worker that is
idle, a job that is put back because its worker is taken for dead, or the administrator. And the chain
has events of its own. -/
inductive LifecycleOp (E : Type)
  | scheduleTransaction (id : String)
  | scheduleRetryableTransactions
  | cleanupExpiredTransactions
  | detectStuckTransactions (thresholdMs : ℕ)
  | process (pick jitter : ℕ)
  | stalled (job : SorobanTransactionJobData)
  | retryTransaction (id : String) (forceRetry : Bool) (jitter : ℕ)
  | elapse (d : ℕ)
  | chain (e : E)

def LifecycleOp.body (onchainAdapter : AdapterCall → Handler ChainReply String) (event : E → C) :
    LifecycleOp E → Handler ChainReply Unit
  | .scheduleTransaction id => Soroban.scheduleTransaction id
  | .scheduleRetryableTransactions => Soroban.scheduleRetryableTransactions
  | .cleanupExpiredTransactions => Soroban.cleanupExpiredTransactions
  | .detectStuckTransactions thresholdMs => do
    let _ ← Soroban.detectStuckTransactions thresholdMs
    return ()
  | .process pick jitter => Soroban.process onchainAdapter pick jitter
  | .stalled job => addJob job
  | .retryTransaction id forceRetry jitter =>
    Soroban.retryTransaction onchainAdapter jitter id forceRetry
  | .elapse d => .ask (.elapse d) fun _ => .done (.ok ())
  | .chain e => .ask (.chain (event e)) fun _ => .done (.ok ())

abbrev System {C : Type} (K : Type) (ChainReply : C → Type) (E : Type) :=
  Pool (Store K) (Query C) (Query.Reply ChainReply) String Unit (LifecycleOp E)

end Jobs
end Soter.Soroban
