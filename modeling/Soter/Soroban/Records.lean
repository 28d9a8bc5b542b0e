import Mathlib.Data.Nat.Notation
import Mathlib.Data.Int.Notation

/-! The record that a Soroban transaction is tracked by (`prisma/schema.prisma`). -/
namespace Soter.Soroban

abbrev TransactionId := ℕ
/-- Milliseconds, as `Date.getTime` counts them. -/
abbrev Time := ℤ

inductive SorobanTransactionStatus
  | pending
  | submitted
  | confirmed
  | failed
  | expired
  deriving DecidableEq

inductive SorobanOperationType
  | createClaim
  | disburseClaim
  | initEscrow
  deriving DecidableEq

inductive RetryableErrorType
  | networkTimeout
  | rateLimit
  | congestion
  | temporaryFailure
  | txTooLate
  | insufficientFee
  deriving DecidableEq

/-- A row of `SorobanTransaction`, for claims with ids in `ClaimId`. -/
structure SorobanTransaction (ClaimId : Type) where
  claimId : Option ClaimId
  operation : SorobanOperationType
  packageId : Option String := none
  txHash : Option String := none
  status : SorobanTransactionStatus := .pending
  attemptCount : ℕ := 0
  maxAttempts : ℕ := 5
  lastRetryAt : Option Time := none
  nextRetryAt : Option Time := none
  lastError : Option String := none
  errorType : Option RetryableErrorType := none
  isRetryable : Bool := true
  operatorAddress : Option String := none
  recipientAddress : Option String := none
  amount : Option String := none
  tokenAddress : Option String := none
  submittedAt : Option Time := none
  confirmedAt : Option Time := none
  failedAt : Option Time := none
  expiredAt : Option Time := none
  correlationId : Option String := none
  /-- The `receiptPointer` entry of `metadata`. -/
  receiptPointer : Option String := none
  createdAt : Time
  deriving DecidableEq

structure CreateSorobanTransactionParams (ClaimId : Type) where
  claimId : Option ClaimId := none
  operation : SorobanOperationType
  packageId : Option String := none
  operatorAddress : Option String := none
  recipientAddress : Option String := none
  amount : Option String := none
  tokenAddress : Option String := none
  correlationId : Option String := none
  receiptPointer : Option String := none
  maxAttempts : Option ℕ := none
  deriving DecidableEq

/-- The row that `createTransaction` writes at the time `now`. -/
def CreateSorobanTransactionParams.row {ClaimId : Type} (params : CreateSorobanTransactionParams ClaimId)
    (now : Time) : SorobanTransaction ClaimId where
  claimId := params.claimId
  operation := params.operation
  packageId := params.packageId
  operatorAddress := params.operatorAddress
  recipientAddress := params.recipientAddress
  amount := params.amount
  tokenAddress := params.tokenAddress
  correlationId := params.correlationId
  receiptPointer := params.receiptPointer
  -- `params.maxAttempts || 5`
  maxAttempts := (params.maxAttempts.filter (· ≠ 0)).getD 5
  status := .pending
  nextRetryAt := some now
  createdAt := now

end Soter.Soroban
