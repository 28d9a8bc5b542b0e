import Mathlib.Data.Int.Notation
import Std.Data.ExtTreeMap
import Soter.Lib.Fallible

/-! The data of the aid escrow contract: its records, its errors and the events it publishes. -/
namespace Soter.AidEscrow
open Std

/-- An account or contract address. The host hands out opaque handles that it can compare. -/
structure Address where
  handle : ℕ
  deriving DecidableEq, Repr

instance : Ord Address := ⟨compareOn Address.handle⟩
instance : TransOrd Address := inferInstanceAs <| TransCmp (compareOn _)
instance : LawfulEqOrd Address where
  eq_of_compare {a b} h := by
    cases a
    cases b
    exact congrArg Address.mk (Nat.compare_eq_eq.mp h)

/-- A Soroban `Symbol`. -/
abbrev Symbol := String
/-- A Soroban `String`: bytes, in no particular encoding. -/
abbrev Text := List UInt8
abbrev Metadata := ExtTreeMap Symbol Text

/-- A value of type `[u8; 32]`. -/
structure Bytes32 where
  bytes : List UInt8
  length_eq : bytes.length = 32
  deriving DecidableEq

def metaMerkleRootKey : Symbol := "merkle_root"
def metaCampaignRef : Symbol := "campaign_ref"
def metaClaimStartsAt : Symbol := "claim_starts_at"
def metaReceiptHash : Symbol := "receipt_hash"

def maxBatchClaimSize : ℕ := 25
def maxBatchRevokeRefundSize : ℕ := 25
def defaultMaxDistributors : ℕ := 100
def eventSchemaVersion : ℕ := 1
def surplusWithdrawalDelaySecs : ℕ := 86400

inductive PackageStatus
  | created | claimed | expired | cancelled | refunded
  deriving DecidableEq, Repr

structure Package where
  id : ℕ
  recipient : Address
  amount : ℤ
  token : Address
  status : PackageStatus
  createdAt : ℕ
  expiresAt : ℕ
  claimStartsAt : ℕ
  metadata : Metadata
  evidenceHash : Text

structure Config where
  minAmount : ℤ
  maxExpiresIn : ℕ
  allowedTokens : List Address
  claimCooldown : ℕ

structure PendingWithdrawal where
  «to» : Address
  token : Address
  amount : ℤ
  executableAt : ℕ
  deriving DecidableEq

inductive ClaimStatus
  | success | notFound | notActive | claimTooEarly | expired | requiresProof | unauthorized
  | campaignPaused | transferFailed | cooldownActive
  deriving DecidableEq, Repr

structure BatchClaimResult where
  packageId : ℕ
  status : ClaimStatus
  amount : ℤ
  deriving DecidableEq, Repr

inductive BatchAdminActionStatus
  | success | notFound | invalidState | expired | notExpired | campaignPaused | transferFailed
  deriving DecidableEq, Repr

structure BatchAdminActionResult where
  packageId : ℕ
  status : BatchAdminActionStatus
  amount : ℤ
  deriving DecidableEq, Repr

inductive Error
  | notInitialized | alreadyInitialized | notAuthorized | invalidAmount | packageNotFound
  | packageNotActive | packageExpired | packageNotExpired | insufficientFunds | packageIdExists
  | invalidState | mismatchedArrays | insufficientSurplus | contractPaused | claimTooEarly
  | invalidProof | invalidToken | tokenTransferFailed | noPendingTransfer | invalidPendingAdmin
  | batchTooLarge | claimCooldownActive | distributorAlreadyExists | distributorNotFound
  | distributorSetFull | surplusWithdrawalPending | surplusWithdrawalNotPending
  | surplusWithdrawalTimelockActive
  deriving DecidableEq, Repr

/-- Why an invocation did not go through: an error the contract returned, or a trap of the host
(arithmetic overflow, a missing signature, an index out of range). Both undo the whole call. -/
inductive Fault
  | error (e : Error)
  | trap
  deriving DecidableEq, Repr

abbrev Result := Except Fault

structure DelegateHistory where
  packageId : ℕ
  previousDelegate : Option Address
  newDelegate : Address
  changedBy : Address
  changedAt : ℕ
  reason : Symbol
  deriving DecidableEq

inductive Event
  | escrowFunded («from» token : Address) (amount : ℤ) (timestamp : ℕ)
  | packageCreated (packageId : ℕ) (recipient : Address) (amount : ℤ) (actor : Address)
      (timestamp : ℕ)
  | packageReassigned (packageId : ℕ) (previousRecipient newRecipient actor : Address)
      (timestamp : ℕ)
  | packageClaimed (packageId : ℕ) (recipient : Address) (amount : ℤ) (actor : Address)
      (timestamp : ℕ) (receiptHash : Text)
  | packageClaimedByRelayer (packageId : ℕ) (recipient relayer : Address) (amount : ℤ)
      (timestamp : ℕ)
  | packageDisbursed (packageId : ℕ) (recipient : Address) (amount : ℤ) (actor : Address)
      (timestamp : ℕ) (receiptHash : Text)
  | packageRevoked (packageId : ℕ) (recipient : Address) (amount : ℤ) (actor : Address)
      (timestamp : ℕ)
  | packageRefunded (packageId : ℕ) (recipient : Address) (amount : ℤ) (actor : Address)
      (timestamp : ℕ)
  | packageSwept (packageId : ℕ) (recipient : Address) (amount : ℤ) (actor : Address)
      (timestamp : ℕ)
  | batchCreatedEvent (ids : List ℕ) (admin : Address) (totalAmount : ℤ)
  | extendedEvent (packageId : ℕ) (admin : Address) (oldExpiresAt newExpiresAt : ℕ)
  | surplusWithdrawnEvent («to» token : Address) (amount : ℤ)
  | surplusWithdrawalProposed («to» token : Address) (amount : ℤ) (executableAt timestamp : ℕ)
  | surplusWithdrawalCancelled («to» token : Address) (amount : ℤ) (timestamp : ℕ)
  | contractPausedEvent (admin : Address)
  | contractUnpausedEvent (admin : Address)
  | actionPausedEvent (admin : Address) (action : Symbol)
  | actionUnpausedEvent (admin : Address) (action : Symbol)
  | campaignPausedEvent (admin : Address) (campaignRef : Text)
  | campaignUnpausedEvent (admin : Address) (campaignRef : Text)
  | delegateAdded (packageId : ℕ) (recipient delegate actor : Address) (expiresAt timestamp : ℕ)
  | delegateRevoked (packageId : ℕ) (recipient delegate actor : Address) (timestamp : ℕ)
  | delegateClaimed (packageId : ℕ) (recipient delegate : Address) (amount : ℤ) (actor : Address)
      (timestamp : ℕ)
  | adminTransferInitiated (admin pendingAdmin : Address) (timestamp : ℕ)
  | adminTransferAccepted (admin : Address) (timestamp : ℕ)
  | adminTransferCancelled (admin : Address) (timestamp : ℕ)
  | tokenAdded (admin token : Address) (timestamp : ℕ)
  | tokenRemoved (admin token : Address) (timestamp : ℕ)
  | distributorAdded (admin distributor : Address) (totalDistributors timestamp : ℕ)
  | distributorRemoved (admin distributor : Address) (totalDistributors timestamp : ℕ)
  | evidenceAttached (packageId : ℕ) (admin : Address) (evidenceHash : Text) (timestamp : ℕ)
  deriving DecidableEq

structure Published where
  schemaVersion : ℕ
  event : Event
  deriving DecidableEq

end Soter.AidEscrow
