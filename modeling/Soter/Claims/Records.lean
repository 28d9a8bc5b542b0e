import Mathlib.Data.NNRat.Defs
import Soter.Lib.Fallible
import Std.Data.ExtTreeMap

/-! The tables behind the claims API (`prisma/schema.prisma`) and the accesses that the services
build their transactions from. Amounts are exact. -/
namespace Soter.Claims
open Std Soter.Fallible

abbrev CampaignId := ℕ
abbrev ClaimId := ℕ
/-- Milliseconds, as `Date.getTime` counts them. -/
abbrev Time := ℤ

inductive ClaimStatus
  | requested
  | verified
  | approved
  | disbursed
  | archived
  | cancelled
  deriving DecidableEq

def ClaimStatus.name : ClaimStatus → String
  | .requested => "requested"
  | .verified => "verified"
  | .approved => "approved"
  | .disbursed => "disbursed"
  | .archived => "archived"
  | .cancelled => "cancelled"

/-- `BalanceLedger.eventType`. The column is free text; the services read three of its values. -/
inductive EventType
  | lock
  | unlock
  | disburse
  | other (name : String)
  deriving DecidableEq

structure Campaign where
  budget : ℚ≥0
  deletedAt : Option Time := none

/-- What `verify` reads of a `PersistedVerificationResult`. -/
structure VerificationResult where
  passed : Bool
  score : ℚ
  threshold : ℚ

structure Claim where
  status : ClaimStatus := .requested
  campaignId : CampaignId
  amount : ℚ≥0
  recipientRef : String
  evidenceRef : Option String := none
  expiresAt : Option Time := none
  deletedAt : Option Time := none
  cancelledAt : Option Time := none
  cancelledBy : Option String := none
  cancelReason : Option String := none
  reissuedFromId : Option ClaimId := none
  /-- The `verification` entry of `anchorMetadata`. -/
  verification : Option VerificationResult := none
  receiptPointer : Option String := none
  importJobId : Option String := none
  importRowNumber : Option ℤ := none

structure LedgerEntry where
  campaignId : CampaignId
  claimId : Option ClaimId
  eventType : EventType
  amount : ℚ
  note : Option String

structure Db where
  campaigns : ExtTreeMap CampaignId Campaign := ∅
  claims : ExtTreeMap ClaimId Claim := ∅
  ledger : List LedgerEntry := []

inductive ErrorCode
  | notFound
  | badRequest
  | aiVerificationFailed
  deriving DecidableEq

structure AppException where
  code : ErrorCode
  status : ℕ
  message : String
  deriving DecidableEq

inductive Failure
  | app (e : AppException)
  /-- Prisma's P2025: the row to update is missing. -/
  | recordNotFound
  /-- Prisma's P2002: the id is taken. -/
  | uniqueConstraint
  /-- Thrown by code outside the services. -/
  | external (message : String)
  deriving DecidableEq

def notFound (message : String) : Failure := .app ⟨.notFound, 404, message⟩

def badRequest (message : String) : Failure := .app ⟨.badRequest, 400, message⟩

/-- `tx.claim.create`, with the id that the database drew for the row. -/
def Db.createClaim (db : Db) (id : ClaimId) (claim : Claim) : Except Failure Db := do
  require (db.claims[id]?.isNone) .uniqueConstraint
  return { db with claims := db.claims.insert id claim }

/-- `tx.claim.update` by id. -/
def Db.updateClaim (db : Db) (id : ClaimId) (data : Claim → Claim) : Except Failure (Claim × Db) := do
  let claim ← orFail db.claims[id]? .recordNotFound
  return (data claim, { db with claims := db.claims.insert id (data claim) })

/-- `tx.balanceLedger.create`. -/
def Db.createEntry (db : Db) (entry : LedgerEntry) : Db :=
  { db with ledger := db.ledger ++ [entry] }

/-- The rows of one campaign, as `findMany` and `aggregate` select them. -/
def entriesOf (campaignId : CampaignId) (ledger : List LedgerEntry) : List LedgerEntry :=
  ledger.filter (·.campaignId = campaignId)

structure CreateClaimDto where
  campaignId : CampaignId
  amount : ℚ≥0
  recipientRef : String
  evidenceRef : Option String := none
  expiresAt : Option Time := none
  importJobId : Option String := none
  importRowNumber : Option ℤ := none

structure CancelClaimDto where
  operatorId : String
  reason : Option String := none

structure ReissueClaimDto where
  operatorId : String
  amount : Option ℚ≥0 := none
  recipientRef : Option String := none
  reason : Option String := none

/-- What the services use from outside: encryption, number formatting and the configuration. -/
structure Services where
  encrypt : String → String
  decrypt : String → Except Failure String
  numberText : ℚ → String
  verificationThreshold : ℚ

end Soter.Claims
