import Soter.Claims.Transactions
import Soter.Lib.Task

/-! The operations of `ClaimsService` and `CancelAndReissueService` as handlers on the database:
every `prisma` call outside a transaction and every transaction is one request. -/
namespace Soter.Claims
open Std Soter.Fallible Soter.Tasks Soter.Runs

inductive Query
  | findCampaign (id : CampaignId)
  | findClaim (id : ClaimId)
  | findExpiredClaims (now : Time)
  | create (dto : CreateClaimDto) (newId : ClaimId) (now : Time)
  | cancel (id : ClaimId) (claim : Claim) (dto : CancelClaimDto) (now : Time)
  | reissue (originalId : ClaimId) (original : Claim) (dto : ReissueClaimDto) (newId : ClaimId)
      (now : Time)
  | setStatus (id : ClaimId) (status : ClaimStatus)
  | setReceiptPointer (id : ClaimId) (receiptPointer : String)
  | recordVerification (id : ClaimId) (status : ClaimStatus) (result : VerificationResult)

def Query.Reply : Query → Type
  | .findCampaign _ => Option Campaign
  | .findClaim _ => Option Claim
  | .findExpiredClaims _ => List (ClaimId × Claim)
  | .create .. | .cancel .. | .setStatus .. | .setReceiptPointer .. | .recordVerification .. =>
    Except Failure Claim
  | .reissue .. => Except Failure (Claim × Claim)

def perform (services : Services) : (q : Query) → Db → q.Reply × Db
  | .findCampaign id, db => (db.campaigns[id]?, db)
  | .findClaim id, db => (db.claims[id]?, db)
  | .findExpiredClaims now, db => (db.expiredClaims now, db)
  | .create dto newId now, db => commit (createTx services dto newId now db) db
  | .cancel id claim dto now, db => commit (cancelTx id claim dto now db) db
  | .reissue originalId original dto newId now, db =>
    commit (reissueTx services originalId original dto newId now db) db
  | .setStatus id status, db => commit (setStatusTx id status db) db
  | .setReceiptPointer id receiptPointer, db => commit (setReceiptPointerTx id receiptPointer db) db
  | .recordVerification id status result, db => commit (recordVerificationTx id status result db) db

abbrev Handler := Task Query Query.Reply Failure

def findCampaign (id : CampaignId) : Handler (Option Campaign) :=
  .ask (.findCampaign id) fun found => .done (.ok found)

def findClaim (id : ClaimId) : Handler (Option Claim) :=
  .ask (.findClaim id) fun found => .done (.ok found)

def findExpiredClaims (now : Time) : Handler (List (ClaimId × Claim)) :=
  .ask (.findExpiredClaims now) fun rows => .done (.ok rows)

def setStatus (id : ClaimId) (status : ClaimStatus) : Handler Claim :=
  .ask (.setStatus id status) fun result => .done result

def setReceiptPointer (id : ClaimId) (receiptPointer : String) : Handler Claim :=
  .ask (.setReceiptPointer id receiptPointer) fun result => .done result

section CancelAndReissue
variable (services : Services)

def cancellableStatuses : List ClaimStatus := [.requested, .verified, .approved]

/-- The checks of `cancel` and `reissue` on the row they read, each with its own wording. -/
def checkCancellable (subject cannot may : String) (found : Option Claim) :
    Except Failure Claim := do
  let claim ← orFail (found.filter (·.deletedAt.isNone)) (notFound (subject ++ " not found"))
  require (claim.status ≠ .cancelled) (badRequest (subject ++ " is already cancelled"))
  require (claim.status ∈ cancellableStatuses)
    (badRequest (cannot ++ " a claim in status \"" ++ claim.status.name ++ "\". Only " ++
      ", ".intercalate (cancellableStatuses.map ClaimStatus.name) ++ " claims may be " ++ may ++
      "."))
  return claim

def decrypted (claim : Claim) : Handler Claim := do
  let recipientRef ← Task.done (services.decrypt claim.recipientRef)
  return { claim with recipientRef }

def cancel (id : ClaimId) (dto : CancelClaimDto) (now : Time) : Handler Claim := do
  let claim ← Task.done (checkCancellable "Claim" "Cannot cancel" "cancelled" (← findClaim id))
  let cancelled ← Task.ask (.cancel id claim dto now) fun result => .done result
  decrypted services cancelled

def reissue (originalId : ClaimId) (dto : ReissueClaimDto) (newId : ClaimId) (now : Time) :
    Handler (Claim × Claim) := do
  let original ← Task.done
    (checkCancellable "Original claim" "Cannot reissue from" "reissued" (← findClaim originalId))
  let pair ← Task.ask (.reissue originalId original dto newId now) fun result => .done result
  return (← decrypted services pair.1, ← decrypted services pair.2)

end CancelAndReissue
section ClaimsService
variable (services : Services)

def create (dto : CreateClaimDto) (newId : ClaimId) (now : Time) : Handler Claim := do
  let _ ← Task.done (orFail (← findCampaign dto.campaignId) (notFound "Campaign not found"))
  let claim ← Task.ask (.create dto newId now) fun result => .done result
  decrypted services claim

def findOne (id : ClaimId) : Handler Claim := do
  let claim ← Task.done
    (orFail ((← findClaim id).filter (·.deletedAt.isNone)) (notFound "Claim not found"))
  decrypted services claim

/-- The status is checked on a row read before the transaction; the transaction does not look
again. -/
def transitionStatus (id : ClaimId) (fromStatus toStatus : ClaimStatus) : Handler Claim := do
  let claim ← Task.done (orFail (← findClaim id) (notFound "Claim not found"))
  let _ ← Task.done (require (claim.status = fromStatus)
    (badRequest ("Cannot transition from " ++ claim.status.name ++ " to " ++ toStatus.name)))
  setStatus id toStatus

def verify (id : ClaimId) : Handler Claim := do
  let claim ← Task.done (orFail (← findClaim id) (notFound "Claim not found"))
  let verification ← Task.done (orFail claim.verification (badRequest ("Claim " ++ toString id ++
    " has no completed verification record. Verification is queued automatically when a claim " ++
    "is created; wait for it to complete before verifying.")))
  let _ ← Task.done (require (verification.passed = true) (badRequest ("Claim " ++ toString id ++
    " did not pass verification (score " ++ services.numberText verification.score ++
    " below threshold " ++ services.numberText verification.threshold ++
    ") and cannot be marked verified.")))
  if claim.status = .verified then findOne services id
  else transitionStatus id .requested .verified

def approve (id : ClaimId) : Handler Claim := transitionStatus id .verified .approved

/-- The on-chain block before the transition writes neither table and swallows its failures. -/
def disburse (id : ClaimId) (receiptPointer : Option String) : Handler Claim := do
  let claim ← Task.done (orFail (← findClaim id) (notFound "Claim not found"))
  let _ ← Task.done (require (claim.status = .approved)
    (badRequest ("Cannot transition from " ++ claim.status.name ++ " to " ++
      ClaimStatus.disbursed.name)))
  match receiptPointer.filter (· ≠ "") with
  | some receiptPointer => let _ ← setReceiptPointer id receiptPointer
  | none => pure ()
  transitionStatus id .approved .disbursed

def archive (id : ClaimId) : Handler Claim := transitionStatus id .disbursed .archived

/-- The loop of `cleanupExpiredClaims`; `onchain` answers for `cleanupExpiredClaimOnchain` and
`audit` for `auditService.record`. A failure of either ends the loop. -/
def archiveExpired (onchain audit : ClaimId → Except Failure Unit) :
    List (ClaimId × Claim) → ℕ → Handler ℕ
  | [], archived => pure archived
  | row :: rows, archived => do
    let _ ← Task.done (onchain row.1)
    let _ ← setStatus row.1 .archived
    let _ ← Task.done (audit row.1)
    archiveExpired onchain audit rows (archived + 1)

/-- `{ processed, archived }`. -/
def cleanupExpiredClaims (now : Time) (onchain audit : ClaimId → Except Failure Unit) :
    Handler (ℕ × ℕ) := do
  let expiredClaims ← findExpiredClaims now
  let archived ← archiveExpired onchain audit expiredClaims 0
  return (expiredClaims.length, archived)

end ClaimsService

/-- `VerificationService.processVerification`, once the pipeline has come to its score. -/
def processVerification (services : Services) (id : ClaimId) (score : ℚ) : Handler Claim := do
  let _ ← Task.done (orFail (← findClaim id)
    (.app ⟨.aiVerificationFailed, 404, "Claim with ID " ++ toString id ++ " not found"⟩))
  let shouldVerify : Bool := services.verificationThreshold ≤ score
  Task.ask (.recordVerification id (if shouldVerify then .verified else .requested)
    { passed := shouldVerify, score, threshold := services.verificationThreshold })
    fun result => .done result

inductive Op
  | create (dto : CreateClaimDto) (newId : ClaimId) (now : Time)
  | cancel (id : ClaimId) (dto : CancelClaimDto) (now : Time)
  | reissue (originalId : ClaimId) (dto : ReissueClaimDto) (newId : ClaimId) (now : Time)
  | verify (id : ClaimId)
  | approve (id : ClaimId)
  | disburse (id : ClaimId) (receiptPointer : Option String)
  | archive (id : ClaimId)
  | cleanupExpiredClaims (now : Time) (onchain audit : ClaimId → Except Failure Unit)
  | processVerification (id : ClaimId) (score : ℚ)

def Op.body (services : Services) : Op → Handler Unit
  | .create dto newId now => do let _ ← Claims.create services dto newId now
  | .cancel id dto now => do let _ ← Claims.cancel services id dto now
  | .reissue originalId dto newId now => do let _ ← Claims.reissue services originalId dto newId now
  | .verify id => do let _ ← Claims.verify services id
  | .approve id => do let _ ← Claims.approve id
  | .disburse id receiptPointer => do let _ ← Claims.disburse id receiptPointer
  | .archive id => do let _ ← Claims.archive id
  | .cleanupExpiredClaims now onchain audit => do
    let _ ← Claims.cleanupExpiredClaims now onchain audit
  | .processVerification id score => do let _ ← Claims.processVerification services id score

abbrev System := Pool Db Query Query.Reply Failure Unit Op

def Step (services : Services) : System → Turn Op → System → Prop :=
  Pool.Step (perform services) (Op.body services)

def idle (db : Db) : System := { store := db }

def plainServices : Services where
  encrypt := id
  decrypt := .ok
  numberText _ := ""
  verificationThreshold := 1 / 2

/-- The turns `turns`, taken one after the other from `idle db`. -/
def played (db : Db) (turns : List (Turn Op)) : List (Transition System (Turn Op)) × System :=
  play (Pool.take (perform plainServices) (Op.body plainServices)) (idle db) turns

theorem played_run (db : Db) (turns : List (Turn Op)) :
    Run (Step plainServices) (idle db) (played db turns).1 (played db turns).2 :=
  play_run (fun _ _ _ h => h) turns (idle db)

end Soter.Claims
