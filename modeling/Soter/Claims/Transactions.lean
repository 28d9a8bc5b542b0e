import Soter.Claims.Budget
import Soter.Lib.MapSum

/-! The database transactions of `ClaimsService` and `CancelAndReissueService`. Each takes what its
handler read before it, and the id that the database draws for a new claim. -/
namespace Soter.Claims
open Std Soter.Fallible Soter.MapSum

def defaultClaimExpiryDays : ℤ := 30

def createTx (services : Services) (dto : CreateClaimDto) (newId : ClaimId) (now : Time) (db : Db) :
    Except Failure (Claim × Db) := do
  reserveBudget db dto.campaignId dto.amount
  let created : Claim := {
    campaignId := dto.campaignId
    amount := dto.amount
    recipientRef := services.encrypt dto.recipientRef
    evidenceRef := dto.evidenceRef
    importJobId := dto.importJobId
    importRowNumber := dto.importRowNumber
    expiresAt := some (dto.expiresAt.getD (now + defaultClaimExpiryDays * 24 * 60 * 60 * 1000)) }
  let db ← db.createClaim newId created
  return (created, db.createEntry {
    campaignId := dto.campaignId
    claimId := some newId
    eventType := .lock
    amount := created.amount
    note := some ("Claim " ++ toString newId ++ " created; locked against campaign budget") })

/-- `claim` is the row as the handler read it. -/
def cancelTx (id : ClaimId) (claim : Claim) (dto : CancelClaimDto) (now : Time) (db : Db) :
    Except Failure (Claim × Db) := do
  let updated ← db.updateClaim id fun row => { row with
    status := .cancelled
    cancelledAt := some now
    cancelledBy := some dto.operatorId
    cancelReason := dto.reason }
  return (updated.1, updated.2.createEntry {
    campaignId := claim.campaignId
    claimId := some id
    eventType := .unlock
    -- negative: the entry takes its amount off the locked total
    amount := -claim.amount
    note := some ("Claim " ++ toString id ++ " cancelled by " ++ dto.operatorId ++ ". Reason: " ++
      dto.reason.getD "none") })

def ReissueClaimDto.newAmount (dto : ReissueClaimDto) (original : Claim) : ℚ≥0 :=
  dto.amount.getD original.amount

/-- `dto.recipientRef ? encrypt(dto.recipientRef) : original.recipientRef`. -/
def ReissueClaimDto.newRecipientRef (services : Services) (dto : ReissueClaimDto)
    (original : Claim) : String :=
  ((dto.recipientRef.filter (· ≠ "")).map services.encrypt).getD original.recipientRef

def reissueTx (services : Services) (originalId : ClaimId) (original : Claim) (dto : ReissueClaimDto)
    (newId : ClaimId) (now : Time) (db : Db) : Except Failure ((Claim × Claim) × Db) := do
  let cancelled ← db.updateClaim originalId fun row => { row with
    status := .cancelled
    cancelledAt := some now
    cancelledBy := some dto.operatorId
    cancelReason := some (dto.reason.getD "Reissued as new claim") }
  let db := cancelled.2.createEntry {
    campaignId := original.campaignId
    claimId := some originalId
    eventType := .unlock
    amount := -original.amount
    note := some ("Claim " ++ toString originalId ++ " cancelled for reissue by " ++
      dto.operatorId) }
  let newClaim : Claim := {
    campaignId := original.campaignId
    amount := dto.newAmount original
    recipientRef := dto.newRecipientRef services original
    evidenceRef := original.evidenceRef
    status := .requested
    reissuedFromId := some originalId }
  let db ← db.createClaim newId newClaim
  -- the new amount is locked without a call of `reserveBudget`
  return ((cancelled.1, newClaim), db.createEntry {
    campaignId := original.campaignId
    claimId := some newId
    eventType := .lock
    amount := dto.newAmount original
    note := some ("Replacement claim " ++ toString newId ++ " issued by " ++ dto.operatorId ++
      " (replaces " ++ toString originalId ++ ")") })

/-- The single-row updates: the transaction of `transitionStatus` and the one of the cleanup. -/
def setStatusTx (id : ClaimId) (status : ClaimStatus) (db : Db) : Except Failure (Claim × Db) :=
  db.updateClaim id fun row => { row with status }

def setReceiptPointerTx (id : ClaimId) (receiptPointer : String) (db : Db) :
    Except Failure (Claim × Db) :=
  db.updateClaim id fun row => { row with receiptPointer := some receiptPointer }

/-- The update of `processVerification`. -/
def recordVerificationTx (id : ClaimId) (status : ClaimStatus) (result : VerificationResult)
    (db : Db) : Except Failure (Claim × Db) :=
  db.updateClaim id fun row => { row with status, verification := some result }

/-- `cleanupExpiredClaims` selects these rows. -/
def Db.expiredClaims (db : Db) (now : Time) : List (ClaimId × Claim) :=
  db.claims.toList.filter fun row =>
    row.2.deletedAt.isNone && (row.2.status = .requested || row.2.status = .verified) &&
      row.2.expiresAt.any (· < now)

section Effects
variable {services : Services} {db db' : Db} {id newId : ClaimId} {claim original : Claim}
  {now : Time} {c : CampaignId} {e : EventType}

variable {data : Claim → Claim} {res : Claim × Db} {campaignId : CampaignId} {eventType : EventType} {amount : ℚ}
  {dto : ReissueClaimDto}

theorem createClaim_eq_ok : db.createClaim id claim = .ok db' ↔
      db.claims[id]? = none ∧ db' = { db with claims := db.claims.insert id claim } := by
  simp only [Db.createClaim, bind_eq_ok, exists_unit, require_eq_ok, pure_eq_ok, Option.isNone_iff_eq_none, @eq_comm _ db']

theorem updateClaim_eq_ok : db.updateClaim id data = .ok res ↔ ∃ row, db.claims[id]? = some row ∧
      res = (data row, { db with claims := db.claims.insert id (data row) }) := by
  simp only [Db.updateClaim, bind_eq_ok, orFail_eq_ok, pure_eq_ok, @eq_comm _ res]

theorem updateClaim_ledger (h : db.updateClaim id data = .ok res) :
    res.2.ledger = db.ledger ∧ res.2.campaigns = db.campaigns := by
  obtain ⟨row, -, rfl⟩ := updateClaim_eq_ok.mp h
  exact ⟨rfl, rfl⟩

theorem total_congr {db₁ db₂ : Db} (h : db₁.ledger = db₂.ledger) : db₁.total c e = db₂.total c e := by
  simp only [Db.total, h]

@[simp] theorem total_claims (claims : ExtTreeMap ClaimId Claim) :
    ({ db with claims } : Db).total c e = db.total c e := rfl

def portion (campaignId c : CampaignId) (eventType e : EventType) (amount : ℚ) : ℚ :=
  if campaignId = c ∧ eventType = e then amount else 0

@[simp] theorem portion_self (amount : ℚ) : portion c c e e amount = amount :=
  if_pos ⟨rfl, rfl⟩

theorem portion_of_type_ne (h : eventType ≠ e) : portion campaignId c eventType e amount = 0 :=
  if_neg fun hboth => h hboth.2

theorem portion_of_campaign_ne (h : campaignId ≠ c) : portion campaignId c eventType e amount = 0 :=
  if_neg fun hboth => h hboth.1

theorem portion_nonpos (h : amount ≤ 0) : portion campaignId c eventType e amount ≤ 0 := by
  unfold portion
  split
  · exact h
  · exact le_rfl

theorem createTx_spec {dto : CreateClaimDto} (h : createTx services dto newId now db = .ok res) :
    reserveBudget db dto.campaignId dto.amount = .ok () ∧ res.2.campaigns = db.campaigns ∧
      ∀ c e, res.2.total c e = db.total c e + portion dto.campaignId c .lock e dto.amount := by
  simp only [createTx, bind_eq_ok, exists_unit, pure_eq_ok] at h
  obtain ⟨hreserve, db₁, hcreate, rfl⟩ := h
  obtain ⟨-, rfl⟩ := createClaim_eq_ok.mp hcreate
  exact ⟨hreserve, rfl, fun c e => total_createEntry _ _⟩

theorem cancelTx_spec {dto : CancelClaimDto} (h : cancelTx id claim dto now db = .ok res) : res.2.campaigns = db.campaigns ∧
      ∀ c e, res.2.total c e = db.total c e + portion claim.campaignId c .unlock e (-claim.amount) := by
  simp only [cancelTx, bind_eq_ok, pure_eq_ok] at h
  obtain ⟨updated, hupdate, rfl⟩ := h
  obtain ⟨hledger, hcampaigns⟩ := updateClaim_ledger hupdate
  refine ⟨hcampaigns, fun c e => ?_⟩
  rw [total_createEntry, total_congr hledger]
  rfl

theorem reissueTx_spec {res : (Claim × Claim) × Db}
    (h : reissueTx services id original dto newId now db = .ok res) : res.2.campaigns = db.campaigns ∧
      ∀ c e, res.2.total c e = db.total c e + portion original.campaignId c .unlock e (-original.amount)
        + portion original.campaignId c .lock e (dto.newAmount original) := by
  simp only [reissueTx, bind_eq_ok, pure_eq_ok] at h
  obtain ⟨updated, hupdate, db₁, hcreate, rfl⟩ := h
  obtain ⟨hledger, hcampaigns⟩ := updateClaim_ledger hupdate
  obtain ⟨-, rfl⟩ := createClaim_eq_ok.mp hcreate
  refine ⟨hcampaigns, fun c e => ?_⟩
  rw [total_createEntry, total_claims, total_createEntry, total_congr hledger]
  rfl

theorem reissueTx_rows {res : (Claim × Claim) × Db} (h : reissueTx services id original dto newId now db = .ok res) :
    db.claims[id]? ≠ none ∧ db.claims[newId]? = none := by
  simp only [reissueTx, bind_eq_ok] at h
  obtain ⟨updated, hupdate, db₁, hcreate, -⟩ := h
  obtain ⟨row, hrow, rfl⟩ := updateClaim_eq_ok.mp hupdate
  have hfree := (createClaim_eq_ok.mp hcreate).1
  simp only [Db.createEntry] at hfree
  rw [get_insert] at hfree
  split at hfree
  · cases hfree
  · exact ⟨by simp [hrow], hfree⟩

theorem reissueTx_commits (services : Services) (original : Claim) (dto : ReissueClaimDto)
    (now : Time) (hpresent : db.claims[id]? ≠ none) (hfresh : db.claims[newId]? = none) :
    ∃ res, reissueTx services id original dto newId now db = .ok res := by
  obtain ⟨row, hrow⟩ := Option.ne_none_iff_exists'.mp hpresent
  have hne : newId ≠ id := by
    rintro rfl
    exact hpresent hfresh
  have hfree (row' : Claim) : (db.claims.insert id row')[newId]? = none := by
    rw [get_insert_of_ne hne, hfresh]
  simp only [reissueTx, bind_eq_ok, updateClaim_eq_ok, createClaim_eq_ok, pure_eq_ok]
  exact ⟨_, _, ⟨row, hrow, rfl⟩, _, ⟨hfree _, rfl⟩, rfl⟩

end Effects
end Soter.Claims
