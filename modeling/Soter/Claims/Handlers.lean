import Soter.Claims.Service
import Soter.Lib.Rely

/-! What each call asks of the database, and what one request does to the rows of the claims: it rewrites one that it
finds, adds one under a new id, or both. -/
namespace Soter.Claims

variable {services : Services}
section Handlers
open Soter.Fallible Soter.Tasks Soter.Runs Task.Asks Task

variable {P : Query → Prop} {claimId : ClaimId}

inductive Op.Asks : Op → Query → Prop
  | findCampaign {dto newId now} : Op.Asks (.create dto newId now) (.findCampaign dto.campaignId)
  | create {dto newId now} : Op.Asks (.create dto newId now) (.create dto newId now)
  | findCancelled {id dto now} : Op.Asks (.cancel id dto now) (.findClaim id)
  | cancel {id dto now} (claim : Claim) : Op.Asks (.cancel id dto now) (.cancel id claim dto now)
  | findReissued {id dto newId now} : Op.Asks (.reissue id dto newId now) (.findClaim id)
  | reissue {id dto newId now} (original : Claim) :
      Op.Asks (.reissue id dto newId now) (.reissue id original dto newId now)
  | findVerified {id} : Op.Asks (.verify id) (.findClaim id)
  | verify {id} : Op.Asks (.verify id) (.setStatus id .verified)
  | findApproved {id} : Op.Asks (.approve id) (.findClaim id)
  | approve {id} : Op.Asks (.approve id) (.setStatus id .approved)
  | findDisbursed {id receiptPointer} : Op.Asks (.disburse id receiptPointer) (.findClaim id)
  | pointToReceipt {id receiptPointer} (pointer : String) :
      Op.Asks (.disburse id receiptPointer) (.setReceiptPointer id pointer)
  | disburse {id receiptPointer} : Op.Asks (.disburse id receiptPointer) (.setStatus id .disbursed)
  | findArchived {id} : Op.Asks (.archive id) (.findClaim id)
  | archive {id} : Op.Asks (.archive id) (.setStatus id .archived)
  | findExpired {now onchain audit} :
      Op.Asks (.cleanupExpiredClaims now onchain audit) (.findExpiredClaims now)
  | expire {now onchain audit} (id : ClaimId) :
      Op.Asks (.cleanupExpiredClaims now onchain audit) (.setStatus id .archived)
  | findProcessed {id score} : Op.Asks (.processVerification id score) (.findClaim id)
  | process {id score} (status : ClaimStatus) (result : VerificationResult)
      (outcome : status = .verified ∨ status = .requested) :
      Op.Asks (.processVerification id score) (.recordVerification id status result)

theorem asks_findClaim (h : P (.findClaim claimId)) : (findClaim claimId).Asks P :=
  ⟨h, fun _ => trivial⟩

theorem asks_setStatus {status : ClaimStatus} (h : P (.setStatus claimId status)) :
    (setStatus claimId status).Asks P := ⟨h, fun _ => trivial⟩

theorem asks_transitionStatus {fromStatus toStatus : ClaimStatus} (hfind : P (.findClaim claimId))
    (hset : P (.setStatus claimId toStatus)) : (transitionStatus claimId fromStatus toStatus).Asks P := by
  refine bind (fun found => ?_) (asks_findClaim hfind)
  refine bind (fun claim => ?_) (asks_done _)
  refine bind (fun _ => ?_) (asks_done _)
  exact asks_setStatus hset

theorem asks_decrypted {claim : Claim} : (decrypted services claim).Asks P :=
  bind (fun _ => asks_done _) (asks_done _)

theorem asks_archiveExpired (onchain audit : ClaimId → Except Failure Unit) (h : ∀ id, P (.setStatus id .archived)) :
    ∀ (rows : List (ClaimId × Claim)) (archived : ℕ), (archiveExpired onchain audit rows archived).Asks P
  | [], _ => asks_done _
  | row :: rows, archived => by
    refine bind (fun _ => ?_) (asks_done _)
    refine bind (fun _ => ?_) (asks_setStatus (h row.1))
    refine bind (fun _ => ?_) (asks_done _)
    exact asks_archiveExpired onchain audit h rows (archived + 1)

theorem body_asks (services : Services) (op : Op) : (op.body services).Asks op.Asks := by
  cases op with
  | create dto newId now =>
    refine bind (fun _ => asks_done _) ?_
    refine bind (fun found => ?_) ⟨.findCampaign, fun _ => trivial⟩
    refine bind (fun _ => ?_) (asks_done _)
    exact bind (fun _ => asks_decrypted) ⟨.create, fun _ => trivial⟩
  | cancel id dto now =>
    refine bind (fun _ => asks_done _) ?_
    refine bind (fun found => ?_) (asks_findClaim .findCancelled)
    refine bind (fun claim => ?_) (asks_done _)
    exact bind (fun _ => asks_decrypted) ⟨.cancel claim, fun _ => trivial⟩
  | reissue originalId dto newId now =>
    refine bind (fun _ => asks_done _) ?_
    refine bind (fun found => ?_) (asks_findClaim .findReissued)
    refine bind (fun original => ?_) (asks_done _)
    refine bind (fun pair => ?_) ⟨.reissue original, fun _ => trivial⟩
    refine bind (fun _ => ?_) asks_decrypted
    exact bind (fun _ => asks_done _) asks_decrypted
  | verify id =>
    refine bind (fun _ => asks_done _) ?_
    refine bind (fun found => ?_) (asks_findClaim .findVerified)
    refine bind (fun claim => ?_) (asks_done _)
    refine bind (fun verification => ?_) (asks_done _)
    refine bind (fun _ => ?_) (asks_done _)
    -- verified already, or to be moved there
    split
    · refine bind (fun found => ?_) (asks_findClaim .findVerified)
      exact bind (fun _ => asks_decrypted) (asks_done _)
    · exact asks_transitionStatus .findVerified .verify
  | approve id =>
    exact bind (fun _ => asks_done _) (asks_transitionStatus .findApproved .approve)
  | disburse id receiptPointer =>
    refine bind (fun _ => asks_done _) ?_
    refine bind (fun found => ?_) (asks_findClaim .findDisbursed)
    refine bind (fun claim => ?_) (asks_done _)
    refine bind (fun _ => ?_) (asks_done _)
    split
    · refine bind (fun _ => ?_) ⟨.pointToReceipt _, fun _ => trivial⟩
      exact asks_transitionStatus .findDisbursed .disburse
    · exact asks_transitionStatus .findDisbursed .disburse
  | archive id =>
    exact bind (fun _ => asks_done _) (asks_transitionStatus .findArchived .archive)
  | cleanupExpiredClaims now onchain audit =>
    refine bind (fun _ => asks_done _) ?_
    refine bind (fun rows => ?_) ⟨.findExpired, fun _ => trivial⟩
    exact bind (fun _ => asks_done _) (asks_archiveExpired onchain audit .expire rows 0)
  | processVerification id score =>
    refine bind (fun _ => asks_done _) ?_
    refine bind (fun found => ?_) (asks_findClaim .findProcessed)
    refine bind (fun _ => ?_) (asks_done _)
    refine ⟨.process _ _ ?_, fun _ => trivial⟩
    split
    · exact .inl rfl
    · exact .inr rfl

end Handlers
section Rows
open Std Soter.Fallible Soter.Tasks Soter.MapSum

variable {db db' : Db} {q : Query} {id : ClaimId}

def Query.writes : Query → Option (ClaimId × ClaimStatus)
  | .cancel id _ _ _ | .reissue id _ _ _ _ => some (id, .cancelled)
  | .setStatus id status | .recordVerification id status _ => some (id, status)
  | .findCampaign _ | .findClaim _ | .findExpiredClaims _ | .create .. | .setReceiptPointer .. => none

/-- A row as a request rewrites it: of its status, the campaign and the amount, only the status. -/
structure Rewrites (q : Query) (id : ClaimId) (row row' : Claim) : Prop where
  campaign : row'.campaignId = row.campaignId
  amount : row'.amount = row.amount
  status : row'.status = row.status ∨ q.writes = some (id, row'.status)

inductive RowEffect (db db' : Db) (q : Query) : Prop
  | unchanged (claims : db'.claims = db.claims)
  | rewritten {id : ClaimId} {row row' : Claim} (found : db.claims[id]? = some row)
      (rewrites : Rewrites q id row row') (claims : db'.claims = db.claims.insert id row')
  | born {newId : ClaimId} {new : Claim} (fresh : db.claims[newId]? = none)
      (requested : new.status = .requested) (claims : db'.claims = db.claims.insert newId new)
  | replaced {id newId : ClaimId} {row row' new : Claim} (found : db.claims[id]? = some row)
      (rewrites : Rewrites q id row row') (fresh : db.claims[newId]? = none) (ne : newId ≠ id)
      (requested : new.status = .requested)
      (claims : db'.claims = (db.claims.insert id row').insert newId new)

theorem commit_update_rows {data : Claim → Claim} (hdata : ∀ row, Rewrites q id row (data row)) :
    RowEffect db (commit (db.updateClaim id data) db).2 q := by
  have hrolledBack : RowEffect db db q := .unchanged rfl
  refine commit_keeps (P := fun db' => RowEffect db db' q) hrolledBack fun claim db' h => ?_
  obtain ⟨row, hrow, hres⟩ := updateClaim_eq_ok.mp h
  cases hres
  exact .rewritten hrow (hdata row) rfl

theorem perform_rows (services : Services) (q : Query) (db : Db) :
    RowEffect db (perform services q db).2 q := by
  have hrolledBack : RowEffect db db q := .unchanged rfl
  cases q with
  | findCampaign id | findClaim id | findExpiredClaims now => exact hrolledBack
  | create dto newId now =>
    refine commit_keeps (P := fun db' => RowEffect db db' _) hrolledBack fun claim db' h => ?_
    simp only [createTx, bind_eq_ok, exists_unit, pure_eq_ok] at h
    obtain ⟨-, db₁, hcreate, hres⟩ := h
    cases hres
    obtain ⟨hfresh, rfl⟩ := createClaim_eq_ok.mp hcreate
    exact .born hfresh rfl rfl
  | cancel id claim dto now =>
    refine commit_keeps (P := fun db' => RowEffect db db' _) hrolledBack fun _ db' h => ?_
    simp only [cancelTx, bind_eq_ok, pure_eq_ok] at h
    obtain ⟨updated, hupdate, hres⟩ := h
    cases hres
    obtain ⟨row, hrow, rfl⟩ := updateClaim_eq_ok.mp hupdate
    refine .rewritten hrow ?_ rfl
    exact ⟨rfl, rfl, .inr rfl⟩
  | reissue originalId original dto newId now =>
    refine commit_keeps (P := fun db' => RowEffect db db' _) hrolledBack fun _ db' h => ?_
    obtain ⟨hpresent, hfresh⟩ := reissueTx_rows h
    have hne : newId ≠ originalId := by
      rintro rfl
      exact hpresent hfresh
    simp only [reissueTx, bind_eq_ok, pure_eq_ok] at h
    obtain ⟨updated, hupdate, db₁, hcreate, hres⟩ := h
    cases hres
    obtain ⟨row, hrow, rfl⟩ := updateClaim_eq_ok.mp hupdate
    obtain ⟨-, rfl⟩ := createClaim_eq_ok.mp hcreate
    refine .replaced hrow ?_ hfresh hne rfl rfl
    exact ⟨rfl, rfl, .inr rfl⟩
  | setStatus id status => exact commit_update_rows fun _ => ⟨rfl, rfl, .inr rfl⟩
  | setReceiptPointer id receiptPointer => exact commit_update_rows fun _ => ⟨rfl, rfl, .inl rfl⟩
  | recordVerification id status result => exact commit_update_rows fun _ => ⟨rfl, rfl, .inr rfl⟩

theorem RowEffect.row (h : RowEffect db db' q) {row : Claim} (hrow : db.claims[id]? = some row) :
    ∃ row', db'.claims[id]? = some row' ∧ Rewrites q id row row' := by
  have hsame : Rewrites q id row row := ⟨rfl, rfl, .inl rfl⟩
  cases h with
  | unchanged hclaims => exact ⟨row, by rw [hclaims, hrow], hsame⟩
  | @rewritten a row₁ row' hfound hrewrites hclaims =>
    rw [hclaims, get_insert]
    by_cases ha : id = a
    · subst ha
      rw [hrow] at hfound
      cases hfound
      exact ⟨row', if_pos rfl, hrewrites⟩
    · exact ⟨row, by rw [if_neg ha, hrow], hsame⟩
  | @born newId new hfresh hrequested hclaims =>
    have hne : id ≠ newId := by
      rintro rfl
      rw [hrow] at hfresh
      cases hfresh
    exact ⟨row, by rw [hclaims, get_insert_of_ne hne, hrow], hsame⟩
  | @replaced a newId row₁ row' new hfound hrewrites hfresh hne hrequested hclaims =>
    have hid : id ≠ newId := by
      rintro rfl
      rw [hrow] at hfresh
      cases hfresh
    rw [hclaims, get_insert_of_ne hid, get_insert]
    by_cases ha : id = a
    · subst ha
      rw [hrow] at hfound
      cases hfound
      exact ⟨row', if_pos rfl, hrewrites⟩
    · exact ⟨row, by rw [if_neg ha, hrow], hsame⟩

theorem RowEffect.new_requested (h : RowEffect db db' q) {row : Claim}
    (hnone : db.claims[id]? = none) (hrow : db'.claims[id]? = some row) : row.status = .requested := by
  have hkept {a : ClaimId} {row₁ : Claim} (hfound : db.claims[a]? = some row₁) : id ≠ a := by
    rintro rfl
    rw [hnone] at hfound
    cases hfound
  cases h with
  | unchanged hclaims =>
    rw [hclaims, hnone] at hrow
    cases hrow
  | rewritten hfound hrewrites hclaims =>
    rw [hclaims, get_insert_of_ne (hkept hfound), hnone] at hrow
    cases hrow
  | @born newId new hfresh hrequested hclaims =>
    rw [hclaims, get_insert] at hrow
    split at hrow
    · cases hrow
      exact hrequested
    · rw [hnone] at hrow
      cases hrow
  | @replaced a newId row₁ row' new hfound hrewrites hfresh hne hrequested hclaims =>
    rw [hclaims, get_insert, get_insert_of_ne (hkept hfound)] at hrow
    split at hrow
    · cases hrow
      exact hrequested
    · rw [hnone] at hrow
      cases hrow

end Rows
end Soter.Claims
