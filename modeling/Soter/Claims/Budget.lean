import Mathlib.Tactic.Linarith
import Mathlib.Tactic.Ring
import Soter.Claims.Records

/-! The two views of a campaign's budget: what `reserveBudget` counts before a claim is created
(`budget.service.ts`) and the balance that `getCampaignBalance` reports. -/
namespace Soter.Claims
open Std Soter.Fallible

/-- `balanceLedger.aggregate` with `_sum: amount`, which is null over no rows. -/
def aggregateSum (campaignId : CampaignId) (eventType : EventType) (ledger : List LedgerEntry) :
    Option ℚ :=
  match (entriesOf campaignId ledger).filter (·.eventType = eventType) with
  | [] => none
  | rows => some (rows.map LedgerEntry.amount).sum

def reserveBudget (db : Db) (campaignId : CampaignId) (newAmount : ℚ) : Except Failure Unit := do
  let campaign ← orFail db.campaigns[campaignId]? (badRequest "Campaign not found")
  let locked := aggregateSum campaignId .lock db.ledger
  let disbursed := aggregateSum campaignId .disburse db.ledger
  let total := locked.getD 0 + disbursed.getD 0 + newAmount
  require (total ≤ campaign.budget) (badRequest "Campaign funding cap exceeded")

structure CampaignBalance where
  campaignId : CampaignId
  budget : ℚ
  lockedAmount : ℚ
  disbursedAmount : ℚ
  availableBudget : ℚ

/-- The loop body of `getCampaignBalance`, on `(lockedAmount, disbursedAmount)`. -/
def balanceStep (sums : ℚ × ℚ) (entry : LedgerEntry) : ℚ × ℚ :=
  if entry.eventType = .lock ∨ entry.eventType = .unlock then
    (sums.1 + entry.amount, sums.2)
  else if entry.eventType = .disburse then
    (sums.1, sums.2 + entry.amount)
  else sums

def getCampaignBalance (db : Db) (campaignId : CampaignId) : Except Failure CampaignBalance := do
  let campaign ← orFail db.campaigns[campaignId]? (notFound "Campaign not found")
  require campaign.deletedAt.isNone (notFound "Campaign not found")
  let sums := (entriesOf campaignId db.ledger).foldl balanceStep (0, 0)
  return {
    campaignId
    budget := campaign.budget
    lockedAmount := sums.1
    disbursedAmount := sums.2
    availableBudget := campaign.budget - sums.1 - sums.2 }

section Totals
variable {db : Db} {c : CampaignId}

def Db.total (db : Db) (c : CampaignId) (eventType : EventType) : ℚ :=
  (((entriesOf c db.ledger).filter (·.eventType = eventType)).map LedgerEntry.amount).sum

def Db.locked (db : Db) (c : CampaignId) : ℚ := db.total c .lock + db.total c .unlock

def Db.disbursed (db : Db) (c : CampaignId) : ℚ := db.total c .disburse

def Db.released (db : Db) (c : CampaignId) : ℚ := -db.total c .unlock

theorem total_createEntry (entry : LedgerEntry) (eventType : EventType) :
    (db.createEntry entry).total c eventType = db.total c eventType +
        if entry.campaignId = c ∧ entry.eventType = eventType then entry.amount else 0 := by
  by_cases hc : entry.campaignId = c <;> by_cases he : entry.eventType = eventType <;>
    simp [Db.total, Db.createEntry, entriesOf, List.filter_append, hc, he]

theorem aggregateSum_getD (eventType : EventType) : (aggregateSum c eventType db.ledger).getD 0 = db.total c eventType := by
  unfold aggregateSum Db.total
  cases (entriesOf c db.ledger).filter (·.eventType = eventType) with
  | nil | cons entry rows => rfl

theorem foldl_balanceStep (entries : List LedgerEntry) (sums : ℚ × ℚ) : entries.foldl balanceStep sums =
      (sums.1 + ((entries.filter (·.eventType = .lock)).map LedgerEntry.amount).sum +
          ((entries.filter (·.eventType = .unlock)).map LedgerEntry.amount).sum,
        sums.2 + ((entries.filter (·.eventType = .disburse)).map LedgerEntry.amount).sum) := by
  induction entries generalizing sums with
  | nil => simp
  | cons entry entries ih =>
    rw [List.foldl_cons, ih]
    obtain ⟨_, _, eventType, amount, _⟩ := entry
    cases eventType <;> simp [balanceStep] <;> ring

theorem reserveBudget_eq_ok {a : ℚ} : reserveBudget db c a = .ok () ↔ ∃ campaign, db.campaigns[c]? = some campaign ∧
      db.total c .lock + db.disbursed c + a ≤ campaign.budget := by
  simp only [reserveBudget, bind_eq_ok, orFail_eq_ok, require_eq_ok, aggregateSum_getD, Db.disbursed]

theorem reserveBudget_congr {db' : Db} (a : ℚ) (hcampaigns : db'.campaigns = db.campaigns)
    (hlock : db'.total c .lock = db.total c .lock) (hdisbursed : db'.disbursed c = db.disbursed c) :
    reserveBudget db' c a = reserveBudget db c a := by
  rw [Db.disbursed, Db.disbursed] at hdisbursed
  simp only [reserveBudget, aggregateSum_getD, hcampaigns, hlock, hdisbursed]

theorem getCampaignBalance_eq_ok {balance : CampaignBalance} :
    getCampaignBalance db c = .ok balance ↔ ∃ campaign, db.campaigns[c]? = some campaign ∧
      campaign.deletedAt = none ∧ balance =
        { campaignId := c, budget := campaign.budget, lockedAmount := db.locked c,
          disbursedAmount := db.disbursed c,
          availableBudget := campaign.budget - db.locked c - db.disbursed c } := by
  have hsums : (entriesOf c db.ledger).foldl balanceStep (0, 0) = (db.locked c, db.disbursed c) := by
    rw [foldl_balanceStep, zero_add, zero_add]
    rfl
  simp only [getCampaignBalance, bind_eq_ok, orFail_eq_ok, exists_unit, require_eq_ok, pure_eq_ok,
    hsums, Option.isNone_iff_eq_none, @eq_comm _ balance]

end Totals
end Soter.Claims
