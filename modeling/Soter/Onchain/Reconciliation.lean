import Mathlib.Tactic.Linarith
import Soter.Lib.TwoPass

/-! `LedgerReconciliationService.processReconciliation` (`ledger-reconciliation.service.ts`): the entries that
the chain reports against the stored rows of `BalanceLedger`. Amounts are exact; a division by zero still
goes as JavaScript has it. -/
namespace Soter.Onchain.Reconciliation
open Soter.TwoPass

inductive Quotient
  | nan
  | infinity (positive : Bool)
  | number (q : ℚ)
  deriving DecidableEq

/-- `x / y`. -/
def divide (x y : ℚ) : Quotient :=
  if y ≠ 0 then .number (x / y) else if x = 0 then .nan else .infinity (0 < x)

/-- `x * 100`. -/
def Quotient.percent : Quotient → Quotient
  | .number q => .number (q * 100)
  | x => x

/-- `x > y`. -/
def Quotient.above : Quotient → ℚ → Bool
  | .nan, _ => false
  | .infinity positive, _ => positive
  | .number q, y => y < q

structure ReconciliationJobData where
  startLedger : ℤ
  endLedger : ℤ
  campaignId : Option String := none
  thresholdPercent : ℚ

structure OnChainLedgerEntry where
  id : String
  ledger : ℤ
  amount : ℚ
  eventType : String
  deriving DecidableEq

/-- A row of `BalanceLedger`: the amount is negative for an `unlock`. -/
structure BalanceLedger where
  id : String
  campaignId : String
  claimId : Option String := none
  eventType : String
  amount : ℚ
  note : Option String := none
  createdAt : ℤ
  deriving DecidableEq

inductive DiscrepancyType
  | missing
  | amountMismatch
  | countMismatch
  deriving DecidableEq

inductive Severity
  | low
  | medium
  | high
  deriving DecidableEq

inductive Shown
  | null
  | onChainEntry (e : OnChainLedgerEntry)
  | storedEntry (s : BalanceLedger)
  | amount (q : ℚ)
  | eventType (text : String)
  deriving DecidableEq

structure ReconciliationDiscrepancy where
  ledger : ℤ
  type : DiscrepancyType
  expected : Shown
  observed : Shown
  severity : Severity
  deriving DecidableEq

structure BySeverity where
  low : ℕ := 0
  medium : ℕ := 0
  high : ℕ := 0
  deriving DecidableEq

structure ByType where
  missing : ℕ := 0
  amountMismatch : ℕ := 0
  countMismatch : ℕ := 0
  deriving DecidableEq

structure Summary where
  totalDiscrepancies : ℕ
  bySeverity : BySeverity := {}
  byType : ByType := {}
  deriving DecidableEq

inductive ReportStatus
  | queued
  | processing
  | completed
  | failed
  deriving DecidableEq

structure ReconciliationReport where
  jobId : String
  startLedger : ℤ
  endLedger : ℤ
  status : ReportStatus
  totalLedgers : ℤ
  checkedLedgers : ℕ
  discrepancies : List ReconciliationDiscrepancy
  summary : Summary
  actionable : Bool

/-- `findMany` of the rows of the campaign, if there is one, in the order of their creation. -/
def storedEntries (rows : List BalanceLedger) (campaignId : Option String) : List BalanceLedger :=
  (rows.filter fun row => (campaignId.filter (· ≠ "")).all (row.campaignId = ·)).mergeSort
    fun row row' => row.createdAt ≤ row'.createdAt

def amountDiffPercent (onChain stored : ℚ) : Quotient := (divide |onChain - stored| onChain).percent

def checkOnChainEntry (thresholdPercent : ℚ) (stored : List BalanceLedger) (onChainEntry : OnChainLedgerEntry) :
    List ReconciliationDiscrepancy :=
  match entry BalanceLedger.id stored onChainEntry.id with
  | none =>
    [{ ledger := onChainEntry.ledger, type := .missing, expected := .onChainEntry onChainEntry,
       observed := .null, severity := .high }]
  | some storedEntry =>
    let percent := amountDiffPercent onChainEntry.amount storedEntry.amount
    (if percent.above thresholdPercent then
      [{ ledger := onChainEntry.ledger, type := .amountMismatch, expected := .amount onChainEntry.amount,
         observed := .amount storedEntry.amount,
         severity := if percent.above (thresholdPercent * 2) then .high else .medium }]
    else []) ++
    if onChainEntry.eventType ≠ storedEntry.eventType then
      [{ ledger := onChainEntry.ledger, type := .countMismatch,
         expected := .eventType onChainEntry.eventType, observed := .eventType storedEntry.eventType,
         severity := .medium }]
    else []

def checkStoredEntry (onChainData : List OnChainLedgerEntry) (storedEntry : BalanceLedger) :
    List ReconciliationDiscrepancy :=
  match entry OnChainLedgerEntry.id onChainData storedEntry.id with
  | none =>
    [{ ledger := -1, type := .missing, expected := .null, observed := .storedEntry storedEntry,
       severity := .medium }]
  | some _ => []

def BySeverity.add (counts : BySeverity) : Severity → BySeverity
  | .low => { counts with low := counts.low + 1 }
  | .medium => { counts with medium := counts.medium + 1 }
  | .high => { counts with high := counts.high + 1 }

def ByType.add (counts : ByType) : DiscrepancyType → ByType
  | .missing => { counts with missing := counts.missing + 1 }
  | .amountMismatch => { counts with amountMismatch := counts.amountMismatch + 1 }
  | .countMismatch => { counts with countMismatch := counts.countMismatch + 1 }

def calculateSummary (discrepancies : List ReconciliationDiscrepancy) : Summary :=
  discrepancies.foldl
    (fun summary d =>
      { summary with
        bySeverity := summary.bySeverity.add d.severity
        byType := summary.byType.add d.type })
    { totalDiscrepancies := discrepancies.length }

/-- `fetchOnChainData` is a placeholder in the source: what it returns is left open. -/
def processReconciliation (fetchOnChainData : ℤ → ℤ → List OnChainLedgerEntry)
    (rows : List BalanceLedger) (data : ReconciliationJobData) : ReconciliationReport :=
  let onChainData := fetchOnChainData data.startLedger data.endLedger
  let stored := storedEntries rows data.campaignId
  let discrepancies := onChainData.flatMap (checkOnChainEntry data.thresholdPercent stored) ++
    stored.flatMap (checkStoredEntry onChainData)
  let summary := calculateSummary discrepancies
  { jobId := ""
    startLedger := data.startLedger
    endLedger := data.endLedger
    status := .completed
    totalLedgers := data.endLedger - data.startLedger + 1
    checkedLedgers := onChainData.length
    discrepancies := discrepancies
    summary := summary
    actionable := 0 < summary.bySeverity.high || 5 < summary.bySeverity.medium }

end Soter.Onchain.Reconciliation
