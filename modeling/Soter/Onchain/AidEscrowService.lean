import Soter.Claims.Budget
import Soter.Lib.JsNumber
import Soter.Lib.Task

/-! `AidEscrowService`: how packages are issued for a campaign (`aid-escrow.service.ts`), and the part of
`BudgetService` that it asks. Every call of the database and of the adapter is one request. -/
namespace Soter.Onchain
open Soter.Tasks Soter.Runs Soter.Fallible Soter.Claims Soter.JsNumbers

structure CreateAidPackageDto where
  packageId : String
  recipientAddress : String
  amount : String
  tokenAddress : String
  expiresAt : ℕ
  /-- `metadata.campaign_ref`, if it is there and not empty. -/
  campaignRef : Option CampaignId := none

structure BatchCreateAidPackagesDto where
  recipientAddresses : List String
  amounts : List String
  tokenAddress : String
  expiresIn : ℕ
  campaignRef : Option CampaignId := none

structure CreateAidPackageParams where
  operatorAddress : String
  packageId : String
  recipientAddress : String
  amount : String
  tokenAddress : String
  expiresAt : ℕ

structure BatchCreateAidPackagesParams where
  operatorAddress : String
  recipientAddresses : List String
  amounts : List String
  tokenAddress : String
  expiresIn : ℕ

structure CreateAidPackageResult where
  packageId : String
  transactionHash : String

structure BatchCreateAidPackagesResult where
  packageIds : List String
  transactionHash : String

structure Adapter where
  balance : Except Failure String := .ok "0"
  created : Except Failure CreateAidPackageResult := .error (.external "Simulation failed")
  batchCreated : Except Failure BatchCreateAidPackagesResult := .error (.external "Simulation failed")

inductive Query
  | getTokenBalance (tokenAddress accountAddress : String)
  | findCampaign (id : CampaignId)
  | aggregate (campaignId : CampaignId) (eventType : EventType)
  | createAidPackage (params : CreateAidPackageParams)
  | batchCreateAidPackages (params : BatchCreateAidPackagesParams)
  /-- What the adapter will answer is decided elsewhere. -/
  | foresee (adapter : Adapter)

def Query.Reply : Query → Type
  | .getTokenBalance .. => Except Failure String
  | .findCampaign _ => Option Campaign
  | .aggregate .. => Option ℚ
  | .createAidPackage _ => Except Failure CreateAidPackageResult
  | .batchCreateAidPackages _ => Except Failure BatchCreateAidPackagesResult
  | .foresee _ => Unit

structure Store where
  db : Db
  adapter : Adapter := {}

def perform : (q : Query) → Store → q.Reply × Store
  | .getTokenBalance .., s => (s.adapter.balance, s)
  | .findCampaign id, s => (s.db.campaigns[id]?, s)
  | .aggregate campaignId eventType, s => (aggregateSum campaignId eventType s.db.ledger, s)
  | .createAidPackage _, s => (s.adapter.created, s)
  | .batchCreateAidPackages _, s => (s.adapter.batchCreated, s)
  | .foresee adapter, s => ((), { s with adapter := adapter })

abbrev Handler := Task Query Query.Reply Failure

structure BudgetUsage where
  locked : ℚ
  disbursed : ℚ

def getCampaignBudgetUsage (campaignId : CampaignId) : Handler BudgetUsage := do
  let locked ← .ask (.aggregate campaignId .lock) fun sum => .done (.ok (sum.getD 0))
  let disbursed ← .ask (.aggregate campaignId .disburse) fun sum => .done (.ok (sum.getD 0))
  return { locked := locked, disbursed := disbursed }

def assertWithinBudget (campaignId : CampaignId) (newAmount : ℚ) : Handler Unit := do
  match ← .ask (.findCampaign campaignId) fun found => .done (.ok found) with
  | none => .done (.error (badRequest "Campaign not found"))
  | some campaign => do
    let usage ← getCampaignBudgetUsage campaignId
    if usage.locked + usage.disbursed + newAmount > campaign.budget then
      .done (.error (badRequest "Campaign funding cap exceeded"))
    else return ()

/-- `BigInt(s)`, with the error that it throws. -/
def toBigInt (s : String) : Except Failure ℤ :=
  orFail (bigInt s) (.external ("Cannot convert " ++ s ++ " to a BigInt"))

/-- `Number(s)` of a text that `BigInt` reads. -/
def toNumber (s : String) : Option ℚ := (bigInt s).map Int.cast

structure BalanceCheck where
  sufficient : Bool
  balance : String
  required : String

def checkTokenBalance (tokenAddress accountAddress requiredAmount : String) :
    Handler BalanceCheck := do
  let balanceText ← .ask (.getTokenBalance tokenAddress accountAddress) fun reply => .done reply
  let balance ← .done (toBigInt balanceText)
  let required ← .done (toBigInt requiredAmount)
  return { sufficient := required ≤ balance, balance := balanceText, required := requiredAmount }

def submitAidPackage (dto : CreateAidPackageDto) (operatorAddress : String) :
    Handler CreateAidPackageResult :=
  .ask (.createAidPackage
      { operatorAddress := operatorAddress
        packageId := dto.packageId
        recipientAddress := dto.recipientAddress
        amount := dto.amount
        tokenAddress := dto.tokenAddress
        expiresAt := dto.expiresAt })
    fun reply => .done reply

def assertFundingCap (dto : CreateAidPackageDto) : Handler Unit :=
  match dto.campaignRef with
  | none => return ()
  | some campaignId =>
    match toNumber dto.amount with
    | none => .done (.error (badRequest "Invalid amount for funding cap check"))
    | some amountNum => assertWithinBudget campaignId amountNum

def createAidPackage (dto : CreateAidPackageDto) (operatorAddress : String) :
    Handler CreateAidPackageResult := do
  let balanceCheck ← checkTokenBalance dto.tokenAddress operatorAddress dto.amount
  if balanceCheck.sufficient = false then
    .done (.error (badRequest ("Insufficient token balance for " ++ dto.tokenAddress ++ ". Required: " ++
      balanceCheck.required ++ ", Available: " ++ balanceCheck.balance)))
  else do
    assertFundingCap dto
    submitAidPackage dto operatorAddress

def totalAmount (amounts : List String) : Except Failure ℤ :=
  amounts.foldlM (fun sum amount => (toBigInt amount).map (sum + ·)) 0

def submitBatch (dto : BatchCreateAidPackagesDto) (operatorAddress : String) :
    Handler BatchCreateAidPackagesResult :=
  .ask (.batchCreateAidPackages
      { operatorAddress := operatorAddress
        recipientAddresses := dto.recipientAddresses
        amounts := dto.amounts
        tokenAddress := dto.tokenAddress
        expiresIn := dto.expiresIn })
    fun reply => .done reply

/-- The funding cap is not asked for: `campaignRef` is not looked at. -/
def batchCreateAidPackages (dto : BatchCreateAidPackagesDto) (operatorAddress : String) :
    Handler BatchCreateAidPackagesResult :=
  if dto.recipientAddresses.length ≠ dto.amounts.length then
    .done (.error (.external "Recipients and amounts arrays must have the same length"))
  else do
    let total ← .done (totalAmount dto.amounts)
    let balanceCheck ← checkTokenBalance dto.tokenAddress operatorAddress (toString total)
    if balanceCheck.sufficient = false then
      .done (.error (badRequest ("Insufficient token balance for batch creation. Token: " ++
        dto.tokenAddress ++ ", Required: " ++ balanceCheck.required ++ ", Available: " ++
        balanceCheck.balance)))
    else submitBatch dto operatorAddress

inductive EscrowOp
  | createAidPackage (dto : CreateAidPackageDto) (operatorAddress : String)
  | batchCreateAidPackages (dto : BatchCreateAidPackagesDto) (operatorAddress : String)
  | foresee (adapter : Adapter)

inductive Issued
  | package (result : CreateAidPackageResult)
  | batch (result : BatchCreateAidPackagesResult)
  | nothing

def EscrowOp.body : EscrowOp → Handler Issued
  | .createAidPackage dto operatorAddress => do
    let result ← Onchain.createAidPackage dto operatorAddress
    return .package result
  | .batchCreateAidPackages dto operatorAddress => do
    let result ← Onchain.batchCreateAidPackages dto operatorAddress
    return .batch result
  | .foresee adapter => .ask (.foresee adapter) fun _ => .done (.ok .nothing)

abbrev EscrowPool := Pool Store Query Query.Reply Failure Issued EscrowOp
abbrev EscrowTransition := Transition EscrowPool (Turn EscrowOp)

def EscrowStep : EscrowPool → Turn EscrowOp → EscrowPool → Prop := Pool.Step perform EscrowOp.body

def EscrowOp.campaignRef : EscrowOp → Option CampaignId
  | .createAidPackage dto _ => dto.campaignRef
  | .batchCreateAidPackages dto _ => dto.campaignRef
  | .foresee _ => none

def EscrowOp.total : EscrowOp → ℤ
  | .createAidPackage dto _ => (bigInt dto.amount).getD 0
  | .batchCreateAidPackages dto _ => (dto.amounts.map fun amount => (bigInt amount).getD 0).sum
  | .foresee _ => 0

def succeeds {α : Type} : Handler α → Bool
  | .done (.ok _) => true
  | _ => false

def issued (c : CampaignId) (p : EscrowPool) : ℤ :=
  (p.threads.map fun thread =>
    if thread.1.campaignRef = some c ∧ succeeds thread.2 = true then thread.1.total else 0).sum

end Soter.Onchain
