import Soter.Claims.Handlers
import Soter.Lib.Projection
import Soter.Soroban.Records

/-! `ClaimsService.disburse` with on-chain execution enabled: between its check and its transition it
creates the Soroban transaction that performs the transfer, and schedules it. -/
namespace Soter.Claims
open Std Soter.Fallible Soter.Tasks Soter.Runs Soter.Soroban

/-- A job of the queue `soroban-transactions`. -/
structure SorobanTransactionJob where
  transactionId : TransactionId
  correlationId : String
  priority : ℕ

structure OnchainDb where
  db : Db
  transactions : ExtTreeMap TransactionId (SorobanTransaction ClaimId) := ∅
  jobs : List SorobanTransactionJob := []

inductive OnchainQuery
  | claims (q : Query)
  | createTransaction (newId : TransactionId) (params : CreateSorobanTransactionParams ClaimId)
      (now : Time)
  /-- `queue` is the answer of `sorobanQueue.add`. -/
  | scheduleTransaction (job : SorobanTransactionJob) (queue : Except Failure Unit)

def OnchainQuery.Reply : OnchainQuery → Type
  | .claims q => q.Reply
  | .createTransaction .. => Except Failure TransactionId
  | .scheduleTransaction .. => Except Failure Unit

def createTransactionTx (newId : TransactionId) (params : CreateSorobanTransactionParams ClaimId)
    (now : Time) (s : OnchainDb) : Except Failure (TransactionId × OnchainDb) := do
  require (s.transactions[newId]?.isNone) .uniqueConstraint
  return (newId, { s with transactions := s.transactions.insert newId (params.row now) })

def scheduleTransactionTx (job : SorobanTransactionJob) (queue : Except Failure Unit)
    (s : OnchainDb) : Except Failure (Unit × OnchainDb) := do
  queue
  return ((), { s with jobs := s.jobs ++ [job] })

def performOnchain (services : Services) : (q : OnchainQuery) → OnchainDb → q.Reply × OnchainDb
  | .claims q, s => ((perform services q s.db).1, { s with db := (perform services q s.db).2 })
  | .createTransaction newId params now, s => commit (createTransactionTx newId params now s) s
  | .scheduleTransaction job queue, s => commit (scheduleTransactionTx job queue s) s

abbrev OnchainHandler := Task OnchainQuery OnchainQuery.Reply Failure

def onClaims {α : Type} (t : Handler α) : OnchainHandler α :=
  t.lift .claims fun _ reply => reply

/-- What a disbursement meets outside the claims: the latest `package_created` event that is
correlated with the claim, the token address in the campaign's metadata, the trace that the call
belongs to, the id that the database draws for the transaction, the time and the queue. -/
structure OnchainContext where
  packageId : Option String
  tokenAddress : Option String
  traceId : String
  transactionId : TransactionId
  now : Time
  queue : Except Failure Unit

def defaultTokenAddress : String := "GATEMHCCKCY67ZUCKTROYN24ZYT5GK4EQZ5LKG3FZTSZ3NYNEJBBENSN"

section Disburse
variable (services : Services) (id : ClaimId) (receiptPointer : Option String) (ctx : OnchainContext)

def getPackageIdForClaim : Except Failure String :=
  orFail (ctx.packageId.filter (· ≠ ""))
    (.external ("Package ID not found for claim " ++ toString id))

def getTokenAddressForClaim : String := (ctx.tokenAddress.filter (· ≠ "")).getD defaultTokenAddress

def disbursementParams (claim : Claim) (packageId recipientAddress : String) :
    CreateSorobanTransactionParams ClaimId where
  claimId := some id
  operation := .disburseClaim
  packageId := some packageId
  operatorAddress := some "admin"
  recipientAddress := some recipientAddress
  amount := some (services.numberText claim.amount)
  tokenAddress := some (getTokenAddressForClaim ctx)
  correlationId := some ctx.traceId
  receiptPointer := receiptPointer
  maxAttempts := some 5

/-- The body of the `try` block of `disburse`. -/
def createDisbursement (claim : Claim) : OnchainHandler TransactionId := do
  let packageId ← Task.done (getPackageIdForClaim id ctx)
  let recipientAddress ← Task.done (services.decrypt claim.recipientRef)
  let transactionId ← Task.ask (.createTransaction ctx.transactionId
    (disbursementParams services id receiptPointer ctx claim packageId recipientAddress) ctx.now)
    fun result => .done result
  let _ ← Task.ask (.scheduleTransaction
    { transactionId, correlationId := ctx.traceId, priority := 1 } ctx.queue)
    fun result => .done result
  return transactionId

/-- What `disburse` goes on with once it has found `claim` approved. -/
def disburseApproved (claim : Claim) : OnchainHandler Claim := do
  -- a failure of the block is logged, and the claim is disbursed all the same
  let _ ← (createDisbursement services id receiptPointer ctx claim).attempt
  onClaims (transitionStatus id .approved .disbursed)

def onchainDisburse : OnchainHandler Claim := do
  let claim ← Task.done (orFail (← onClaims (findClaim id)) (notFound "Claim not found"))
  let _ ← Task.done (require (claim.status = .approved)
    (badRequest ("Cannot transition from " ++ claim.status.name ++ " to " ++
      ClaimStatus.disbursed.name)))
  match receiptPointer.filter (· ≠ "") with
  | some receiptPointer => let _ ← onClaims (setReceiptPointer id receiptPointer)
  | none => pure ()
  disburseApproved services id receiptPointer ctx claim

end Disburse

def Op.isDisburse : Op → Bool
  | .disburse .. => true
  | _ => false

inductive OnchainOp
  | disburse (id : ClaimId) (receiptPointer : Option String) (ctx : OnchainContext)
  | other (op : Op) (notDisburse : op.isDisburse = false)

def OnchainOp.body (services : Services) : OnchainOp → OnchainHandler Unit
  | .disburse id receiptPointer ctx => do
    let _ ← onchainDisburse services id receiptPointer ctx
  | .other op _ => onClaims (op.body services)

abbrev OnchainSystem := Pool OnchainDb OnchainQuery OnchainQuery.Reply Failure Unit OnchainOp

def OnchainStep (services : Services) : OnchainSystem → Turn OnchainOp → OnchainSystem → Prop :=
  Pool.Step (performOnchain services) (OnchainOp.body services)

def onchainIdle (db : Db) : OnchainSystem := { store := { db } }

/-- The turns `turns`, taken one after the other from `onchainIdle db`. -/
def onchainPlayed (db : Db) (turns : List (Turn OnchainOp)) :
    List (Transition OnchainSystem (Turn OnchainOp)) × OnchainSystem :=
  play (Pool.take (performOnchain plainServices) (OnchainOp.body plainServices)) (onchainIdle db) turns

theorem onchainPlayed_run (db : Db) (turns : List (Turn OnchainOp)) :
    Run (OnchainStep plainServices) (onchainIdle db) (onchainPlayed db turns).1 (onchainPlayed db turns).2 :=
  play_run (fun _ _ _ h => h) turns (onchainIdle db)

section Refinement
variable {services : Services} {db : Db} {s : OnchainSystem}
  {tr : List (Transition OnchainSystem (Turn OnchainOp))}

/-- Of the requests, the tables of the claims are asked `claims q` only. -/
def OnchainQuery.onClaims : (q : OnchainQuery) → Option ((q' : Query) × (q.Reply → q'.Reply))
  | .claims q => some ⟨q, fun reply => reply⟩
  | .createTransaction .. | .scheduleTransaction .. => none

def OnchainOp.onClaims : OnchainOp → Op
  | .disburse id receiptPointer _ => .disburse id receiptPointer
  | .other op _ => op

theorem onClaims_shows {α : Type} : ∀ t : Handler α, (onClaims t).Shows OnchainQuery.onClaims t
  | .done _ => rfl
  | .ask _ next => ⟨next, rfl, fun reply => onClaims_shows (next reply)⟩

theorem createDisbursement_unseen {id : ClaimId} {receiptPointer : Option String}
    {ctx : OnchainContext} {claim : Claim} : (createDisbursement services id receiptPointer ctx claim).Asks
      (OnchainQuery.onClaims · = none) := by
  refine Task.Asks.bind (fun packageId => ?_) (Task.asks_done _)
  refine Task.Asks.bind (fun recipientAddress => ?_) (Task.asks_done _)
  refine Task.Asks.bind (fun transactionId => ?_) ⟨rfl, fun _ => trivial⟩
  exact Task.Asks.bind (fun _ => Task.asks_done _) ⟨rfl, fun _ => trivial⟩

theorem onchainBody_shows (op : OnchainOp) : (op.body services).Shows OnchainQuery.onClaims (op.onClaims.body services) := by
  cases op with
  | other op _ => exact onClaims_shows _
  | disburse id receiptPointer ctx =>
    have hrest (claim : Claim) :
        (disburseApproved services id receiptPointer ctx claim).Shows OnchainQuery.onClaims
          (transitionStatus id .approved .disbursed) :=
      Task.Asks.shows_bind (fun _ => onClaims_shows _) createDisbursement_unseen
    have hdisburse : (onchainDisburse services id receiptPointer ctx).Shows OnchainQuery.onClaims
        (disburse id receiptPointer) := by
      apply Task.Shows.bind _ (onClaims_shows _)
      intro found
      apply Task.Shows.bind _ (Task.shows_done _)
      intro claim
      apply Task.Shows.bind _ (Task.shows_done _)
      intro _
      cases receiptPointer.filter (· ≠ "") with
      | none => exact hrest claim
      | some pointer => exact Task.Shows.bind (fun _ => hrest claim) (onClaims_shows _)
    exact hdisburse.bind fun _ => Task.shows_done _

theorem performOnchain_alike (services : Services) :
    ServesAlike OnchainQuery.onClaims OnchainDb.db (performOnchain services) (perform services) := by
  intro q s
  cases q with
  | claims q => rfl
  | createTransaction newId params now =>
    refine commit_keeps (P := fun s' : OnchainDb => s'.db = s.db) rfl fun _ s' h => ?_
    simp only [createTransactionTx, bind_eq_ok, exists_unit, pure_eq_ok] at h
    obtain ⟨-, hres⟩ := h
    cases hres
    rfl
  | scheduleTransaction job queue =>
    refine commit_keeps (P := fun s' : OnchainDb => s'.db = s.db) rfl fun _ s' h => ?_
    simp only [scheduleTransactionTx, bind_eq_ok, exists_unit, pure_eq_ok] at h
    obtain ⟨-, hres⟩ := h
    cases hres
    rfl

/-- To the claims it makes no difference that disbursements create transactions: every run is one of
the backend without them. -/
theorem onchain_refines (hrun : Run (OnchainStep services) (onchainIdle db) tr s) :
    ∃ tr' s', Run (Step services) (idle db) tr' s' ∧ s'.store = s.store.db := by
  have hidle : (onchainIdle db).Shows OnchainQuery.onClaims OnchainDb.db OnchainOp.onClaims (idle db) :=
    ⟨rfl, .nil⟩
  obtain ⟨tr', s', hrun', hshows⟩ := hidle.run (performOnchain_alike services) onchainBody_shows hrun
  exact ⟨tr', s', hrun', hshows.store⟩

end Refinement
end Soter.Claims
