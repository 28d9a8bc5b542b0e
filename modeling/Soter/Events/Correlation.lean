import Soter.Lib.Json
import Soter.Lib.Task

/-! `SorobanEventCorrelationService`: the scheduled fetch and the on-demand correlation of contract events
(`soroban-event-correlation.service.ts`). Every call of the RPC server and of Prisma is one request. -/
namespace Soter.Events
open Soter.Tasks Soter.Runs Soter.Json

/-- A native value; a number, or a big integer, is what `String` makes of it. -/
abbrev Payload := Value String

/-- An event of the RPC server's list: the contract goes by its address there, and by the hex of its hash
in the meta of the transaction. The topic is the first one, if that is a string. -/
structure ContractEvent where
  ledger : ℕ
  txHash : String
  position : ℕ
  transactionIndex : Option ℕ := none
  contractId : String
  contractHash : String
  topic : Option String
  payload : Payload

inductive CorrelationSource
  | scheduled
  | onDemand
  | manual
  deriving DecidableEq

structure CorrelationJobData where
  startLedger : Option ℕ := none
  endLedger : Option ℕ := none
  contractId : Option String := none
  correlationSource : CorrelationSource

/-- `origin` is the event that it was read from, for the record: nothing looks at it. -/
structure SorobanEvent where
  topic : String
  payload : Payload
  txHash : String
  ledger : ℕ
  eventIndex : ℕ
  origin : ContractEvent

/-- A row of `SorobanEventCorrelation`. -/
structure CorrelationRow where
  eventTopic : String
  txHash : String
  ledger : ℕ
  eventIndex : ℕ
  claimId : Option String
  packageId : Option String
  payload : Payload
  correlationSource : CorrelationSource
  origin : ContractEvent

/-- `@@unique([txHash, eventIndex])`. -/
def CorrelationRow.key (row : CorrelationRow) : String × ℕ := (row.txHash, row.eventIndex)

structure Detail where
  txHash : String
  eventIndex : ℕ
  eventTopic : String
  claimId : Option String := none
  packageId : Option String := none
  success : Bool
  error : Option String := none
  origin : ContractEvent

structure EventCorrelationResult where
  correlated : ℕ := 0
  skipped : ℕ := 0
  errors : ℕ := 0
  details : List Detail := []

def correlatedTopics : List String :=
  ["package_created", "package_claimed", "package_disbursed", "package_cancelled", "package_expired",
    "package_refunded", "package_revoked", "claim_created", "claim_verified", "claim_approved",
    "claim_disbursed", "claim_cancelled", "claim_archived", "escrow_initialized", "config_updated",
    "admin_updated", "tokens_allowed", "tokens_removed"]

/-- The enum `SorobanEventTopic`. -/
def sorobanEventTopics : List String :=
  ["package_created", "package_claimed", "package_disbursed", "package_cancelled", "package_expired",
    "package_refunded", "package_revoked", "claim_created", "claim_verified", "claim_approved",
    "claim_disbursed", "claim_cancelled", "claim_archived", "escrow_initialized", "escrow_funded",
    "batch_created_event", "extended_event", "surplus_withdrawn_event", "contract_paused_event",
    "contract_unpaused_event", "action_paused_event", "action_unpaused_event", "config_updated",
    "admin_updated", "tokens_allowed", "tokens_removed"]

/-- `TOPIC_MAP` maps each topic of the enum to itself. -/
def topicMap : List (String × String) := sorobanEventTopics.map fun topic => (topic, topic)

def mapTopic (topic : String) : String := (topicMap.lookup topic).getD topic

/-- How the next calls fare: the RPC server's, what it reports of a transaction and of its meta, and the
database's; and the claims that there are. -/
structure Weather where
  getEvents : Except String Unit := .ok ()
  getTransaction : Except String String := .ok "SUCCESS"
  metaReadable : Bool := true
  findUnique : Except String Unit := .ok ()
  create : Except String Unit := .ok ()
  claims : List String := []

structure Store where
  events : List ContractEvent
  rows : List CorrelationRow := []
  weather : Weather := {}

structure LedgerRange where
  startLedger : ℕ
  endLedger : ℕ

def inRange (range : Option LedgerRange) (ledger : ℕ) : Bool :=
  range.all fun r => r.startLedger ≤ ledger && ledger < r.endLedger

def ContractEvent.selected (contractId : String) (range : Option LedgerRange) (e : ContractEvent) :
    Bool :=
  e.contractId = contractId && inRange range e.ledger

structure TransactionResult where
  status : String
  ledger : ℕ
  /-- The contract events of `resultMetaXdr`, which may be in a form that is not read. -/
  events : Option (List ContractEvent)

inductive Query
  | getEvents (contractId : String) (range : Option LedgerRange)
  | getTransaction (txHash : String)
  | findUnique (txHash : String) (eventIndex : ℕ)
  | create (row : CorrelationRow)
  /-- What the next calls come to is decided elsewhere. -/
  | foresee (weather : Weather)

def Query.Reply : Query → Type
  | .getEvents .. => Except String (List ContractEvent)
  | .getTransaction _ => Except String TransactionResult
  | .findUnique .. => Except String (Option CorrelationRow)
  | .create _ => Except String Unit
  | .foresee _ => Unit

def Store.ofTransaction (s : Store) (txHash : String) : List ContractEvent :=
  s.events.filter (·.txHash = txHash)

def Store.findRow (s : Store) (key : String × ℕ) : Option CorrelationRow :=
  s.rows.find? (·.key = key)

/-- `prisma.sorobanEventCorrelation.create`: the key is unique, the topic one of the enum and the claim
there. -/
def Store.createRow (s : Store) (row : CorrelationRow) : Except String Store :=
  match s.weather.create with
  | .error e => .error e
  | .ok () =>
    if (s.findRow row.key).isSome then .error "Unique constraint failed"
    else if row.eventTopic ∉ sorobanEventTopics then .error "Invalid value for argument eventTopic"
    else if row.claimId.any (· ∉ s.weather.claims) then .error "Foreign key constraint violated"
    else .ok { s with rows := s.rows ++ [row] }

def perform : (q : Query) → Store → q.Reply × Store
  | .getEvents contractId range, s =>
    (s.weather.getEvents.map fun _ => (s.events.filter (·.selected contractId range)).take 1000, s)
  | .getTransaction txHash, s =>
    (s.weather.getTransaction.map fun status =>
      { status := status
        ledger := ((s.ofTransaction txHash).head?.map (·.ledger)).getD 0
        events := if s.weather.metaReadable then some (s.ofTransaction txHash) else none }, s)
  | .findUnique txHash eventIndex, s =>
    (s.weather.findUnique.map fun _ => s.findRow (txHash, eventIndex), s)
  | .create row, s => commit ((s.createRow row).map fun s' => ((), s')) s
  | .foresee weather, s => ((), { s with weather := weather })

abbrev Handler := Task Query Query.Reply String

/-- `getNestedValue`: the value at a path of keys. -/
def getNestedValue (obj : Payload) (path : List String) : Option Payload :=
  path.foldlM (fun current key =>
    match current with
    | .obj members => members.lookup key.toList
    | _ => none) obj

def firstScalar (payload : Payload) (paths : List (List String)) : Option String :=
  paths.findSome? fun path =>
    match getNestedValue payload path with
    | some (.str s) => some (String.ofList s)
    | some (.num n) => some n
    | _ => none

def extractPackageId (payload : Payload) : Option String :=
  firstScalar payload
    [["package_id"], ["packageId"], ["id"], ["package"], ["data", "package_id"], ["data", "id"]]

def extractClaimId (payload : Payload) : Option String :=
  firstScalar payload
    [["claim_id"], ["claimId"], ["claim"], ["data", "claim_id"], ["data", "claimId"],
      ["metadata", "claim_ref"]]

structure Identifiers where
  claimId : Option String := none
  packageId : Option String := none

def extractIdentifiers (event : SorobanEvent) : Identifiers :=
  match (extractPackageId event.payload).filter (· ≠ "") with
  | some packageId => { packageId := some packageId }
  | none => { claimId := (extractClaimId event.payload).filter (· ≠ "") }

/-- `withRetryTimeout`, which asks again that many times. -/
def withRetry {α : Type} (fn : Handler α) : ℕ → Handler α
  | 0 => fn
  | retries + 1 => do
    match ← (fn.attempt : Handler (Except String α)) with
    | .ok a => return a
    | .error _ => withRetry fn retries

def getEvents (contractId : String) (range : Option LedgerRange) : Handler (List ContractEvent) :=
  .ask (.getEvents contractId range) fun reply => .done reply

def getTransaction (txHash : String) : Handler TransactionResult :=
  .ask (.getTransaction txHash) fun reply => .done reply

def ContractEvent.fetched (e : ContractEvent) : Option SorobanEvent :=
  (e.topic.filter (· ≠ "")).map fun topic =>
    { topic := topic, payload := e.payload, txHash := e.txHash, ledger := e.ledger,
      eventIndex := e.transactionIndex.getD 0, origin := e }

def ledgerRange (data : CorrelationJobData) : Option LedgerRange :=
  data.startLedger.map fun startLedger =>
    { startLedger := startLedger
      endLedger := (data.endLedger.filter (· ≠ 0)).getD (startLedger + 1000) }

def fetchEvents (contractId : String) (range : Option LedgerRange) : Handler (List SorobanEvent) := do
  let response ← withRetry (getEvents contractId range) 3
  return response.filterMap ContractEvent.fetched

def SorobanEvent.row (event : SorobanEvent) (source : CorrelationSource) : CorrelationRow where
  eventTopic := mapTopic event.topic
  txHash := event.txHash
  ledger := event.ledger
  eventIndex := event.eventIndex
  claimId := (extractIdentifiers event).claimId
  packageId := (extractIdentifiers event).packageId
  payload := event.payload
  correlationSource := source
  origin := event.origin

def correlateSingleEvent (event : SorobanEvent) (source : CorrelationSource) : Handler Detail := do
  match ← .ask (.findUnique event.txHash event.eventIndex) fun reply => .done reply with
  | some _ =>
    return { txHash := event.txHash, eventIndex := event.eventIndex, eventTopic := event.topic,
             success := true, error := some "Already correlated", origin := event.origin }
  | none =>
    let _ ← .ask (.create (event.row source)) fun reply => .done reply
    return { txHash := event.txHash, eventIndex := event.eventIndex,
             eventTopic := mapTopic event.topic, claimId := (extractIdentifiers event).claimId,
             packageId := (extractIdentifiers event).packageId, success := true,
             origin := event.origin }

def EventCorrelationResult.add (result : EventCorrelationResult) (detail : Detail) :
    EventCorrelationResult where
  correlated := result.correlated + if detail.success then 1 else 0
  skipped := result.skipped
  errors := result.errors + if detail.success then 0 else 1
  details := result.details ++ [detail]

/-- The loop of `processEvents`: an event that fails does not stop it. -/
def processEvents (source : CorrelationSource) (result : EventCorrelationResult) :
    List SorobanEvent → Handler EventCorrelationResult
  | [] => return result
  | event :: rest => do
    match ← (correlateSingleEvent event source).attempt with
    | .ok detail => processEvents source (result.add detail) rest
    | .error errorMessage =>
      processEvents source
        (result.add
          { txHash := event.txHash, eventIndex := event.eventIndex, eventTopic := event.topic,
            success := false, error := some errorMessage, origin := event.origin })
        rest

def targetContractId (configured : String) (data : CorrelationJobData) : String :=
  (data.contractId.filter (· ≠ "")).getD configured

def correlateEvents (configured : String) (data : CorrelationJobData) :
    Handler EventCorrelationResult := do
  let events ← fetchEvents (targetContractId configured data) (ledgerRange data)
  processEvents data.correlationSource {} (events.filter (·.topic ∈ correlatedTopics))

def ContractEvent.extracted (txHash : String) (ledger eventIndex : ℕ) (e : ContractEvent) :
    SorobanEvent where
  topic := e.topic.getD ""
  payload := e.payload
  txHash := txHash
  ledger := ledger
  eventIndex := eventIndex
  origin := e

def TransactionResult.sorobanEvents (configured txHash : String) (result : TransactionResult) :
    List SorobanEvent :=
  (((result.events.getD []).filter (·.contractHash = configured)).mapIdx fun idx e =>
    e.extracted txHash result.ledger idx).filter (·.topic ≠ "")

def correlateTransaction (configured txHash : String) (source : CorrelationSource) :
    Handler EventCorrelationResult := do
  let result ← withRetry (getTransaction txHash) 3
  if result.status ≠ "SUCCESS" then
    .done (.error ("Transaction " ++ txHash ++ " not successful: " ++ result.status))
  else processEvents source {} (result.sorobanEvents configured txHash)

inductive CorrelationOp
  | correlateEvents (data : CorrelationJobData)
  | correlateTransaction (txHash : String) (source : CorrelationSource)
  | foresee (weather : Weather)

def CorrelationOp.body (configured : String) : CorrelationOp → Handler EventCorrelationResult
  | .correlateEvents data => Events.correlateEvents configured data
  | .correlateTransaction txHash source => Events.correlateTransaction configured txHash source
  | .foresee weather => .ask (.foresee weather) fun _ => .done (.ok {})

abbrev CorrelationPool := Pool Store Query Query.Reply String EventCorrelationResult CorrelationOp
abbrev CorrelationTransition := Transition CorrelationPool (Turn CorrelationOp)

def CorrelationStep (configured : String) : CorrelationPool → Turn CorrelationOp → CorrelationPool → Prop :=
  Pool.Step perform (CorrelationOp.body configured)

end Soter.Events
