import Soter.Lib.JsNumber
import Soter.Soroban.Lifecycle

/-! `SorobanAdapter`: what it hands to the Stellar SDK and what it asks of the RPC server. The SDK is a
parameter. -/
namespace Soter.Soroban
open Soter.Tasks Soter.JsNumbers

inductive ScVal
  | u64 (v : ℕ)
  | i128 (v : ℤ)
  | address (text : String)
  | map (entries : List (String × String))
  deriving DecidableEq

/-- What the adapter uses of the SDK: `nativeToScVal` by the type that it is given, the account of a secret
key, and the constructors of `Contract` and of the RPC server. -/
structure Sdk where
  u64 : JsNumber → Except String ScVal
  i128 : String → Except String ScVal
  address : String → Except String ScVal
  map : List (String × String) → Except String ScVal
  publicKey : String → Except String String
  contract : String → Except String Unit
  server : String → Except String Unit

/-- `nativeToScVal` encodes an integer below 2^64 exactly and throws on every other number. -/
structure Sdk.Exact (sdk : Sdk) : Prop where
  u64_int : ∀ (z : ℤ) (scv : ScVal),
    sdk.u64 (.int z) = .ok scv ↔ 0 ≤ z ∧ z < 2 ^ 64 ∧ scv = .u64 z.toNat
  u64_nan : ∀ scv, sdk.u64 .nan ≠ .ok scv

structure NetworkProfile where
  passphrase : String
  foreignRpcKeywords : List String

def testnet : NetworkProfile := ⟨"Test SDF Network ; September 2015", ["mainnet"]⟩
def futurenet : NetworkProfile := ⟨"Test SDF Future Network ; October 2022", ["mainnet"]⟩
def mainnet : NetworkProfile :=
  ⟨"Public Global Stellar Network ; September 2015", ["testnet", "futurenet"]⟩

def getNetworkProfile (network : String) : NetworkProfile :=
  let normalized := toLowerCase network
  if normalized = "futurenet".toList then futurenet
  else if normalized = "mainnet".toList then mainnet
  else testnet

structure AdapterConfig where
  contractId : String
  network : String
  rpcUrl : String
  networkPassphrase : String
  adminSecretKey : String

def AdapterConfig.validate (config : AdapterConfig) : Except String Unit := do
  let profile := getNetworkProfile config.network
  if config.contractId = "" ∨ ¬ config.contractId.startsWith "C" ∨ config.contractId.length ≠ 56 then
    .error ("AID_ESCROW_CONTRACT_ID is missing or invalid. Must be a 56-char Soroban contract ID " ++
      "starting with \"C\".")
  else if config.adminSecretKey = "" then
    .error "SOROBAN_ADMIN_SECRET_KEY is not configured. Required for signing Soroban transactions."
  else if config.networkPassphrase ≠ profile.passphrase then
    .error ("Cross-network mismatch: STELLAR_NETWORK_PASSPHRASE does not match the " ++
      config.network ++ " passphrase.")
  else
    match profile.foreignRpcKeywords.find? fun keyword =>
        keyword.toList <:+: toLowerCase config.rpcUrl with
    | some keyword =>
      .error ("Cross-network mismatch: STELLAR_RPC_URL (" ++ config.rpcUrl ++ ") looks like a " ++
        keyword ++ " endpoint, but SOROBAN_NETWORK is \"" ++ config.network ++ "\".")
    | none => .ok ()

def AdapterConfig.ensureConfigured (config : AdapterConfig) : Except String Unit :=
  if config.contractId = "" then .error "AID_ESCROW_CONTRACT_ID not configured." else config.validate

structure ContractCall where
  contractId : String
  method : String
  args : List ScVal
  deriving DecidableEq

/-- A transaction as `TransactionBuilder` makes it: it is valid until `maxTime`, in seconds. -/
structure BuiltTransaction where
  source : String
  sequence : ℕ
  call : ContractCall
  maxTime : ℤ
  deriving DecidableEq

structure PreparedTransaction where
  built : BuiltTransaction
  resources : String
  deriving DecidableEq

/-- What `parsePackage` looks for in a value that the contract returned. -/
structure PackageData where
  id : Option String := none
  recipient : Option String := none
  amount : Option String := none
  token : Option String := none
  status : Option (ℕ ⊕ String) := none
  createdAt : Option ℤ := none
  expiresAt : Option ℤ := none
  deriving DecidableEq

/-- A returned value, decoded: an object or something else, which `String` prints. -/
inductive Retval
  | object (data : PackageData)
  | scalar (text : String)
  deriving DecidableEq

def Retval.toText : Retval → String
  | .object _ => "[object Object]"
  | .scalar text => text

inductive Simulation
  | failed (error : Option String)
  | succeeded (retval : Option Retval) (resources : String)

inductive SendStatus
  | pending
  | duplicate
  | error
  | tryAgainLater
  deriving DecidableEq

def SendStatus.text : SendStatus → String
  | .pending => "PENDING"
  | .duplicate => "DUPLICATE"
  | .error => "ERROR"
  | .tryAgainLater => "TRY_AGAIN_LATER"

structure SendResult where
  status : SendStatus
  hash : String

inductive Receipt
  | notFound
  | success (retval : Option Retval)
  | failed (retval : Option String)

inductive RpcQuery
  | getAccount (publicKey : String)
  | simulateTransaction (tx : BuiltTransaction)
  | sendTransaction (tx : PreparedTransaction)
  | getTransaction (hash : String)
  deriving DecidableEq

/-- A request that fails, or takes longer than it may, is answered with the text of its error. -/
def RpcQuery.Reply : RpcQuery → Type
  | .getAccount _ => Except String ℕ
  | .simulateTransaction _ => Except String Simulation
  | .sendTransaction _ => Except String SendResult
  | .getTransaction _ => Except String Receipt

def RpcQuery.call : RpcQuery → Option ContractCall
  | .simulateTransaction tx => some tx.call
  | .sendTransaction tx => some tx.built.call
  | .getAccount _ | .getTransaction _ => none

abbrev RpcHandler := Handler RpcQuery.Reply

def getAccount (publicKey : String) : RpcHandler ℕ :=
  .ask (.chain (.getAccount publicKey)) fun reply => .done reply

def simulateTransaction (tx : BuiltTransaction) : RpcHandler Simulation :=
  .ask (.chain (.simulateTransaction tx)) fun reply => .done reply

def sendTransaction (tx : PreparedTransaction) : RpcHandler SendResult :=
  .ask (.chain (.sendTransaction tx)) fun reply => .done reply

def getTransaction (hash : String) : RpcHandler Receipt :=
  .ask (.chain (.getTransaction hash)) fun reply => .done reply

structure RetryConfig where
  maxRetries : ℕ := 3
  baseDelayMs : ℤ := 2000
  maxDelayMs : ℤ := 30000

/-- From the attempt with the number `attempt` on, with `left` retries after it. What chance adds to a
wait is time that goes by. -/
def retryFrom {α : Type} (config : RetryConfig) (fn : RpcHandler α) (attempt : ℕ) : ℕ → RpcHandler α
  | 0 => fn
  | left + 1 => do
    match ← fn.attempt with
    | .ok a => return a
    | .error _ =>
      let now ← clock
      sleepUntil (now + min (config.baseDelayMs * 2 ^ attempt) config.maxDelayMs)
      retryFrom config fn (attempt + 1) left

def withRetryTimeout {α : Type} (fn : RpcHandler α) (config : RetryConfig) : RpcHandler α :=
  retryFrom config fn 0 config.maxRetries

section Submission
variable (sdk : Sdk) (config : AdapterConfig)

/-- The RPC server, the account of the key and the contract, as both ways to call it open them. -/
def openContract (contractId : String) : Except String String := do
  sdk.server config.rpcUrl
  let publicKey ← sdk.publicKey config.adminSecretKey
  sdk.contract contractId
  return publicKey

def validitySeconds : ℤ := 300

def buildAndSimulate (noMessage publicKey : String) (call : ContractCall) :
    RpcHandler (BuiltTransaction × Option Retval × String) := do
  let sequence ← withRetryTimeout (getAccount publicKey) {}
  let now ← clock
  let tx : BuiltTransaction :=
    { source := publicKey, sequence := sequence + 1, call := call, maxTime := now / 1000 + validitySeconds }
  match ← withRetryTimeout (simulateTransaction tx) {} with
  | .failed error => .done (.error ("Contract simulation error: " ++ error.getD noMessage))
  | .succeeded retval resources => return (tx, retval, resources)

def pollTransaction (hash : String) : RpcHandler Receipt := do
  match ← getTransaction hash with
  | .notFound => .done (.error "Transaction not yet confirmed")
  | receipt => return receipt

def sendPrepared (tx : PreparedTransaction) : RpcHandler (String × Option Retval) := do
  let sendResult ← withRetryTimeout (sendTransaction tx) {}
  if sendResult.status = .pending ∨ sendResult.status = .duplicate then
    let hash := sendResult.hash.toUpper
    match ← withRetryTimeout (pollTransaction hash) { maxRetries := 10 } with
    | .failed retval => .done (.error (retval.getD "Contract transaction failed"))
    | .success retval => return (hash, retval)
    | .notFound => return (hash, none)
  else .done (.error ("Transaction submission failed with status: " ++ sendResult.status.text))

def submitContractOp (method : String) (args : List ScVal) : RpcHandler (String × Option Retval) := do
  let publicKey ← .done (openContract sdk config config.contractId)
  let (tx, _, resources) ← buildAndSimulate "Simulation failed with no error message" publicKey
    { contractId := config.contractId, method := method, args := args }
  sendPrepared { built := tx, resources := resources }

def simulateReadOnly (method : String) (args : List ScVal) : RpcHandler (Option Retval) := do
  let publicKey ← .done (openContract sdk config config.contractId)
  let (_, retval, _) ← buildAndSimulate "Simulation failed" publicKey
    { contractId := config.contractId, method := method, args := args }
  return retval

end Submission
section Packages
variable (sdk : Sdk) (config : AdapterConfig)

inductive AidPackageStatus
  | created
  | claimed
  | expired
  | cancelled
  | refunded
  deriving DecidableEq

def labelForStatusCode : ℕ → AidPackageStatus
  | 1 => .claimed
  | 2 => .expired
  | 3 => .cancelled
  | 4 => .refunded
  | _ => .created

def parseStatus : Option (ℕ ⊕ String) → AidPackageStatus
  | some (.inl code) => labelForStatusCode code
  | some (.inr "Claimed") => .claimed
  | some (.inr "Expired") => .expired
  | some (.inr "Cancelled") => .cancelled
  | some (.inr "Refunded") => .refunded
  | _ => .created

structure AidPackage where
  id : String
  recipient : String := ""
  amount : String := "0"
  token : String := ""
  status : AidPackageStatus := .created
  createdAt : ℤ := 0
  expiresAt : ℤ := 0
  deriving DecidableEq

def parsePackage : Option Retval → Option AidPackage
  | some (.object data) => some
    { id := data.id.getD ""
      recipient := data.recipient.getD ""
      amount := data.amount.getD "0"
      token := data.token.getD ""
      status := parseStatus data.status
      createdAt := data.createdAt.getD 0
      expiresAt := data.expiresAt.getD 0 }
  | _ => none

structure CreateAidPackageParams where
  operatorAddress : String
  packageId : String
  recipientAddress : String
  amount : String
  tokenAddress : String
  expiresAt : JsNumber
  metadata : List (String × String) := []

structure PackageResult where
  packageId : String
  transactionHash : String
  deriving DecidableEq

/-- `scvU64` of a package id. -/
def scvPackageId (packageId : String) : Except String ScVal := sdk.u64 (parseInt packageId)

def initEscrow (adminAddress : String) : RpcHandler String := do
  let () ← .done config.ensureConfigured
  let admin ← .done (sdk.address adminAddress)
  let (hash, _) ← submitContractOp sdk config "init" [admin]
  return hash

def createAidPackageArgs (params : CreateAidPackageParams) : Except String (List ScVal) := do
  let metadata ← sdk.map params.metadata
  let operator ← sdk.address params.operatorAddress
  let packageId ← scvPackageId sdk params.packageId
  let recipient ← sdk.address params.recipientAddress
  let amount ← sdk.i128 params.amount
  let token ← sdk.address params.tokenAddress
  let expiresAt ← sdk.u64 params.expiresAt
  return [operator, packageId, recipient, amount, token, expiresAt, metadata]

def createAidPackage (params : CreateAidPackageParams) : RpcHandler PackageResult := do
  let () ← .done config.ensureConfigured
  let args ← .done (createAidPackageArgs sdk params)
  let (hash, result) ← submitContractOp sdk config "create_package" args
  return { packageId := (result.map Retval.toText).getD params.packageId, transactionHash := hash }

/-- `claimAidPackage` and `disburseAidPackage`, which differ in the method. -/
def submitForPackage (method packageId : String) : RpcHandler PackageResult := do
  let () ← .done config.ensureConfigured
  let id ← .done (scvPackageId sdk packageId)
  let (hash, _) ← submitContractOp sdk config method [id]
  return { packageId := packageId, transactionHash := hash }

def claimAidPackage (packageId : String) : RpcHandler PackageResult :=
  submitForPackage sdk config "claim" packageId

def disburseAidPackage (packageId : String) : RpcHandler PackageResult :=
  submitForPackage sdk config "disburse" packageId

def getAidPackage (packageId : String) : RpcHandler AidPackage := do
  let () ← .done config.ensureConfigured
  let id ← .done (scvPackageId sdk packageId)
  let result ← simulateReadOnly sdk config "get_package" [id]
  return (parsePackage result).getD { id := packageId }

structure ExtendResult extends PackageResult where
  oldExpiresAt : Option ℤ
  newExpiresAt : JsNumber
  deriving DecidableEq

def extendExpiryArgs (packageId : String) (newExpiresAt : JsNumber) : Except String (List ScVal) := do
  let id ← scvPackageId sdk packageId
  let expiresAt ← sdk.u64 newExpiresAt
  return [id, expiresAt]

def extendAidPackageExpiry (packageId : String) (newExpiresAt : JsNumber) :
    RpcHandler ExtendResult := do
  let () ← .done config.ensureConfigured
  -- the contract checks for itself: a package that cannot be read is no reason to stop
  let current ← (getAidPackage sdk config packageId).attempt
  let args ← .done (extendExpiryArgs sdk packageId newExpiresAt)
  let (hash, _) ← submitContractOp sdk config "extend_expiry" args
  return { packageId := packageId, transactionHash := hash,
           oldExpiresAt := current.toOption.map (·.expiresAt), newExpiresAt := newExpiresAt }

structure CreateClaimParams where
  claimId : String
  recipientAddress : String
  amount : String
  tokenAddress : String
  expiresAt : Option JsNumber := none

/-- The package that a claim becomes at the time `now`. -/
def CreateClaimParams.toAidPackage (params : CreateClaimParams) (now : Time) :
    CreateAidPackageParams where
  operatorAddress := ""
  packageId := params.claimId
  recipientAddress := params.recipientAddress
  amount := params.amount
  tokenAddress := params.tokenAddress
  expiresAt := params.expiresAt.getD (.int (now / 1000 + thirtyDaysSeconds))

def createClaim (params : CreateClaimParams) : RpcHandler PackageResult := do
  let now ← clock
  createAidPackage sdk config (params.toAidPackage now)

structure DisburseParams where
  claimId : String
  packageId : String
  tokenAddress : String
  recipientAddress : Option String := none
  amount : Option String := none
  receiptPointer : Option String := none

def disburse (params : DisburseParams) : RpcHandler PackageResult :=
  disburseAidPackage sdk config params.packageId

end Packages
end Soter.Soroban
