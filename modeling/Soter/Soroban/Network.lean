import Soter.Soroban.Adapter
import Soter.Soroban.Stages

/-! The network behind `SorobanAdapter`: which transactions have been sent for a record, which of them may
still be applied, and the protocol that the adapter keeps to with it. -/
namespace Soter.Soroban
open Soter.Tasks Soter.Runs Soter.JsNumbers Task.Follows

inductive Outcome
  | succeeded (retval : Option Retval)
  | failed (retval : Option String)
  deriving DecidableEq

/-- How the next requests fare. A request that fails or takes too long is answered with the text of its
error, and the transaction that it sends may get through all the same. -/
structure Weather where
  sequence : Except String ℕ := .ok 0
  simulation : Except String Simulation := .ok (.succeeded none "")
  send : Except String SendStatus := .ok .pending
  getsThrough : Bool := false
  receipt : Except String Unit := .ok ()

structure Chain where
  weather : Weather := {}
  sent : List PreparedTransaction := []
  live : List PreparedTransaction := []
  applied : List (PreparedTransaction × Outcome) := []

inductive ChainEvent
  | weather (weather : Weather)
  | apply (tx : PreparedTransaction) (outcome : Outcome)

inductive NetworkQuery
  | rpc (q : RpcQuery)
  | event (e : ChainEvent)

def NetworkQuery.Reply : NetworkQuery → Type
  | .rpc q => q.Reply
  | .event _ => Unit

def PreparedTransaction.validUntil (tx : PreparedTransaction) : Time := tx.built.maxTime * 1000

/-- The transaction may be applied at some moment from `now` on. -/
def Chain.CanSucceed (k : Chain) (now : Time) (tx : PreparedTransaction) : Prop :=
  tx ∈ k.live ∧ (∀ entry ∈ k.applied, entry.1 ≠ tx) ∧ now ≤ tx.validUntil

instance (k : Chain) (now : Time) (tx : PreparedTransaction) : Decidable (k.CanSucceed now tx) :=
  inferInstanceAs (Decidable (_ ∧ _ ∧ _))

def Chain.Succeeded (k : Chain) (tx : PreparedTransaction) : Prop :=
  ∃ retval, (tx, Outcome.succeeded retval) ∈ k.applied

def Weather.accepts (w : Weather) : Bool :=
  match w.send with
  | .ok .pending | .ok .duplicate => true
  | .ok .error | .ok .tryAgainLater => false
  | .error _ => w.getsThrough

def Chain.receipt (hash : PreparedTransaction → String) (k : Chain) (h : String) : Receipt :=
  match k.applied.find? fun entry => (hash entry.1).toUpper = h with
  | none => .notFound
  | some (_, .succeeded retval) => .success retval
  | some (_, .failed retval) => .failed retval

def serveNetwork (hash : PreparedTransaction → String) :
    (q : NetworkQuery) → Time → Chain → q.Reply × Chain
  | .rpc (.getAccount _), _, k => (k.weather.sequence, k)
  | .rpc (.simulateTransaction _), _, k => (k.weather.simulation, k)
  | .rpc (.sendTransaction tx), _, k =>
    (k.weather.send.map fun status => { status := status, hash := hash tx },
      { k with
        sent := k.sent ++ [tx]
        live := if k.weather.accepts then k.live ++ [tx] else k.live })
  | .rpc (.getTransaction h), _, k => (k.weather.receipt.map fun _ => k.receipt hash h, k)
  | .event (.weather weather), _, k => ((), { k with weather := weather })
  | .event (.apply tx outcome), now, k =>
    ((), if k.CanSucceed now tx then { k with applied := k.applied ++ [(tx, outcome)] } else k)

def Chain.Settled (k : Chain) (now : Time) : Prop :=
  ∀ tx ∈ k.sent, ¬ k.Succeeded tx ∧ ¬ k.CanSucceed now tx

structure Chain.Sound (k : Chain) : Prop where
  live : ∀ tx ∈ k.live, tx ∈ k.sent
  applied : ∀ entry ∈ k.applied, entry.1 ∈ k.live

section Adapter
variable (sdk : Sdk) (config : AdapterConfig)

def embedQuery : Query RpcQuery → Query NetworkQuery
  | .clock => .clock
  | .elapse d => .elapse d
  | .sleepUntil t => .sleepUntil t
  | .findUnique id => .findUnique id
  | .updateTransactionStatus id status now => .updateTransactionStatus id status now
  | .confirm id txHash attemptNumber now => .confirm id txHash attemptNumber now
  | .recordError id error => .recordError id error
  | .findRetryable now => .findRetryable now
  | .findStuck stuckThreshold => .findStuck stuckThreshold
  | .expire createdBefore now => .expire createdBefore now
  | .resetForRetry id forceRetry now => .resetForRetry id forceRetry now
  | .addJob job => .addJob job
  | .takeJob pick => .takeJob pick
  | .chain q => .chain (.rpc q)

def embedReply : (q : Query RpcQuery) →
    (embedQuery q).Reply NetworkQuery.Reply → q.Reply RpcQuery.Reply
  | .clock, reply | .elapse _, reply | .sleepUntil _, reply | .findUnique _, reply
  | .updateTransactionStatus .., reply | .confirm .., reply | .recordError .., reply
  | .findRetryable _, reply | .findStuck _, reply | .expire .., reply | .resetForRetry .., reply
  | .addJob _, reply | .takeJob _, reply | .chain _, reply => reply

def orNull (s : Option String) : String := s.getD "null"

def adapterHandler : AdapterCall → RpcHandler String
  | .createClaim claimId recipientAddress amount tokenAddress expiresAt => do
    let result ← createClaim sdk config
      { claimId := orNull claimId
        recipientAddress := orNull recipientAddress
        amount := orNull amount
        tokenAddress := orNull tokenAddress
        expiresAt := some (.int expiresAt) }
    return result.transactionHash
  | .disburse claimId packageId tokenAddress receiptPointer => do
    let result ← disburse sdk config
      { claimId := orNull claimId
        packageId := orNull packageId
        tokenAddress := orNull tokenAddress
        receiptPointer := receiptPointer }
    return result.transactionHash
  | .initEscrow adminAddress => initEscrow sdk config (orNull adminAddress)

def sorobanAdapter (call : AdapterCall) : Handler NetworkQuery.Reply String :=
  (adapterHandler sdk config call).lift embedQuery embedReply

end Adapter
section Protocol

/-- Where the adapter stands: it has sent nothing yet, it has sent a transaction, or it has been shown
the receipt of one that succeeded. -/
inductive SendStage
  | fresh
  | sent (tx : PreparedTransaction)
  | won

def SendStage.mayAsk : SendStage → RpcQuery → Prop
  | .fresh, .getAccount _ | .fresh, .simulateTransaction _ | .fresh, .sendTransaction _ => True
  | .sent tx, .sendTransaction tx' => tx' = tx
  | .sent _, .getTransaction _ => True
  | _, _ => False

def SendStage.after (a : SendStage) : (q : RpcQuery) → q.Reply → SendStage
  | .sendTransaction tx, _ => .sent tx
  | .getTransaction _, reply =>
    match (reply : Except String Receipt) with
    | .ok (.success _) => .won
    | _ => a
  | _, _ => a

def sending : Protocol RpcQuery RpcQuery.Reply SendStage where
  allowed := SendStage.mayAsk
  next := SendStage.after

def sendingOnNetwork : Protocol NetworkQuery NetworkQuery.Reply SendStage where
  allowed a q :=
    match q with
    | .rpc q => a.mayAsk q
    | .event _ => False
  next a q reply :=
    match q with
    | .rpc q => a.after q reply
    | .event _ => a

def SendStage.ends (a : SendStage) : Except String String → Prop
  | .ok _ => a = .won
  | .error _ => True

def Unless {α : Type} (before : SendStage → Prop) (after : SendStage → α → Prop) (a : SendStage) :
    Except String α → Prop
  | .ok x => after a x
  | .error _ => before a

variable {α β : Type} {before : SendStage → Prop} {after : SendStage → α → Prop} {fn : RpcHandler α} {a : SendStage}
  {f : α → RpcHandler β}

theorem follows_retryFrom (hfn : ∀ a, before a → fn.Follows (outside sending) (Unless before after) a)
    (config : RetryConfig) : ∀ (attempt left : ℕ) (a : SendStage), before a →
      (retryFrom config fn attempt left).Follows (outside sending) (Unless before after) a
  | _, 0, a, ha => hfn a ha
  | attempt, left + 1, a, ha => by
    refine bind (fun a' result hresult => ?_) (fun a' e he => ?_) (hfn a ha).attempt
    · obtain ⟨caught, hcaught, hpost⟩ := hresult
      cases hcaught
      cases result with
      | ok x => exact hpost
      | error e =>
        refine ⟨trivial, fun now => ⟨trivial, fun _ => ?_⟩⟩
        exact follows_retryFrom hfn config (attempt + 1) left a' hpost
    · obtain ⟨caught, hcaught, -⟩ := he
      cases hcaught

theorem follows_withRetryTimeout
    (hfn : ∀ a, before a → fn.Follows (outside sending) (Unless before after) a) (config : RetryConfig) (ha : before a) :
    (withRetryTimeout fn config).Follows (outside sending) (Unless before after) a :=
  follows_retryFrom hfn config 0 config.maxRetries a ha

theorem follows_clock : (clock : RpcHandler Time).Follows (outside sending) (fun a' _ => a' = a) a :=
  ⟨trivial, fun _ => rfl⟩

theorem follows_getAccount (publicKey : String) : ∀ a, a = .fresh → (getAccount publicKey).Follows
    (outside sending) (Unless (· = .fresh) fun a _ => a = .fresh) a := by
  rintro a rfl
  refine ⟨trivial, fun reply => ?_⟩
  cases (reply : Except String ℕ) with
  | ok sequence | error e => rfl

theorem follows_simulateTransaction (tx : BuiltTransaction) : ∀ a, a = .fresh →
    (simulateTransaction tx).Follows (outside sending) (Unless (· = .fresh) fun a _ => a = .fresh) a := by
  rintro a rfl
  refine ⟨trivial, fun reply => ?_⟩
  cases (reply : Except String Simulation) with
  | ok simulation | error e => rfl

theorem follows_sendTransaction (tx : PreparedTransaction) : ∀ a, a = .fresh ∨ a = .sent tx →
    (sendTransaction tx).Follows (outside sending)
      (Unless (fun a => a = .fresh ∨ a = .sent tx) fun a _ => a = .sent tx) a := by
  rintro a (rfl | rfl)
  · refine ⟨trivial, fun reply => ?_⟩
    cases (reply : Except String SendResult) with
    | ok sent => rfl
    | error e => exact .inr rfl
  · refine ⟨rfl, fun reply => ?_⟩
    cases (reply : Except String SendResult) with
    | ok sent => rfl
    | error e => exact .inr rfl

theorem follows_pollTransaction (hash : String) (tx : PreparedTransaction) : ∀ a, a = .sent tx →
    (pollTransaction hash).Follows (outside sending) (Unless (· = .sent tx) fun a receipt =>
      receipt ≠ .notFound ∧ ∀ retval, receipt = .success retval → a = .won) a := by
  rintro a rfl
  refine ⟨trivial, fun reply => ?_⟩
  cases (reply : Except String Receipt) with
  | error e => rfl
  | ok receipt =>
    cases receipt with
    | notFound => rfl
    | success retval => exact ⟨nofun, fun _ _ => rfl⟩
    | failed retval => exact ⟨nofun, fun _ => nofun⟩

theorem follows_buildAndSimulate_sending (noMessage publicKey : String) (call : ContractCall) :
    (buildAndSimulate noMessage publicKey call).Follows (outside sending)
      (Unless (fun _ => True) fun a _ => a = .fresh) .fresh := by
  refine bind (fun a sequence ha => ?_) (fun _ _ _ => trivial)
    (follows_withRetryTimeout (follows_getAccount publicKey) {} rfl)
  rw [show a = .fresh from ha]
  refine bind (fun a now ha => ?_) (fun _ _ _ => trivial) follows_clock
  rw [show a = .fresh from ha]
  refine bind (fun a simulation ha => ?_) (fun _ _ _ => trivial)
    (follows_withRetryTimeout (follows_simulateTransaction _) {} rfl)
  cases simulation with
  | failed error => trivial
  | succeeded retval resources => exact ha

theorem follows_sendPrepared (tx : PreparedTransaction) :
    (sendPrepared tx).Follows (outside sending) (Unless (fun _ => True) fun a _ => a = .won) .fresh := by
  refine bind (fun a sent ha => ?_) (fun _ _ _ => trivial)
    (follows_withRetryTimeout (follows_sendTransaction tx) {} (.inl rfl))
  rw [show a = .sent tx from ha]
  refine Task.follows_ite (fun _ => ?_) fun _ => trivial
  refine bind (fun a receipt hreceipt => ?_) (fun _ _ _ => trivial)
    (follows_withRetryTimeout (follows_pollTransaction sent.hash.toUpper tx) { maxRetries := 10 } rfl)
  cases receipt with
  | notFound => exact absurd rfl hreceipt.1
  | success retval => exact hreceipt.2 retval rfl
  | failed retval => trivial

variable {sdk : Sdk} {config : AdapterConfig}

def Wins {α : Type} (t : RpcHandler α) : Prop :=
  t.Follows (outside sending) (Unless (fun _ => True) fun a _ => a = .won) .fresh

theorem wins_after_done {result : Except String α}
    (h : ∀ x, Wins (f x)) : Wins ((Task.done result : RpcHandler α).bind f) := by
  cases result with
  | error e => trivial
  | ok x => exact h x

theorem Wins.then_done {t : RpcHandler α} (h : Wins t) (hf : ∀ x, ∃ y, f x = .done (.ok y)) : Wins (t.bind f) := by
  refine bind (fun a x hwon => ?_) (fun _ _ _ => trivial) h
  obtain ⟨y, hy⟩ := hf x
  rw [hy]
  exact hwon

theorem wins_submitContractOp (method : String) (args : List ScVal) :
    Wins (submitContractOp sdk config method args) := by
  refine wins_after_done fun publicKey => ?_
  refine bind (fun a built ha => ?_) (fun _ _ _ => trivial) (follows_buildAndSimulate_sending _ publicKey _)
  rw [show a = .fresh from ha]
  exact follows_sendPrepared _

theorem wins_createAidPackage (params : CreateAidPackageParams) :
    Wins (createAidPackage sdk config params) := by
  refine wins_after_done fun _ => wins_after_done fun args => ?_
  exact (wins_submitContractOp _ args).then_done fun _ => ⟨_, rfl⟩

theorem wins_submitForPackage (method packageId : String) :
    Wins (submitForPackage sdk config method packageId) := by
  refine wins_after_done fun _ => wins_after_done fun id => ?_
  exact (wins_submitContractOp _ [id]).then_done fun _ => ⟨_, rfl⟩

theorem wins_adapterHandler (call : AdapterCall) : Wins (adapterHandler sdk config call) := by
  cases call with
  | createClaim claimId recipientAddress amount tokenAddress expiresAt =>
    refine Wins.then_done ?_ fun _ => ⟨_, rfl⟩
    refine bind (fun a now ha => ?_) (fun _ _ _ => trivial) follows_clock
    rw [show a = .fresh from ha]
    exact wins_createAidPackage _
  | disburse claimId packageId tokenAddress receiptPointer =>
    exact (wins_submitForPackage _ _).then_done fun _ => ⟨_, rfl⟩
  | initEscrow adminAddress =>
    refine wins_after_done fun _ => wins_after_done fun admin => ?_
    exact (wins_submitContractOp _ [admin]).then_done fun _ => ⟨_, rfl⟩

theorem follows_sorobanAdapter (call : AdapterCall) : (sorobanAdapter sdk config call).Follows
    (outside sendingOnNetwork) SendStage.ends .fresh := by
  refine lift (P := outside sending) (fun a q hq => ?_) (fun a q reply hq => ?_) ?_
  · cases q <;> exact hq
  · cases q <;> rfl
  · refine (wins_adapterHandler call).mono fun a r h => ?_
    cases r with
    | ok hash => exact h
    | error e => trivial

end Protocol
end Soter.Soroban
