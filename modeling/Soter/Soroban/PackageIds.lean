import Soter.Lib.Fallible
import Soter.Lib.Protocol
import Soter.Soroban.Adapter

/-! The package that a call of the adapter acts on, and the package that its caller named. -/
namespace Soter.Soroban
open Soter.Tasks Soter.JsNumbers Soter.Fallible

inductive PackageOp
  | createAidPackage (params : CreateAidPackageParams)
  | claimAidPackage (packageId : String)
  | disburseAidPackage (packageId : String)
  | extendAidPackageExpiry (packageId : String) (newExpiresAt : JsNumber)
  | getAidPackage (packageId : String)
  | createClaim (params : CreateClaimParams)
  | disburse (params : DisburseParams)

def PackageOp.packageId : PackageOp → String
  | .createAidPackage params => params.packageId
  | .claimAidPackage packageId | .disburseAidPackage packageId | .getAidPackage packageId
  | .extendAidPackageExpiry packageId _ => packageId
  | .createClaim params => params.claimId
  | .disburse params => params.packageId

def ignore {α : Type} (t : RpcHandler α) : RpcHandler Unit := t.bind fun _ => .done (.ok ())

def PackageOp.run (sdk : Sdk) (config : AdapterConfig) : PackageOp → RpcHandler Unit
  | .createAidPackage params => ignore (Soroban.createAidPackage sdk config params)
  | .claimAidPackage packageId => ignore (Soroban.claimAidPackage sdk config packageId)
  | .disburseAidPackage packageId => ignore (Soroban.disburseAidPackage sdk config packageId)
  | .extendAidPackageExpiry packageId newExpiresAt =>
    ignore (Soroban.extendAidPackageExpiry sdk config packageId newExpiresAt)
  | .getAidPackage packageId => ignore (Soroban.getAidPackage sdk config packageId)
  | .createClaim params => ignore (Soroban.createClaim sdk config params)
  | .disburse params => ignore (Soroban.disburse sdk config params)

def ContractCall.packageArg (call : ContractCall) : Option ScVal :=
  if call.method = "create_package" then call.args[1]? else call.args[0]?

/-- What the RPC server and the clock answer, which may depend on all that has been asked before. -/
abbrev Network := List (Query RpcQuery) → (q : Query RpcQuery) → q.Reply RpcQuery.Reply

def Network.serve (network : Network) (q : Query RpcQuery) (asked : List (Query RpcQuery)) :
    q.Reply RpcQuery.Reply × List (Query RpcQuery) :=
  (network asked q, asked ++ [q])

def observe {α : Type} (network : Network) (t : RpcHandler α) :
    Except String α × List (Query RpcQuery) :=
  t.alone network.serve []

def contractCall : Query RpcQuery → Option ContractCall
  | .chain q => q.call
  | _ => none

/-- Whatever the network does: the call fails before anything is simulated or submitted, or the string
is a decimal numeral of a value below 2^64 and every contract call is handed that value. -/
def ActsOnNamed (sdk : Sdk) (config : AdapterConfig) (op : PackageOp) : Prop :=
  ∀ network, ((∃ e, (observe network (op.run sdk config)).1 = .error e) ∧
      (observe network (op.run sdk config)).2.filterMap contractCall = []) ∨
    ∃ v, Denotes op.packageId v ∧ v < 2 ^ 64 ∧
      ∀ call ∈ (observe network (op.run sdk config)).2.filterMap contractCall,
        call.packageArg = some (.u64 v)

/-- The arguments of the first contract call. Those of `createClaim` are for the time that it reads. -/
def PackageOp.firstArgs (sdk : Sdk) (now : Time) : PackageOp → Except String (List ScVal)
  | .createAidPackage params => createAidPackageArgs sdk params
  | .createClaim params => createAidPackageArgs sdk (params.toAidPackage now)
  | op => do
    let id ← scvPackageId sdk op.packageId
    return [id]

def PackageOp.firstMethod : PackageOp → String
  | .createAidPackage _ | .createClaim _ => "create_package"
  | .claimAidPackage _ => "claim"
  | .disburseAidPackage _ | .disburse _ => "disburse"
  | .extendAidPackageExpiry .. | .getAidPackage _ => "get_package"

/-- The first contract call, with the account that it is made from, unless the configuration, an argument
of it, the key or the contract is refused. -/
def PackageOp.firstCall (sdk : Sdk) (config : AdapterConfig) (now : Time) (op : PackageOp) :
    Except String (String × ContractCall) := do
  config.ensureConfigured
  let args ← op.firstArgs sdk now
  let publicKey ← openContract sdk config config.contractId
  return (publicKey, { contractId := config.contractId, method := op.firstMethod, args := args })

def PackageOp.Refused (sdk : Sdk) (config : AdapterConfig) (op : PackageOp) : Prop :=
  ∀ now first, op.firstCall sdk config now ≠ .ok first

variable {config : AdapterConfig} {op : PackageOp} {sdk : Sdk} {now : Time} {packageId : String}

theorem firstCall_error (h : ∀ first, op.firstCall sdk config now ≠ .ok first) :
    (∃ e, config.ensureConfigured = .error e) ∨ config.ensureConfigured = .ok () ∧
      ((∃ e, op.firstArgs sdk now = .error e) ∨ ∃ args e, op.firstArgs sdk now = .ok args ∧
        openContract sdk config config.contractId = .error e) := by
  cases hconfig : config.ensureConfigured with
  | error e => exact .inl ⟨e, rfl⟩
  | ok _ =>
    refine .inr ⟨rfl, ?_⟩
    cases hargs : op.firstArgs sdk now with
    | error e => exact .inl ⟨e, rfl⟩
    | ok args =>
      right
      cases hopen : openContract sdk config config.contractId with
      | error e => exact ⟨args, e, rfl, rfl⟩
      | ok publicKey =>
        refine absurd ?_ (h (publicKey, ⟨config.contractId, op.firstMethod, args⟩))
        rw [PackageOp.firstCall, hconfig, hargs, hopen]
        rfl

theorem refused_createAidPackage {params : CreateAidPackageParams}
    (h : (PackageOp.createAidPackage params).Refused sdk config) :
    ∃ e, createAidPackage sdk config params = .done (.error e) := by
  rcases firstCall_error (h 0) with ⟨e, hconfig⟩ | ⟨hconfig, ⟨e, hargs⟩ | ⟨args, e, hargs, hopen⟩⟩
  · refine ⟨e, ?_⟩
    simp only [createAidPackage, hconfig, Task.bind_eq, Task.done_error_bind]
  · refine ⟨e, ?_⟩
    simp only [PackageOp.firstArgs] at hargs
    simp only [createAidPackage, hconfig, hargs, Task.bind_eq, Task.done_ok_bind, Task.done_error_bind]
  · refine ⟨e, ?_⟩
    simp only [PackageOp.firstArgs] at hargs
    simp only [createAidPackage, submitContractOp, hconfig, hargs, hopen, Task.bind_eq,
      Task.done_ok_bind, Task.done_error_bind]

theorem refused_first_arg (hargs : op.firstArgs sdk now = (do let id ← scvPackageId sdk packageId; return [id]))
    (h : op.Refused sdk config) : (∃ e, config.ensureConfigured = .error e) ∨
      config.ensureConfigured = .ok () ∧ ((∃ e, scvPackageId sdk packageId = .error e) ∨
        ∃ id e, scvPackageId sdk packageId = .ok id ∧
          openContract sdk config config.contractId = .error e) := by
  rcases firstCall_error (h now) with hconfig | ⟨hconfig, ⟨e, hid⟩ | ⟨args, e, hid, hopen⟩⟩
  · exact .inl hconfig
  · refine .inr ⟨hconfig, .inl ⟨e, ?_⟩⟩
    rw [hargs] at hid
    rcases bind_eq_error.mp hid with hid | ⟨id, -, hid⟩
    · exact hid
    · cases hid
  · rw [hargs] at hid
    obtain ⟨id, hid, -⟩ := bind_eq_ok.mp hid
    exact .inr ⟨hconfig, .inr ⟨id, e, hid, hopen⟩⟩

theorem refused_submitForPackage {method : String}
    (hargs : op.firstArgs sdk 0 = (do let id ← scvPackageId sdk packageId; return [id]))
    (h : op.Refused sdk config) : ∃ e, submitForPackage sdk config method packageId = .done (.error e) := by
  rcases refused_first_arg hargs h with ⟨e, hconfig⟩ | ⟨hconfig, ⟨e, hid⟩ | ⟨id, e, hid, hopen⟩⟩
  · refine ⟨e, ?_⟩
    simp only [submitForPackage, hconfig, Task.bind_eq, Task.done_error_bind]
  · refine ⟨e, ?_⟩
    simp only [submitForPackage, hconfig, hid, Task.bind_eq, Task.done_ok_bind, Task.done_error_bind]
  · refine ⟨e, ?_⟩
    simp only [submitForPackage, submitContractOp, hconfig, hid, hopen, Task.bind_eq,
      Task.done_ok_bind, Task.done_error_bind]

theorem refused_getAidPackage (hargs : op.firstArgs sdk 0 = (do let id ← scvPackageId sdk packageId; return [id]))
    (h : op.Refused sdk config) : ∃ e, getAidPackage sdk config packageId = .done (.error e) := by
  rcases refused_first_arg hargs h with ⟨e, hconfig⟩ | ⟨hconfig, ⟨e, hid⟩ | ⟨id, e, hid, hopen⟩⟩
  · refine ⟨e, ?_⟩
    simp only [getAidPackage, hconfig, Task.bind_eq, Task.done_error_bind]
  · refine ⟨e, ?_⟩
    simp only [getAidPackage, hconfig, hid, Task.bind_eq, Task.done_ok_bind, Task.done_error_bind]
  · refine ⟨e, ?_⟩
    simp only [getAidPackage, simulateReadOnly, hconfig, hid, hopen, Task.bind_eq, Task.done_ok_bind, Task.done_error_bind]

theorem refused_extendAidPackageExpiry {newExpiresAt : JsNumber}
    (h : (PackageOp.extendAidPackageExpiry packageId newExpiresAt).Refused sdk config) :
    ∃ e, extendAidPackageExpiry sdk config packageId newExpiresAt = .done (.error e) := by
  have hfirst : (PackageOp.extendAidPackageExpiry packageId newExpiresAt).firstArgs sdk 0 =
      (do let id ← scvPackageId sdk packageId; return [id]) := rfl
  obtain ⟨e', hget⟩ := refused_getAidPackage hfirst h
  rcases refused_first_arg hfirst h with ⟨e, hconfig⟩ | ⟨hconfig, ⟨e, hid⟩ | ⟨id, e, hid, hopen⟩⟩
  · refine ⟨e, ?_⟩
    simp only [extendAidPackageExpiry, hconfig, Task.bind_eq, Task.done_error_bind]
  · have hargs : extendExpiryArgs sdk packageId newExpiresAt = .error e := by
      rw [extendExpiryArgs, hid]
      rfl
    refine ⟨e, ?_⟩
    simp only [extendAidPackageExpiry, hconfig, hget, hargs, Task.attempt, Task.bind_eq,
      Task.done_ok_bind, Task.done_error_bind]
  · cases hargs : extendExpiryArgs sdk packageId newExpiresAt with
    | error e =>
      refine ⟨e, ?_⟩
      simp only [extendAidPackageExpiry, hconfig, hget, hargs, Task.attempt, Task.bind_eq,
        Task.done_ok_bind, Task.done_error_bind]
    | ok args =>
      refine ⟨e, ?_⟩
      simp only [extendAidPackageExpiry, submitContractOp, hconfig, hget, hargs, hopen, Task.attempt,
        Task.bind_eq, Task.done_ok_bind, Task.done_error_bind]

theorem ignore_error {α : Type} {t : RpcHandler α} (h : ∃ e, t = .done (.error e)) : ∃ e, ignore t = .done (.error e) := by
  obtain ⟨e, rfl⟩ := h
  exact ⟨e, rfl⟩

theorem refused_run (h : op.Refused sdk config) : (∃ e, op.run sdk config = .done (.error e)) ∨
      ∃ e : Time → String, op.run sdk config = .ask .clock fun now => .done (.error (e now)) := by
  cases op with
  | createAidPackage params => exact .inl (ignore_error (refused_createAidPackage h))
  | claimAidPackage packageId => exact .inl (ignore_error (refused_submitForPackage rfl h))
  | disburseAidPackage packageId | disburse params => exact .inl (ignore_error (refused_submitForPackage rfl h))
  | getAidPackage packageId => exact .inl (ignore_error (refused_getAidPackage rfl h))
  | extendAidPackageExpiry packageId newExpiresAt =>
    exact .inl (ignore_error (refused_extendAidPackageExpiry h))
  | createClaim params =>
    right
    have hnow : ∀ now, ∃ e, createAidPackage sdk config (params.toAidPackage now) = .done (.error e) :=
      fun now => refused_createAidPackage fun _ => h now
    choose e he using hnow
    refine ⟨e, ?_⟩
    simp only [PackageOp.run, ignore, createClaim, clock, Task.bind_eq, he]
    rfl

variable {α : Type}
section Records
variable {network : Network} {β : Type} {q : Query RpcQuery}

theorem mem_alone_of_mem : ∀ (t : RpcHandler α) (asked : List (Query RpcQuery)), q ∈ asked →
    q ∈ (t.alone network.serve asked).2
  | .done _, _, h => h
  | .ask _ next, _, h => mem_alone_of_mem (next _) _ (List.mem_append_left _ h)

theorem mem_alone_bind {f : α → RpcHandler β} : ∀ {t : RpcHandler α} {asked : List (Query RpcQuery)},
    q ∈ (t.alone network.serve asked).2 → q ∈ ((t.bind f).alone network.serve asked).2
  | .done (.ok a), asked, h => mem_alone_of_mem (f a) asked h
  | .done (.error _), _, h => h
  | .ask q' next, asked, h => mem_alone_bind (t := next (network asked q')) h

theorem mem_alone_attempt : ∀ {t : RpcHandler α} {asked : List (Query RpcQuery)}, q ∈ (t.alone network.serve asked).2 →
      q ∈ ((t.attempt : RpcHandler (Except String α)).alone network.serve asked).2
  | .done _, _, h => h
  | .ask q' next, asked, h => mem_alone_attempt (t := next (network asked q')) h

theorem alone_asks {P : Query RpcQuery → Prop} : ∀ {t : RpcHandler α} {asked : List (Query RpcQuery)},
    t.Asks P → (∀ q ∈ asked, P q) → ∀ q ∈ (t.alone network.serve asked).2, P q
  | .done _, _, _, hasked => hasked
  | .ask q' next, asked, h, hasked => by
    refine alone_asks (t := next (network asked q')) (h.2 _) fun q hq => ?_
    rcases List.mem_append.mp hq with hq | hq
    · exact hasked q hq
    · rw [List.mem_singleton.mp hq]
      exact h.1

end Records
variable {args : List ScVal}
section Arguments
variable {scv : ScVal}

/-- The contract call that is asked for, if one is, has `scv` for its package. -/
def Names (scv : ScVal) (q : Query RpcQuery) : Prop :=
  ∀ call, contractCall q = some call → call.packageArg = some scv

variable {fn : RpcHandler α} {tx : PreparedTransaction} {method : String} {params : CreateAidPackageParams}

theorem asks_retryFrom {P : Query RpcQuery → Prop} (hclock : P .clock)
    (hsleep : ∀ t, P (.sleepUntil t)) (hfn : fn.Asks P) (config : RetryConfig) :
    ∀ attempt left : ℕ, (retryFrom config fn attempt left).Asks P
  | _, 0 => hfn
  | attempt, left + 1 => by
    refine Task.Asks.bind (fun result => ?_) hfn.attempt
    cases result with
    | ok a => trivial
    | error e => exact ⟨hclock, fun now => ⟨hsleep _, fun _ => asks_retryFrom hclock hsleep hfn config _ left⟩⟩

theorem asks_withRetryTimeout (hfn : fn.Asks (Names scv))
    (config : RetryConfig) : (withRetryTimeout fn config).Asks (Names scv) :=
  asks_retryFrom (fun _ => nofun) (fun _ _ => nofun) hfn config 0 config.maxRetries

theorem asks_now : (clock : RpcHandler Time).Asks (Names scv) := ⟨fun _ => nofun, fun _ => trivial⟩

theorem asks_getAccount (publicKey : String) : (getAccount publicKey).Asks (Names scv) :=
  ⟨fun _ => nofun, fun _ => trivial⟩

theorem asks_simulateTransaction {tx : BuiltTransaction} (hcall : tx.call.packageArg = some scv) :
    (simulateTransaction tx).Asks (Names scv) := by
  refine ⟨fun call h => ?_, fun _ => trivial⟩
  cases h
  exact hcall

theorem asks_sendTransaction (hcall : tx.built.call.packageArg = some scv) : (sendTransaction tx).Asks (Names scv) := by
  refine ⟨fun call h => ?_, fun _ => trivial⟩
  cases h
  exact hcall

theorem asks_pollTransaction (hash : String) : (pollTransaction hash).Asks (Names scv) := by
  refine ⟨fun _ => nofun, fun reply => ?_⟩
  refine Task.Asks.bind (fun receipt => ?_) (Task.asks_done reply)
  cases receipt <;> trivial

/-- Every contract call has `scv` for its package. -/
def naming (scv : ScVal) : Protocol (Query RpcQuery) (Query.Reply RpcQuery.Reply) Unit where
  allowed _ := Names scv
  next _ _ _ := ()

theorem follows_naming {t : RpcHandler α} (h : t.Asks (Names scv)) :
    t.Follows (naming scv) (fun _ _ => True) () :=
  (h.follows (fun _ hq => hq) fun _ _ _ => rfl).mono fun _ _ _ => trivial

theorem follows_buildAndSimulate {call : ContractCall} (hcall : call.packageArg = some scv)
    (noMessage publicKey : String) : (buildAndSimulate noMessage publicKey call).Follows (naming scv)
      (fun _ result => ∀ built, result = .ok built → built.1.call = call) () := by
  refine Task.Follows.bind (fun _ sequence _ => ?_) (fun _ e _ built h => by cases h)
    (follows_naming (asks_withRetryTimeout (asks_getAccount publicKey) {}))
  refine Task.Follows.bind (fun _ now _ => ?_) (fun _ e _ built h => by cases h) (follows_naming asks_now)
  refine Task.Follows.bind (fun _ simulation _ => ?_) (fun _ e _ built h => by cases h)
    (follows_naming (asks_withRetryTimeout (asks_simulateTransaction ?_) {}))
  · cases simulation with
    | failed error => exact fun built h => by cases h
    | succeeded retval resources =>
      intro built h
      cases h
      rfl
  · exact hcall

theorem asks_sendPrepared (hcall : tx.built.call.packageArg = some scv) : (sendPrepared tx).Asks (Names scv) := by
  refine Task.Asks.bind (fun sent => ?_) (asks_withRetryTimeout (asks_sendTransaction hcall) {})
  refine Task.asks_ite (fun _ => ?_) fun _ => trivial
  refine Task.Asks.bind (fun receipt => ?_)
    (asks_withRetryTimeout (asks_pollTransaction sent.hash.toUpper) { maxRetries := 10 })
  cases receipt <;> trivial

theorem asks_submitContractOp (hcall : ContractCall.packageArg ⟨config.contractId, method, args⟩ = some scv) :
    (submitContractOp sdk config method args).Asks (Names scv) := by
  refine Task.Asks.bind (fun publicKey => ?_) (Task.asks_done _)
  refine (show Task.Follows (naming scv) (fun _ _ => True) () _ from ?_).asks fun _ _ h => h
  refine Task.Follows.bind (fun _ built hbuilt => ?_) (fun _ _ _ => trivial) (follows_buildAndSimulate hcall _ publicKey)
  have hsend : built.1.call.packageArg = some scv := by
    rw [hbuilt built rfl]
    exact hcall
  exact follows_naming (asks_sendPrepared hsend)

theorem asks_simulateReadOnly (hcall : ContractCall.packageArg ⟨config.contractId, method, args⟩ = some scv) :
    (simulateReadOnly sdk config method args).Asks (Names scv) := by
  refine Task.Asks.bind (fun publicKey => ?_) (Task.asks_done _)
  refine Task.Asks.bind_done ?_
  exact (follows_buildAndSimulate hcall _ publicKey).asks fun _ _ h => h

theorem packageArg_of_createArgs (hargs : createAidPackageArgs sdk params = .ok args)
    (hscv : scvPackageId sdk params.packageId = .ok scv) :
    ContractCall.packageArg ⟨config.contractId, "create_package", args⟩ = some scv := by
  simp only [createAidPackageArgs, bind_eq_ok, pure_eq_ok] at hargs
  obtain ⟨metadata, -, operator, -, id, hid, recipient, -, amount, -, token, -, expiresAt, -, rfl⟩ := hargs
  rw [hscv] at hid
  cases hid
  rfl

theorem packageArg_of_first (hmethod : method ≠ "create_package") (rest : List ScVal) :
    ContractCall.packageArg ⟨config.contractId, method, scv :: rest⟩ = some scv := by
  rw [ContractCall.packageArg, if_neg hmethod]
  rfl

theorem asks_createAidPackage (hscv : ∀ scv', scvPackageId sdk params.packageId = .ok scv' → scv' = scv) :
    (createAidPackage sdk config params).Asks (Names scv) := by
  refine Task.Asks.bind (fun _ => ?_) (Task.asks_done _)
  cases hargs : createAidPackageArgs sdk params with
  | error e => trivial
  | ok args =>
    refine Task.Asks.bind_done (asks_submitContractOp (packageArg_of_createArgs hargs ?_))
    have hok := hargs
    simp only [createAidPackageArgs, bind_eq_ok] at hok
    obtain ⟨metadata, -, operator, -, id, hid, -⟩ := hok
    rw [hid, hscv id hid]

theorem asks_submitForPackage (hmethod : method ≠ "create_package")
    (hscv : ∀ scv', scvPackageId sdk packageId = .ok scv' → scv' = scv) :
    (submitForPackage sdk config method packageId).Asks (Names scv) := by
  refine Task.Asks.bind (fun _ => ?_) (Task.asks_done _)
  cases hid : scvPackageId sdk packageId with
  | error e => trivial
  | ok id =>
    rw [hscv id hid]
    exact Task.Asks.bind_done (asks_submitContractOp (packageArg_of_first hmethod []))

theorem asks_getAidPackage (hscv : ∀ scv', scvPackageId sdk packageId = .ok scv' → scv' = scv) :
    (getAidPackage sdk config packageId).Asks (Names scv) := by
  refine Task.Asks.bind (fun _ => ?_) (Task.asks_done _)
  cases hid : scvPackageId sdk packageId with
  | error e => trivial
  | ok id =>
    rw [hscv id hid]
    exact Task.Asks.bind_done (asks_simulateReadOnly (packageArg_of_first (by decide) []))

theorem asks_extendAidPackageExpiry {newExpiresAt : JsNumber}
    (hscv : ∀ scv', scvPackageId sdk packageId = .ok scv' → scv' = scv) :
    (extendAidPackageExpiry sdk config packageId newExpiresAt).Asks (Names scv) := by
  refine Task.Asks.bind (fun _ => ?_) (Task.asks_done _)
  refine Task.Asks.bind (fun current => ?_) (asks_getAidPackage hscv).attempt
  cases hargs : extendExpiryArgs sdk packageId newExpiresAt with
  | error e => trivial
  | ok args =>
    simp only [extendExpiryArgs, bind_eq_ok, pure_eq_ok] at hargs
    obtain ⟨id, hid, expiresAt, -, rfl⟩ := hargs
    rw [hscv id hid]
    exact Task.Asks.bind_done (asks_submitContractOp (packageArg_of_first (by decide) [expiresAt]))

theorem asks_run {op : PackageOp} (hscv : ∀ scv', scvPackageId sdk op.packageId = .ok scv' → scv' = scv) :
    (op.run sdk config).Asks (Names scv) := by
  cases op with
  | createAidPackage params => exact Task.Asks.bind_done (asks_createAidPackage hscv)
  | claimAidPackage packageId => exact Task.Asks.bind_done (asks_submitForPackage (by decide) hscv)
  | disburseAidPackage packageId | disburse params => exact Task.Asks.bind_done (asks_submitForPackage (by decide) hscv)
  | getAidPackage packageId => exact Task.Asks.bind_done (asks_getAidPackage hscv)
  | extendAidPackageExpiry packageId newExpiresAt =>
    exact Task.Asks.bind_done (asks_extendAidPackageExpiry hscv)
  | createClaim params =>
    refine Task.Asks.bind_done (Task.Asks.bind (fun now => ?_) asks_now)
    exact asks_createAidPackage hscv

end Arguments
section Reached
variable {publicKey : String} {call : ContractCall}

/-- A network on which the account is found, at the time `now`, and each simulation fails. -/
def simulationFails (now : Time) : Network := fun _ q =>
  match q with
  | .clock => now
  | .chain (.getAccount _) => .ok 0
  | .chain (.simulateTransaction _) => .ok (.failed none)
  | .chain (.sendTransaction _) => .error "network"
  | .chain (.getTransaction _) => .error "network"
  | .elapse _ => ()
  | .sleepUntil _ => ()
  | .addJob _ => ()
  | .findUnique _ => none
  | .updateTransactionStatus .. => .ok ()
  | .confirm .. => .ok ()
  | .recordError .. => .ok ()
  | .resetForRetry .. => .ok ()
  | .findRetryable _ => []
  | .findStuck _ => []
  | .expire .. => (0 : ℕ)
  | .takeJob _ => none

def firstTransaction (publicKey : String) (call : ContractCall) (now : Time) : BuiltTransaction :=
  { source := publicKey, sequence := 1, call := call, maxTime := now / 1000 + validitySeconds }

variable {id : ScVal}

theorem simulates (noMessage : String) (asked : List (Query RpcQuery)) :
    .chain (.simulateTransaction (firstTransaction publicKey call now)) ∈
      ((buildAndSimulate noMessage publicKey call).alone (simulationFails now).serve asked).2 := by
  have hasked : ((buildAndSimulate noMessage publicKey call).alone (simulationFails now).serve asked).2 =
      asked ++ [.chain (.getAccount publicKey)] ++ [.clock] ++
        [.chain (.simulateTransaction (firstTransaction publicKey call now))] := rfl
  rw [hasked]
  exact List.mem_append_right _ (List.mem_singleton_self _)

theorem firstCall_ok (h : op.firstCall sdk config now = .ok (publicKey, call)) :
    config.ensureConfigured = .ok () ∧ ∃ args, op.firstArgs sdk now = .ok args ∧
      openContract sdk config config.contractId = .ok publicKey ∧
        call = ⟨config.contractId, op.firstMethod, args⟩ := by
  simp only [PackageOp.firstCall, bind_eq_ok, pure_eq_ok, Prod.mk.injEq] at h
  obtain ⟨_, hconfig, args, hargs, key, hopen, rfl, rfl⟩ := h
  exact ⟨hconfig, args, hargs, hopen, rfl⟩

theorem onlyId_ok (h : (do let id ← scvPackageId sdk packageId; return [id]) = .ok args) :
    ∃ id, scvPackageId sdk packageId = .ok id ∧ args = [id] := by
  simp only [bind_eq_ok, pure_eq_ok] at h
  obtain ⟨id, hid, rfl⟩ := h
  exact ⟨id, hid, rfl⟩

theorem simulates_submit (hopen : openContract sdk config config.contractId = .ok publicKey)
    (method : String) (args : List ScVal) (asked : List (Query RpcQuery)) :
    .chain (.simulateTransaction (firstTransaction publicKey ⟨config.contractId, method, args⟩ now)) ∈
      ((submitContractOp sdk config method args).alone (simulationFails now).serve asked).2 := by
  simp only [submitContractOp, hopen, Task.bind_eq, Task.done_ok_bind]
  exact mem_alone_bind (simulates _ asked)

theorem simulates_createAidPackage {params : CreateAidPackageParams}
    (hconfig : config.ensureConfigured = .ok ()) (hargs : createAidPackageArgs sdk params = .ok args)
    (hopen : openContract sdk config config.contractId = .ok publicKey) (asked : List (Query RpcQuery)) :
    .chain (.simulateTransaction (firstTransaction publicKey ⟨config.contractId, "create_package", args⟩ now)) ∈
      ((createAidPackage sdk config params).alone (simulationFails now).serve asked).2 := by
  simp only [createAidPackage, hconfig, hargs, Task.bind_eq, Task.done_ok_bind]
  exact mem_alone_bind (simulates_submit hopen _ args asked)

theorem simulates_submitForPackage {method : String}
    (hconfig : config.ensureConfigured = .ok ()) (hid : scvPackageId sdk packageId = .ok id)
    (hopen : openContract sdk config config.contractId = .ok publicKey) :
    .chain (.simulateTransaction (firstTransaction publicKey ⟨config.contractId, method, [id]⟩ now)) ∈
      ((submitForPackage sdk config method packageId).alone (simulationFails now).serve []).2 := by
  simp only [submitForPackage, hconfig, hid, Task.bind_eq, Task.done_ok_bind]
  exact mem_alone_bind (simulates_submit hopen _ [id] [])

theorem simulates_getAidPackage (hconfig : config.ensureConfigured = .ok ()) (hid : scvPackageId sdk packageId = .ok id)
    (hopen : openContract sdk config config.contractId = .ok publicKey) : .chain (.simulateTransaction
        (firstTransaction publicKey ⟨config.contractId, "get_package", [id]⟩ now)) ∈
      ((getAidPackage sdk config packageId).alone (simulationFails now).serve []).2 := by
  simp only [getAidPackage, simulateReadOnly, hconfig, hid, hopen, Task.bind_eq, Task.done_ok_bind]
  exact mem_alone_bind (mem_alone_bind (simulates _ []))

/-- The first call of an operation that is not refused is simulated when the account is found. -/
theorem simulates_first (h : op.firstCall sdk config now = .ok (publicKey, call)) :
    .chain (.simulateTransaction (firstTransaction publicKey call now)) ∈
      (observe (simulationFails now) (op.run sdk config)).2 := by
  obtain ⟨hconfig, args, hargs, hopen, rfl⟩ := firstCall_ok h
  cases op with
  | createAidPackage params => exact mem_alone_bind (simulates_createAidPackage hconfig hargs hopen [])
  | claimAidPackage packageId =>
    obtain ⟨id, hid, rfl⟩ := onlyId_ok hargs
    exact mem_alone_bind (simulates_submitForPackage hconfig hid hopen)
  | disburseAidPackage packageId =>
    obtain ⟨id, hid, rfl⟩ := onlyId_ok hargs
    exact mem_alone_bind (simulates_submitForPackage hconfig hid hopen)
  | disburse params =>
    obtain ⟨id, hid, rfl⟩ := onlyId_ok hargs
    exact mem_alone_bind (simulates_submitForPackage hconfig hid hopen)
  | getAidPackage packageId =>
    obtain ⟨id, hid, rfl⟩ := onlyId_ok hargs
    exact mem_alone_bind (simulates_getAidPackage hconfig hid hopen)
  | extendAidPackageExpiry packageId newExpiresAt =>
    obtain ⟨id, hid, rfl⟩ := onlyId_ok hargs
    refine mem_alone_bind ?_
    simp only [extendAidPackageExpiry, hconfig, Task.bind_eq, Task.done_ok_bind]
    exact mem_alone_bind (mem_alone_attempt (simulates_getAidPackage hconfig hid hopen))
  | createClaim params =>
    have hargs : createAidPackageArgs sdk (params.toAidPackage now) = .ok args := hargs
    exact mem_alone_bind (simulates_createAidPackage hconfig hargs hopen [.clock])

theorem packageArg_of_firstCall (h : op.firstCall sdk config now = .ok (publicKey, call)) :
    ∃ scv, scvPackageId sdk op.packageId = .ok scv ∧ call.packageArg = some scv := by
  obtain ⟨-, args, hargs, -, rfl⟩ := firstCall_ok h
  have hcreate : ∀ params : CreateAidPackageParams, createAidPackageArgs sdk params = .ok args →
      ∃ scv, scvPackageId sdk params.packageId = .ok scv ∧
        ContractCall.packageArg ⟨config.contractId, "create_package", args⟩ = some scv := by
    intro params hok
    have hargs := hok
    simp only [createAidPackageArgs, bind_eq_ok] at hok
    obtain ⟨metadata, -, operator, -, id, hid, -⟩ := hok
    exact ⟨id, hid, packageArg_of_createArgs hargs hid⟩
  have hfirst : ∀ {packageId : String} (method : String), method ≠ "create_package" →
      (do let id ← scvPackageId sdk packageId; return [id]) = .ok args →
      ∃ scv, scvPackageId sdk packageId = .ok scv ∧
        ContractCall.packageArg ⟨config.contractId, method, args⟩ = some scv := by
    intro packageId method hmethod hargs
    obtain ⟨id, hid, rfl⟩ := onlyId_ok hargs
    exact ⟨id, hid, packageArg_of_first hmethod []⟩
  cases op with
  | createAidPackage params => exact hcreate params hargs
  | createClaim params => exact hcreate (params.toAidPackage now) hargs
  | claimAidPackage packageId => exact hfirst "claim" (by decide) hargs
  | disburseAidPackage packageId | disburse params => exact hfirst "disburse" (by decide) hargs
  | extendAidPackageExpiry packageId newExpiresAt => exact hfirst "get_package" (by decide) hargs
  | getAidPackage packageId => exact hfirst "get_package" (by decide) hargs

theorem scvPackageId_of_denotes (hsdk : sdk.Exact) {s : String} {v : ℕ} (h : Denotes s v) {scv : ScVal}
    (hscv : scvPackageId sdk s = .ok scv) : scv = .u64 (round numberBits v) := by
  rw [scvPackageId, parseInt_of_denotes h] at hscv
  exact ((hsdk.u64_int _ _).mp hscv).2.2

end Reached

def sampleSdk : Sdk where
  u64 n :=
    match n with
    | .nan => .error "RangeError"
    | .int z => if 0 ≤ z ∧ z < 2 ^ 64 then .ok (.u64 z.toNat) else .error "RangeError"
  i128 _ := .ok (.i128 0)
  address text := .ok (.address text)
  map entries := .ok (.map entries)
  publicKey secret := .ok secret
  contract _ := .ok ()
  server _ := .ok ()

theorem sampleSdk_exact : sampleSdk.Exact where
  u64_int z scv := by
    change (if 0 ≤ z ∧ z < 2 ^ 64 then Except.ok (ScVal.u64 z.toNat) else .error "RangeError") = .ok scv ↔ _
    split
    · rename_i h
      rw [Except.ok.injEq]
      exact ⟨fun heq => ⟨h.1, h.2, heq.symm⟩, fun heq => heq.2.2.symm⟩
    · rename_i h
      exact ⟨nofun, fun heq => absurd ⟨heq.1, heq.2.1⟩ h⟩
  u64_nan _ := nofun

def sampleConfig : AdapterConfig where
  contractId := "CAAAAAAAAAAAAAAAAAAAAAAAAAAAAAAAAAAAAAAAAAAAAAAAAAAAAAAA"
  network := "testnet"
  rpcUrl := "https://soroban-testnet.stellar.org"
  networkPassphrase := "Test SDF Network ; September 2015"
  adminSecretKey := "S"

end Soter.Soroban
