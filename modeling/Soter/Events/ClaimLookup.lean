import Soter.Claims.Onchain
import Soter.Events.ExactlyOnce

/-! What `ClaimsService.getPackageIdForClaim` finds among the rows that the correlation of events left. -/
namespace Soter.Events
open Soter.Tasks Soter.Runs Soter.Json Soter.Claims Task.Asks

/-- `findFirst` by the claim and the topic, the latest row first. -/
def findPackageCreated (rows : List CorrelationRow) (claimId : String) : Option CorrelationRow :=
  (rows.filter fun row => row.claimId = some claimId ∧ row.eventTopic = "package_created").getLast?

/-- What `getPackageIdForClaim` reads. -/
def correlatedPackage (rows : List CorrelationRow) (claimId : String) : Option String :=
  (findPackageCreated rows claimId).bind (·.packageId)

inductive Within : Payload → Payload → Prop
  | here (v : Payload) : Within v v
  | member {v w : Payload} {key : Text} {members : List (Text × Payload)} (hmem : (key, w) ∈ members)
      (h : Within v w) : Within v (.obj members)
  | item {v w : Payload} {items : List Payload} (hmem : w ∈ items) (h : Within v w) :
      Within v (.arr items)

def OccursIn (identifier : String) (payload : Payload) : Prop :=
  Within (.str identifier.toList) payload ∨ Within (.num identifier) payload

theorem within_of_getNestedValue {v : Payload} :
    ∀ {path : List String} {payload : Payload}, getNestedValue payload path = some v → Within v payload
  | [], payload, h => by
    cases h
    exact .here _
  | key :: path, payload, h => by
    rw [getNestedValue, List.foldlM_cons] at h
    obtain ⟨w, hw, hrest⟩ := Option.bind_eq_some_iff.mp h
    cases payload with
    | obj members => exact .member (mem_of_lookup hw) (within_of_getNestedValue hrest)
    | _ => cases hw

theorem occursIn_of_firstScalar {payload : Payload} {paths : List (List String)} {identifier : String}
    (h : firstScalar payload paths = some identifier) : OccursIn identifier payload := by
  obtain ⟨path, -, hpath⟩ := List.exists_of_findSome?_eq_some h
  split at hpath
  · rename_i text hvalue
    cases hpath
    left
    rw [String.toList_ofList]
    exact within_of_getNestedValue hvalue
  · rename_i number hvalue
    cases hpath
    exact .inr (within_of_getNestedValue hvalue)
  · cases hpath

theorem occursIn_of_packageId {event : SorobanEvent} {packageId : String}
    (h : (extractIdentifiers event).packageId = some packageId) : OccursIn packageId event.payload := by
  rw [extractIdentifiers] at h
  split at h
  · rename_i found hfound
    cases h
    exact occursIn_of_firstScalar (Option.filter_eq_some_iff.mp hfound).1
  · cases h

theorem occursIn_of_claimId {event : SorobanEvent} {claimId : String}
    (h : (extractIdentifiers event).claimId = some claimId) : OccursIn claimId event.payload := by
  rw [extractIdentifiers] at h
  split at h
  · cases h
  · exact occursIn_of_firstScalar (Option.filter_eq_some_iff.mp h).1

section Rows
variable {s : Store} {row : CorrelationRow}

def CorrelationRow.Mapped (row : CorrelationRow) : Prop :=
  ∃ event source, row = SorobanEvent.row event source

theorem extractIdentifiers_exclusive (event : SorobanEvent) :
    (extractIdentifiers event).claimId = none ∨ (extractIdentifiers event).packageId = none := by
  rw [extractIdentifiers]
  split
  · exact .inl rfl
  · exact .inr rfl

theorem CorrelationRow.Mapped.exclusive (h : row.Mapped) : row.claimId = none ∨ row.packageId = none := by
  obtain ⟨event, source, rfl⟩ := h
  exact extractIdentifiers_exclusive event

def AsksMapped : Query → Prop
  | .create row => row.Mapped
  | _ => True

theorem asksMapped_correlateSingleEvent (event : SorobanEvent) (source : CorrelationSource) :
    (correlateSingleEvent event source).Asks AsksMapped := by
  apply Task.Asks.bind
  · intro found
    cases found with
    | some row => trivial
    | none =>
      have hcreate : ((.ask (.create (event.row source)) fun reply => .done reply) : Handler Unit).Asks
          AsksMapped := ⟨⟨event, source, rfl⟩, fun _ => trivial⟩
      refine bind (fun _ => ?_) hcreate
      exact Task.asks_done _
  · exact ⟨trivial, fun _ => trivial⟩

theorem asksMapped_processEvents (source : CorrelationSource) :
    ∀ (events : List SorobanEvent) (result : EventCorrelationResult), (processEvents source result events).Asks AsksMapped
  | [], _ => trivial
  | event :: rest, result => by
    apply Task.Asks.bind
    · intro caught
      cases caught with
      | ok detail | error errorMessage => exact asksMapped_processEvents source rest _
    · exact attempt (asksMapped_correlateSingleEvent event source)

theorem asks_withRetry {α : Type} {P : Query → Prop} {fn : Handler α} (hfn : fn.Asks P) :
    ∀ retries : ℕ, (withRetry fn retries).Asks P
  | 0 => hfn
  | retries + 1 => by
    apply Task.Asks.bind
    · intro caught
      cases caught with
      | ok a => trivial
      | error e => exact asks_withRetry hfn retries
    · exact attempt hfn

theorem asksMapped_getEvents (contractId : String) (range : Option LedgerRange) :
    (getEvents contractId range).Asks AsksMapped :=
  ⟨trivial, fun _ => trivial⟩

theorem asksMapped_getTransaction (txHash : String) : (getTransaction txHash).Asks AsksMapped :=
  ⟨trivial, fun _ => trivial⟩

theorem asksMapped_body (configured : String) (op : CorrelationOp) : (op.body configured).Asks AsksMapped := by
  cases op with
  | correlateEvents data =>
    apply Task.Asks.bind
    · exact fun events => asksMapped_processEvents data.correlationSource _ _
    · apply Task.Asks.bind
      · exact fun response => trivial
      · exact asks_withRetry (asksMapped_getEvents _ _) 3
  | correlateTransaction txHash source =>
    apply Task.Asks.bind
    · intro result
      exact Task.asks_ite (fun _ => trivial) fun _ => asksMapped_processEvents source _ _
    · exact asks_withRetry (asksMapped_getTransaction txHash) 3
  | foresee weather => exact ⟨trivial, fun _ => trivial⟩

theorem mapped_perform {q : Query} (hq : AsksMapped q) (h : ∀ row ∈ s.rows, row.Mapped) :
    ∀ row ∈ (perform q s).2.rows, row.Mapped := by
  cases q with
  | create row =>
    refine commit_keeps (P := fun s' : Store => ∀ row ∈ s'.rows, row.Mapped) h fun u s' hs' => ?_
    cases hcreate : s.createRow row with
    | error e =>
      rw [hcreate] at hs'
      cases hs'
    | ok s'' =>
      rw [hcreate] at hs'
      cases hs'
      rw [(createRow_eq_ok hcreate).1]
      intro row' hrow'
      rcases List.mem_append.mp hrow' with hold | hnew
      · exact h row' hold
      · rw [List.mem_singleton.mp hnew]
        exact hq
  | _ => exact h

theorem mapped_of_run {configured : String} {s₀ : Store} {tr : List CorrelationTransition}
    {p : CorrelationPool} (hrows : s₀.rows = [])
    (hrun : Run (CorrelationStep configured) { store := s₀ } tr p) : ∀ row ∈ p.store.rows, row.Mapped := by
  refine Pool.run_invariant (I := fun s : Store => ∀ row ∈ s.rows, row.Mapped)
    (C := fun q _ => AsksMapped q) hrun ?_ ?_ fun q s hq h => mapped_perform hq h
  · rw [hrows]
    exact fun _ hrow => absurd hrow List.not_mem_nil
  · intro t ht q hq
    obtain ⟨op, hop⟩ := Pool.request_of_asked hq
    exact Pool.asks_of_run (asksMapped_body configured) hrun ht hop

end Rows
section Exact
variable {services : Services} {rows : List CorrelationRow} {claimId : String}

/-- A correlated `package_created` event carries both identifiers, and no other correlated event names
the claim with another package. -/
structure Names (rows : List CorrelationRow) (claimId packageId : String) : Prop where
  carried : ∃ row ∈ rows, row.eventTopic = "package_created" ∧
    extractPackageId row.payload = some packageId ∧ extractClaimId row.payload = some claimId
  unambiguous : ∀ row ∈ rows, extractClaimId row.payload = some claimId →
    ∀ other, extractPackageId row.payload = some other → other = packageId

def CreatesFor (packageId : Option String) : OnchainQuery → Prop
  | .createTransaction _ params _ => params.packageId = packageId
  | _ => True

structure LookupExact (services : Services) (rows : List CorrelationRow) (claimId : String) : Prop where
  finds : ∀ packageId, Names rows claimId packageId →
    ∀ id ctx, ctx.packageId = correlatedPackage rows claimId →
      getPackageIdForClaim id ctx = .ok packageId
  /-- A disbursement uses the package that is found, or none. -/
  noFallback : ∀ id receiptPointer ctx, ctx.packageId = correlatedPackage rows claimId →
    (onchainDisburse services id receiptPointer ctx).Asks (CreatesFor (correlatedPackage rows claimId))
  occur : ∀ event : SorobanEvent,
    (∀ packageId, (extractIdentifiers event).packageId = some packageId →
      OccursIn packageId event.payload) ∧
    ∀ claimId, (extractIdentifiers event).claimId = some claimId → OccursIn claimId event.payload

theorem correlatedPackage_eq_none (hrows : ∀ row ∈ rows, row.Mapped) :
    correlatedPackage rows claimId = none := by
  rw [correlatedPackage, Option.bind_eq_none_iff]
  intro row hrow
  have hmem := List.mem_of_getLast? hrow
  obtain ⟨hstored, hfound⟩ := List.mem_filter.mp hmem
  have hclaim : row.claimId = some claimId := (of_decide_eq_true hfound).1
  rcases (hrows row hstored).exclusive with hnone | hnone
  · rw [hclaim] at hnone
    cases hnone
  · exact hnone

theorem getPackageIdForClaim_eq_ok {id : ClaimId} {ctx : OnchainContext} {packageId : String}
    (h : getPackageIdForClaim id ctx = .ok packageId) : ctx.packageId = some packageId := by
  rw [getPackageIdForClaim] at h
  cases hfilter : ctx.packageId.filter (· ≠ "") with
  | none =>
    rw [hfilter] at h
    cases h
  | some found =>
    rw [hfilter] at h
    cases h
    exact (Option.filter_eq_some_iff.mp hfilter).1

theorem createsFor_onClaims {α : Type} {packageId : Option String} :
    ∀ t : Claims.Handler α, (onClaims t).Asks (CreatesFor packageId)
  | .done _ => trivial
  | .ask _ next => ⟨trivial, fun reply => createsFor_onClaims (next reply)⟩

theorem createsFor_createDisbursement {id : ClaimId} {receiptPointer : Option String}
    {ctx : OnchainContext} {claim : Claim} :
    (createDisbursement services id receiptPointer ctx claim).Asks (CreatesFor ctx.packageId) := by
  refine done_bind fun packageId hpackage => ?_
  refine bind (fun recipientAddress => ?_) (Task.asks_done _)
  have hcreate : ((.ask (.createTransaction ctx.transactionId
      (disbursementParams services id receiptPointer ctx claim packageId recipientAddress) ctx.now)
      fun result => .done result) : OnchainHandler Soroban.TransactionId).Asks (CreatesFor ctx.packageId) :=
    ⟨(getPackageIdForClaim_eq_ok hpackage).symm, fun _ => trivial⟩
  have hschedule (transactionId : Soroban.TransactionId) : ((.ask (.scheduleTransaction
      { transactionId, correlationId := ctx.traceId, priority := 1 } ctx.queue)
      fun result => .done result) : OnchainHandler Unit).Asks (CreatesFor ctx.packageId) :=
    ⟨trivial, fun _ => trivial⟩
  refine bind (fun transactionId => ?_) hcreate
  exact bind (fun _ => Task.asks_done _) (hschedule transactionId)

theorem createsFor_onchainDisburse (id : ClaimId) (receiptPointer : Option String) (ctx : OnchainContext) :
    (onchainDisburse services id receiptPointer ctx).Asks (CreatesFor ctx.packageId) := by
  have hrest (claim : Claim) :
      (disburseApproved services id receiptPointer ctx claim).Asks (CreatesFor ctx.packageId) := by
    refine bind (fun _ => createsFor_onClaims _) ?_
    exact attempt createsFor_createDisbursement
  refine bind (fun found => ?_) (createsFor_onClaims _)
  refine bind (fun claim => ?_) (Task.asks_done _)
  refine bind (fun _ => ?_) (Task.asks_done _)
  cases receiptPointer.filter (· ≠ "") with
  | none => exact hrest claim
  | some pointer => exact bind (fun _ => hrest claim) (createsFor_onClaims _)

variable {configured : String} {s₀ : Store} {tr : List CorrelationTransition} {p : CorrelationPool}

/-- In every run, whatever the payloads: a disbursement uses no other package than the one that is
found, and the identifiers are ones of the payload; but as no row has both identifiers, the package of a
claim is found only if there is no event that names it. -/
theorem claim_lookup_iff (hrows : s₀.rows = [])
    (hrun : Run (CorrelationStep configured) { store := s₀ } tr p) :
    LookupExact services p.store.rows claimId ↔ ¬ ∃ packageId, Names p.store.rows claimId packageId := by
  have hnone : correlatedPackage p.store.rows claimId = none :=
    correlatedPackage_eq_none (mapped_of_run hrows hrun)
  constructor
  · rintro ⟨hfinds, -, -⟩ ⟨packageId, hnames⟩
    let ctx : OnchainContext :=
      { packageId := none, tokenAddress := none, traceId := "", transactionId := 0, now := 0,
        queue := .ok () }
    have hfound : ctx.packageId = some packageId :=
      getPackageIdForClaim_eq_ok (hfinds packageId hnames 0 ctx hnone.symm)
    cases hfound
  · intro hnames
    refine ⟨fun packageId h => absurd ⟨packageId, h⟩ hnames, ?_, ?_⟩
    · intro id receiptPointer ctx hctx
      rw [← hctx]
      exact createsFor_onchainDisburse id receiptPointer ctx
    · intro event
      exact ⟨fun _ => occursIn_of_packageId, fun _ => occursIn_of_claimId⟩

end Exact

def namingEvent : ContractEvent where
  ledger := 7
  txHash := "hash"
  position := 0
  transactionIndex := some 1
  contractId := "C"
  contractHash := "00"
  topic := some "package_created"
  payload := .obj [("package_id".toList, .num "7"), ("claim_id".toList, .str "3".toList)]

theorem namingEvent_stored : (correlationPlayed [namingEvent] fetchedOnce).2.store.rows = [SorobanEvent.row
      { topic := "package_created", payload := namingEvent.payload, txHash := "hash", ledger := 7,
        eventIndex := 1, origin := namingEvent } .scheduled] := by
  rfl

theorem namingEvent_ids :
    extractPackageId namingEvent.payload = some "7" ∧ extractClaimId namingEvent.payload = some "3" := by
  decide

theorem claim_lookup_iff_naming :
    LookupExact plainServices (correlationPlayed [namingEvent] fetchedOnce).2.store.rows "4" := by
  refine (claim_lookup_iff rfl (correlationPlayed_run [namingEvent] fetchedOnce)).mpr ?_
  rintro ⟨packageId, ⟨row, hrow, -, -, hclaim⟩, -⟩
  rw [namingEvent_stored, List.mem_singleton] at hrow
  rw [hrow, SorobanEvent.row, namingEvent_ids.2] at hclaim
  exact absurd hclaim (by decide)

theorem claim_lookup_fails :
    Run (CorrelationStep "C") { store := { events := [namingEvent] } }
        (correlationPlayed [namingEvent] fetchedOnce).1 (correlationPlayed [namingEvent] fetchedOnce).2 ∧
      Names (correlationPlayed [namingEvent] fetchedOnce).2.store.rows "3" "7" ∧
      ∀ id ctx, ctx.packageId =
          correlatedPackage (correlationPlayed [namingEvent] fetchedOnce).2.store.rows "3" →
        getPackageIdForClaim id ctx ≠ .ok "7" := by
  refine ⟨correlationPlayed_run _ _, ?_⟩
  rw [namingEvent_stored]
  refine ⟨⟨⟨_, List.mem_singleton_self _, rfl, namingEvent_ids⟩, ?_⟩, ?_⟩
  · intro row hrow _ other hother
    rw [List.mem_singleton] at hrow
    rw [hrow, SorobanEvent.row, namingEvent_ids.1] at hother
    exact (Option.some.inj hother).symm
  · intro id ctx hctx hfound
    rw [getPackageIdForClaim_eq_ok hfound] at hctx
    cases hctx

end Soter.Events
