import Soter.Lib.Protocol
import Soter.Soroban.Attempts

/-! The stages of the handlers at work on a record, for an adapter that keeps to a protocol of its own,
and the order of requests under which one attempt at a time is at work. -/
namespace Soter.Soroban
open Soter.Tasks Soter.Runs

variable {C E K A : Type} {ChainReply : C → Type}

section Protocols

/-- Where a handler stands: it has marked no record, it has marked the record `id` and its adapter is at
`a`, the record that it took for marked was not there, or all that is to be written is written. -/
inductive Stage (A : Type)
  | idle
  | working (id : String) (a : A)
  | stray (id : String)
  | ended

def Stage.subject : Stage A → Option String
  | .working id _ => some id
  | .idle | .stray _ | .ended => none

def outside (adapter : Protocol C ChainReply A) : Protocol (Query C) (Query.Reply ChainReply) A where
  allowed a q :=
    match q with
    | .clock | .sleepUntil _ => True
    | .chain c => adapter.allowed a c
    | _ => False
  next a q reply :=
    match q with
    | .chain c => adapter.next a c reply
    | _ => a

variable (adapter : Protocol C ChainReply A) (ends : A → Except String String → Prop) (start : A)
  (event : E → C)

def Stage.mayAsk : Stage A → Query C → Prop
  | .idle, .updateTransactionStatus _ status _ => status = .submitted
  | .idle, .confirm .. | .idle, .recordError .. => False
  | .idle, .chain c => ∃ e, c = event e
  | .idle, _ => True
  | .working _ _, .clock | .working _ _, .sleepUntil _ => True
  | .working id _, .findUnique id' => id' = id
  | .working _ a, .chain c => adapter.allowed a c
  | .working id a, .confirm id' txHash _ _ => id' = id ∧ ends a (.ok txHash)
  | .working id a, .recordError id' error => id' = id ∧ ends a (.error error.lastError)
  | .working _ _, _ => False
  | .stray id, q => q = .clock ∨ q = .findUnique id ∨ ∃ error, q = .recordError id error
  | .ended, q => ∃ id, q = .findUnique id

def Stage.after (σ : Stage A) : (q : Query C) → q.Reply ChainReply → Stage A
  | .updateTransactionStatus id _ _, reply =>
    match (reply : Except String Unit) with
    | .ok () => .working id start
    | .error _ => .stray id
  | .chain c, reply =>
    match σ with
    | .working id a => .working id (adapter.next a c reply)
    | _ => σ
  | .confirm id .., reply =>
    match (reply : Except String Unit) with
    | .ok () => .ended
    | .error _ => .stray id
  | .recordError .., _ => .ended
  | _, _ => σ

def lifecycle : Protocol (Query C) (Query.Reply ChainReply) (Stage A) where
  allowed := Stage.mayAsk adapter ends event
  next := Stage.after adapter start

end Protocols
section Follows
variable {adapter : Protocol C ChainReply A} {ends : A → Except String String → Prop} {start : A}
  {event : E → C}

def Idle (event : E → C) : Query C → Prop
  | .updateTransactionStatus .. | .confirm .. | .recordError .. => False
  | .chain c => ∃ e, c = event e
  | _ => True

variable {α : Type} {t : Handler ChainReply α} {a : A}

theorem follows_idle (h : t.Asks (Idle event)) :
    t.Follows (lifecycle adapter ends start event) (fun _ _ => True) .idle := by
  refine (h.follows (fun q hq => ?_) fun q reply hq => ?_).mono fun _ _ _ => trivial
  · cases q <;> first | exact hq | cases hq
  · cases q <;> first | rfl | cases hq

theorem follows_outside {post : A → Except String α → Prop} (id : String) (h : t.Follows (outside adapter) post a) :
    t.Follows (lifecycle adapter ends start event)
      (fun σ result => ∃ a', σ = .working id a' ∧ post a' result) (.working id a) := by
  refine h.embed (f := Stage.working id) (fun a q hq => ?_) fun a q reply hq => ?_
  · cases q <;> first | exact hq | cases hq
  · cases q <;> first | rfl | cases hq

def Marked (start : A) (id : String) (σ : Stage A) : Except String Unit → Prop
  | .ok _ => σ = .working id start
  | .error _ => σ = .stray id

def Attempted (ends : A → Except String String → Prop) (id : String) (σ : Stage A) :
    Except String Unit → Prop
  | .ok _ => σ = .ended
  | .error e => σ = .stray id ∨ ∃ a, σ = .working id a ∧ ends a (.error e)

def Settled (σ : Stage A) (result : Except String Unit) : Prop :=
  result = .ok () → σ = .idle ∨ σ = .ended

theorem follows_mark (id : String) : (updateTransactionStatus id .submitted : Handler ChainReply Unit).Follows
      (lifecycle adapter ends start event) (Marked start id) .idle := by
  refine ⟨trivial, fun now => ⟨rfl, fun reply => ?_⟩⟩
  cases (reply : Except String Unit) with
  | ok _ | error e => rfl

theorem follows_adapterCall (id : String) (tx : TrackedTransaction) (a : A) :
    (adapterCall tx : Handler ChainReply AdapterCall).Follows (lifecycle adapter ends start event)
      (fun σ result => σ = .working id a ∧ ∃ call, result = .ok call) (.working id a) := by
  unfold adapterCall
  cases tx.operation with
  | createClaim => exact ⟨trivial, fun _ => ⟨rfl, _, rfl⟩⟩
  | disburseClaim | initEscrow => exact ⟨rfl, _, rfl⟩

theorem follows_confirm {hash : String} (h : ends a (.ok hash)) (id : String) (attemptNumber : ℕ) :
    (do let now ← clock
        .ask (.confirm id hash attemptNumber now) fun result => .done result :
      Handler ChainReply Unit).Follows (lifecycle adapter ends start event) (Attempted ends id) (.working id a) := by
  refine ⟨trivial, fun now => ⟨⟨rfl, h⟩, fun reply => ?_⟩⟩
  cases (reply : Except String Unit) with
  | ok _ => rfl
  | error e => exact .inl rfl

theorem follows_handleTransactionError {id errorMessage : String} {σ : Stage A}
    (hσ : σ = .stray id ∨ ∃ a, σ = .working id a ∧ ends a (.error errorMessage))
    (attemptNumber jitter : ℕ) :
    (handleTransactionError id errorMessage attemptNumber jitter : Handler ChainReply Unit).Follows
      (lifecycle adapter ends start event) Settled σ := by
  rcases hσ with rfl | ⟨a, rfl, ha⟩
  · refine ⟨.inr (.inl rfl), fun found => ?_⟩
    cases (found : Option TrackedTransaction) with
    | none => exact fun h => by cases h
    | some tx => exact ⟨.inl rfl, fun now => ⟨.inr (.inr ⟨_, rfl⟩), fun _ _ => .inr rfl⟩⟩
  · refine ⟨rfl, fun found => ?_⟩
    cases (found : Option TrackedTransaction) with
    | none => exact fun h => by cases h
    | some tx => exact ⟨trivial, fun now => ⟨⟨rfl, ha⟩, fun _ _ => .inr rfl⟩⟩

variable {onchainAdapter : AdapterCall → Handler ChainReply String}

theorem follows_submitAttempt (hadapter : ∀ call, (onchainAdapter call).Follows (outside adapter) ends start) (id : String)
    (tx : TrackedTransaction) (attemptNumber : ℕ) :
    (submitAttempt onchainAdapter id tx attemptNumber).Follows (lifecycle adapter ends start event)
      (Attempted ends id) .idle := by
  refine Task.Follows.bind (fun σ _ hmarked => ?_) (fun σ e hstray => .inl hstray) (follows_mark id)
  rw [show σ = .working id start from hmarked]
  refine Task.Follows.bind (fun σ call hσ => ?_) (fun σ e hσ => ?_) (follows_adapterCall id tx start)
  · rw [hσ.1]
    refine Task.Follows.bind (fun σ hash hended => ?_) (fun σ e hended => .inr hended) (follows_outside id (hadapter call))
    obtain ⟨a, rfl, ha⟩ := hended
    exact follows_confirm ha id attemptNumber
  · obtain ⟨-, call, hcall⟩ := hσ
    cases hcall

theorem follows_executeTransaction
    (hadapter : ∀ call, (onchainAdapter call).Follows (outside adapter) ends start) (jitter : ℕ)
    (id : String) : (executeTransaction onchainAdapter jitter id).Follows
      (lifecycle adapter ends start event) Settled .idle := by
  refine ⟨trivial, fun found => ?_⟩
  cases (found : Option TrackedTransaction) with
  | none => exact fun h => by cases h
  | some tx =>
    refine Task.follows_ite (fun _ => fun _ => .inl rfl) fun _ => ?_
    refine Task.Follows.bind (fun σ result hσ => ?_) (fun σ e hσ => ?_)
      (follows_submitAttempt hadapter id tx (tx.attemptCount + 1)).attempt
    · obtain ⟨caught, hcaught, hσ⟩ := hσ
      cases hcaught
      cases result with
      | ok _ => exact fun _ => .inr hσ
      | error e => exact follows_handleTransactionError hσ (tx.attemptCount + 1) jitter
    · obtain ⟨caught, hcaught, -⟩ := hσ
      cases hcaught

theorem asks_addRetryJobs_idle : ∀ rows : List TrackedTransaction,
    (addRetryJobs rows : Handler ChainReply Unit).Asks (Idle event)
  | [] => trivial
  | _ :: rest => ⟨trivial, fun _ => asks_addRetryJobs_idle rest⟩

theorem follows_runOperation (hadapter : ∀ call, (onchainAdapter call).Follows (outside adapter) ends start) (jitter : ℕ)
    (job : SorobanTransactionJobData) : (runOperation onchainAdapter jitter job).Follows
      (lifecycle adapter ends start event) Settled .idle := by
  unfold runOperation
  cases job.operation with
  | execute | retry => exact follows_executeTransaction hadapter jitter job.transactionId
  | cleanup => exact ⟨trivial, fun _ => ⟨trivial, fun _ => fun _ => .inl rfl⟩⟩

theorem follows_runJob (hadapter : ∀ call, (onchainAdapter call).Follows (outside adapter) ends start) (jitter : ℕ)
    (job : SorobanTransactionJobData) : (runJob onchainAdapter jitter job).Follows
      (lifecycle adapter ends start event) (fun _ _ => True) .idle := by
  refine Task.Follows.bind (fun σ result hσ => ?_) (fun _ _ _ => trivial) (follows_runOperation hadapter jitter job).attempt
  obtain ⟨caught, hcaught, hsettled⟩ := hσ
  cases hcaught
  cases result with
  | error error => trivial
  | ok _ =>
    by_cases hcleanup : job.operation = .cleanup
    · simp only [hcleanup]
      trivial
    · simp only [hcleanup]
      rcases hsettled rfl with rfl | rfl
      · exact ⟨trivial, fun _ => trivial⟩
      · exact ⟨⟨_, rfl⟩, fun _ => trivial⟩

theorem follows_process (hadapter : ∀ call, (onchainAdapter call).Follows (outside adapter) ends start)
    (pick jitter : ℕ) : (process onchainAdapter pick jitter).Follows
      (lifecycle adapter ends start event) (fun _ _ => True) .idle := by
  refine ⟨trivial, fun taken => ?_⟩
  cases (taken : Option SorobanTransactionJobData) with
  | none => trivial
  | some job => exact Task.Follows.bind_done (follows_runJob hadapter jitter job)

theorem follows_retryTransaction (hadapter : ∀ call, (onchainAdapter call).Follows (outside adapter) ends start) (jitter : ℕ)
    (id : String) (forceRetry : Bool) : (retryTransaction onchainAdapter jitter id forceRetry).Follows
      (lifecycle adapter ends start event) (fun _ _ => True) .idle := by
  refine ⟨trivial, fun found => ?_⟩
  cases (found : Option TrackedTransaction) with
  | none => trivial
  | some tx =>
    refine Task.follows_ite (fun _ => trivial) fun _ => Task.follows_ite (fun _ => trivial) fun _ => ?_
    refine ⟨trivial, fun now => ⟨trivial, fun reply => ?_⟩⟩
    cases (reply : Except String Unit) with
    | error e => trivial
    | ok _ => exact (follows_executeTransaction hadapter jitter id).mono fun _ _ _ => trivial

theorem follows_body (hadapter : ∀ call, (onchainAdapter call).Follows (outside adapter) ends start)
    (op : LifecycleOp E) : (op.body onchainAdapter event).Follows
      (lifecycle adapter ends start event) (fun _ _ => True) .idle := by
  cases op with
  | scheduleTransaction id => exact follows_idle ⟨trivial, fun _ => trivial⟩
  | scheduleRetryableTransactions =>
    exact follows_idle ⟨trivial, fun _ => ⟨trivial, fun rows => asks_addRetryJobs_idle rows⟩⟩
  | cleanupExpiredTransactions => exact follows_idle ⟨trivial, fun _ => trivial⟩
  | detectStuckTransactions thresholdMs =>
    exact follows_idle ⟨trivial, fun _ => ⟨trivial, fun _ => trivial⟩⟩
  | process pick jitter => exact follows_process hadapter pick jitter
  | stalled job => exact follows_idle ⟨trivial, fun _ => trivial⟩
  | retryTransaction id forceRetry jitter => exact follows_retryTransaction hadapter jitter id forceRetry
  | elapse d => exact follows_idle ⟨trivial, fun _ => trivial⟩
  | chain e => exact follows_idle ⟨⟨e, rfl⟩, fun _ => trivial⟩

end Follows
section OneAtATime
variable {stages : List (Stage A)} {s s' : Store K} {i : ℕ} {σ τ : Stage A} {q : Query C} {id : String}

/-- An attempt marks the record while it is pending and writes its result while it is submitted, and
nobody asks for a retry by hand. -/
def Orderly (q : Query C) (s : Store K) : Prop :=
  match q with
  | .updateTransactionStatus id .. => s.transaction.id = id → s.transaction.status = .pending
  | .confirm id .. | .recordError id _ => s.transaction.id = id → s.transaction.status = .submitted
  | .resetForRetry id .. => s.transaction.id ≠ id
  | _ => True

def Store.taken (s : Store K) : Prop :=
  s.transaction.status = .submitted ∨ s.transaction.status = .expired

structure OneAtWork (stages : List (Stage A)) (s : Store K) : Prop where
  subject : ∀ (i : ℕ) (σ : Stage A) (id : String), stages[i]? = some σ → σ.subject = some id →
    s.transaction.id = id ∧ s.taken
  alone : ∀ (i j : ℕ) (σ τ : Stage A) (id id' : String), stages[i]? = some σ → stages[j]? = some τ →
    σ.subject = some id → τ.subject = some id' → i = j
  stray : ∀ (i : ℕ) (id : String), stages[i]? = some (.stray id) → s.transaction.id ≠ id

variable {a : A} {f : SorobanTransaction String → SorobanTransaction String}

theorem OneAtWork.idle : OneAtWork ([] : List (Stage A)) s :=
  ⟨fun _ _ _ => nofun, fun _ _ _ _ _ _ => nofun, fun _ _ => nofun⟩

theorem getElem?_set_cases {ρ : Stage A} {j : ℕ} (h : (stages.set i τ)[j]? = some ρ) :
    (i = j ∧ ρ = τ) ∨ (i ≠ j ∧ stages[j]? = some ρ) := by
  by_cases hij : i = j
  · subst hij
    have hlt : i < stages.length := by
      have hlt := (List.getElem?_eq_some_iff.mp h).1
      rwa [List.length_set] at hlt
    rw [List.getElem?_set_self hlt] at h
    exact .inl ⟨rfl, (Option.some.inj h).symm⟩
  · rw [List.getElem?_set_ne hij] at h
    exact .inr ⟨hij, h⟩

theorem OneAtWork.start (h : OneAtWork stages s) : OneAtWork (stages ++ [.idle]) s := by
  have hold : ∀ (j : ℕ) (ρ : Stage A) (id : String), (stages ++ [.idle])[j]? = some ρ →
      ρ.subject = some id → stages[j]? = some ρ := by
    intro j ρ id hj hρ
    rcases getElem?_snoc hj with hj | ⟨-, rfl⟩
    · exact hj
    · cases hρ
  refine ⟨fun j ρ id hj hρ => h.subject j ρ id (hold j ρ id hj hρ) hρ,
    fun j k ρ ρ' id id' hj hk hρ hρ' => ?_, fun j id hj => ?_⟩
  · exact h.alone j k ρ ρ' id id' (hold j ρ id hj hρ) (hold k ρ' id' hk hρ') hρ hρ'
  · rcases getElem?_snoc hj with hj | ⟨-, heq⟩
    · exact h.stray j id hj
    · cases heq

theorem OneAtWork.nobody (h : OneAtWork stages s) (hfree : ¬ s.taken) (hσ : stages[i]? = some σ) :
    σ.subject = none := by
  cases hid : σ.subject with
  | none => rfl
  | some id => exact absurd (h.subject i σ id hσ hid).2 hfree

theorem OneAtWork.keep (h : OneAtWork stages s) (hσ : stages[i]? = some σ)
    (hsubject : τ.subject = σ.subject) (hstray : ∀ id, τ = .stray id → s.transaction.id ≠ id)
    (hid : s'.transaction.id = s.transaction.id) (htaken : s.taken → s'.taken) :
    OneAtWork (stages.set i τ) s' := by
  have hold : ∀ (j : ℕ) (ρ : Stage A) (id : String), (stages.set i τ)[j]? = some ρ →
      ρ.subject = some id → ∃ ρ', stages[j]? = some ρ' ∧ ρ'.subject = some id := by
    intro j ρ id hj hρ
    rcases getElem?_set_cases hj with ⟨rfl, rfl⟩ | ⟨-, hj⟩
    · exact ⟨σ, hσ, hsubject ▸ hρ⟩
    · exact ⟨ρ, hj, hρ⟩
  refine ⟨fun j ρ id hj hρ => ?_, fun j k ρ ρ' id id' hj hk hρ hρ' => ?_, fun j id hj => ?_⟩
  · obtain ⟨ρ', hj', hρ'⟩ := hold j ρ id hj hρ
    have hsub := h.subject j ρ' id hj' hρ'
    exact ⟨hid.trans hsub.1, htaken hsub.2⟩
  · obtain ⟨ρ₁, hj', hρ₁⟩ := hold j ρ id hj hρ
    obtain ⟨ρ₂, hk', hρ₂⟩ := hold k ρ' id' hk hρ'
    exact h.alone j k ρ₁ ρ₂ id id' hj' hk' hρ₁ hρ₂
  · rw [hid]
    rcases getElem?_set_cases hj with ⟨-, hτ⟩ | ⟨-, hj⟩
    · exact hstray id hτ.symm
    · exact h.stray j id hj

theorem OneAtWork.join (h : OneAtWork stages s) (hfree : ¬ s.taken)
    (hid : s.transaction.id = id) (hid' : s'.transaction.id = id) (htaken : s'.taken) :
    OneAtWork (stages.set i (.working id a)) s' := by
  have honly : ∀ (j : ℕ) (ρ : Stage A) (id' : String),
      (stages.set i (.working id a))[j]? = some ρ → ρ.subject = some id' → i = j ∧ id' = id := by
    intro j ρ id' hj hρ
    rcases getElem?_set_cases hj with ⟨rfl, rfl⟩ | ⟨-, hj⟩
    · exact ⟨rfl, (Option.some.inj hρ).symm⟩
    · rw [h.nobody hfree hj] at hρ
      cases hρ
  refine ⟨fun j ρ id' hj hρ => ?_, fun j k ρ ρ' id₁ id₂ hj hk hρ hρ' => ?_, fun j id' hj => ?_⟩
  · rw [(honly j ρ id' hj hρ).2]
    exact ⟨hid', htaken⟩
  · exact (honly j ρ id₁ hj hρ).1.symm.trans (honly k ρ' id₂ hk hρ').1
  · rcases getElem?_set_cases hj with ⟨-, hτ⟩ | ⟨-, hj⟩
    · cases hτ
    · rw [hid', ← hid]
      exact h.stray j id' hj

theorem OneAtWork.leave (h : OneAtWork stages s) (hσ : stages[i]? = some σ)
    (hsubject : σ.subject = some id) (hid : s'.transaction.id = s.transaction.id) :
    OneAtWork (stages.set i .ended) s' := by
  have hnobody : ∀ (j : ℕ) (ρ : Stage A), (stages.set i .ended)[j]? = some ρ → ρ.subject = none := by
    intro j ρ hj
    rcases getElem?_set_cases hj with ⟨rfl, rfl⟩ | ⟨hij, hj⟩
    · rfl
    · cases hρ : ρ.subject with
      | none => rfl
      | some id' => exact absurd (h.alone i j σ ρ id id' hσ hj hsubject hρ) hij
  refine ⟨fun j ρ id' hj hρ => ?_, fun j k ρ ρ' id₁ id₂ hj hk hρ hρ' => ?_, fun j id' hj => ?_⟩
  · rw [hnobody j ρ hj] at hρ
    cases hρ
  · rw [hnobody j ρ hj] at hρ
    cases hρ
  · rw [hid]
    rcases getElem?_set_cases hj with ⟨-, hτ⟩ | ⟨-, hj⟩
    · cases hτ
    · exact h.stray j id' hj

variable {adapter : Protocol C ChainReply A} {ends : A → Except String String → Prop} {start : A}
  {event : E → C} {serve : (c : C) → Time → K → ChainReply c × K}

theorem update_of_eq (h : s.transaction.id = id) : s.update id f = (.ok (), s.write f) :=
  if_pos h

theorem update_of_ne (h : s.transaction.id ≠ id) : s.update id f = (.error "Record to update not found.", s) :=
  if_neg h

theorem OneAtWork.serve_idle (h : OneAtWork stages s) (hi : stages[i]? = some .idle)
    (hallowed : Stage.idle.mayAsk adapter ends event q) (hC : Orderly q s) :
    OneAtWork (stages.set i (Stage.idle.after adapter start q (perform serve q s).1)) (perform serve q s).2 := by
  cases q with
  | updateTransactionStatus id status now =>
    by_cases hid : s.transaction.id = id
    · rw [perform, update_of_eq hid]
      have hfree : ¬ s.taken := by
        rw [Store.taken, hC hid]
        decide
      have hstatus : status = .submitted := hallowed
      exact h.join hfree hid hid (.inl hstatus)
    · rw [perform, update_of_ne hid]
      refine h.keep hi rfl (fun id' hid' => ?_) rfl fun htaken => htaken
      cases hid'
      exact hid
  | resetForRetry id forceRetry now =>
    rw [perform, update_of_ne hC]
    exact h.keep hi rfl (fun _ heq => by cases heq) rfl fun htaken => htaken
  | expire createdBefore now =>
    refine h.keep hi rfl (fun _ heq => by cases heq) (perform_identity _ s) fun htaken => ?_
    simp only [perform]
    split
    · exact htaken
    · exact .inr rfl
  | confirm id txHash attemptNumber now | recordError id error => cases hallowed
  | _ => exact h.keep hi rfl (fun _ heq => by cases heq) rfl fun htaken => htaken

theorem OneAtWork.serve_working (h : OneAtWork stages s) (hi : stages[i]? = some (.working id a))
    (hallowed : (Stage.working id a).mayAsk adapter ends event q) :
    OneAtWork (stages.set i ((Stage.working id a).after adapter start q (perform serve q s).1)) (perform serve q s).2 := by
  have hid := (h.subject i _ id hi rfl).1
  cases q with
  | confirm id' txHash attemptNumber now =>
    obtain ⟨rfl, -⟩ := hallowed
    rw [perform, update_of_eq hid]
    exact h.leave hi rfl rfl
  | recordError id' error =>
    obtain ⟨rfl, -⟩ := hallowed
    rw [perform, update_of_eq hid]
    exact h.leave hi rfl rfl
  | clock => exact h.keep hi rfl (fun _ heq => by cases heq) rfl fun htaken => htaken
  | sleepUntil t | findUnique id' | chain c => exact h.keep hi rfl (fun _ heq => by cases heq) rfl fun htaken => htaken
  | _ => cases hallowed

theorem OneAtWork.serve_stray (h : OneAtWork stages s) (hi : stages[i]? = some (.stray id))
    (hallowed : (Stage.stray id : Stage A).mayAsk adapter ends event q) :
    OneAtWork (stages.set i ((Stage.stray id).after adapter start q (perform serve q s).1)) (perform serve q s).2 := by
  have hne := h.stray i id hi
  have hstray : ∀ id', (Stage.stray id : Stage A) = .stray id' → s.transaction.id ≠ id' := by
    intro id' heq
    cases heq
    exact hne
  rcases hallowed with rfl | rfl | ⟨error, rfl⟩
  · exact h.keep hi rfl hstray rfl fun htaken => htaken
  · exact h.keep hi rfl hstray rfl fun htaken => htaken
  · rw [perform, update_of_ne hne]
    exact h.keep hi rfl (fun _ heq => by cases heq) rfl fun htaken => htaken

theorem OneAtWork.served (h : OneAtWork stages s) (hi : stages[i]? = some σ)
    (hallowed : σ.mayAsk adapter ends event q) (hC : Orderly q s) :
    OneAtWork (stages.set i (σ.after adapter start q (perform serve q s).1)) (perform serve q s).2 := by
  cases σ with
  | idle => exact h.serve_idle hi hallowed hC
  | working id a => exact h.serve_working hi hallowed
  | stray id => exact h.serve_stray hi hallowed
  | ended =>
    obtain ⟨id, rfl⟩ := hallowed
    exact h.keep hi rfl (fun _ => nofun) rfl fun htaken => htaken

end OneAtATime
end Soter.Soroban
