import Soter.Lib.Rely
import Soter.Soroban.Lifecycle

/-! What a request does to the record, and the bound on its attempts. Both hold of every adapter. -/
namespace Soter.Soroban
open Soter.Tasks Soter.Runs

variable {C K E : Type} {ChainReply : C → Type} {serve : (c : C) → Time → K → ChainReply c × K}

variable {q : Query C} {s : Store K}

def Query.sets : Query C → Option (String × SorobanTransactionStatus)
  | .updateTransactionStatus id status _ => some (id, status)
  | .confirm id .. => some (id, .confirmed)
  | .recordError id error => some (id, error.status)
  | _ => none

def Query.edit (s : Store K) :
    Query C → Option (SorobanTransaction String → SorobanTransaction String)
  | .updateTransactionStatus id status now =>
    if s.transaction.id = id then some (setStatus status now) else none
  | .confirm id txHash attemptNumber now =>
    if s.transaction.id = id then some (setConfirmed txHash attemptNumber now) else none
  | .recordError id error => if s.transaction.id = id then some (setError error) else none
  | .resetForRetry id forceRetry now =>
    if s.transaction.id = id then some (setForRetry forceRetry now) else none
  | .expire createdBefore now =>
    if s.transaction.unfinished = true ∧ s.transaction.createdAt < createdBefore then
      some (setExpired now)
    else none
  | _ => none

theorem update_transaction (s : Store K) (id : String)
    (f : SorobanTransaction String → SorobanTransaction String) : (s.update id f).2.transaction =
      ((if s.transaction.id = id then some f else none).elim s fun f => s.write f).transaction := by
  rw [Store.update]
  split <;> rfl

theorem transaction_perform (q : Query C) (s : Store K) :
    (perform serve q s).2.transaction = ((q.edit s).elim s fun f => s.write f).transaction := by
  cases q with
  | updateTransactionStatus id status now | confirm id txHash attemptNumber now | recordError id error
  | resetForRetry id forceRetry now => exact update_transaction s id _
  | expire createdBefore now =>
    simp only [perform, Query.edit, Store.rows, List.filter_cons, List.filter_nil, Bool.and_eq_true, decide_eq_true_eq]
    by_cases h : s.transaction.unfinished = true ∧ s.transaction.createdAt < createdBefore
    · rw [if_pos h, if_neg (by simp), if_pos h]
      rfl
    · rw [if_neg h, if_pos rfl, if_neg h]
      rfl
  | _ => rfl

theorem perform_identity (q : Query C) (s : Store K) : (perform serve q s).2.transaction.id = s.transaction.id := by
  rw [transaction_perform]
  cases q.edit s <;> rfl

theorem edit_maxAttempts {f : SorobanTransaction String → SorobanTransaction String} (h : q.edit s = some f)
    (tx : SorobanTransaction String) : (f tx).maxAttempts = tx.maxAttempts := by
  cases q <;> simp only [Query.edit, Option.ite_none_right_eq_some, Option.some.injEq, reduceCtorEq] at h
  all_goals
    obtain ⟨-, rfl⟩ := h
    rfl

theorem perform_maxAttempts (q : Query C) (s : Store K) :
    (perform serve q s).2.transaction.maxAttempts = s.transaction.maxAttempts := by
  rw [transaction_perform]
  cases h : q.edit s with
  | none => rfl
  | some f => exact edit_maxAttempts h _

def SorobanTransactionStatus.terminal (status : SorobanTransactionStatus) : Prop :=
  status = .confirmed ∨ status = .failed ∨ status = .expired

theorem status_perform_of_sets {id : String} {status : SorobanTransactionStatus} (hq : q.sets = some (id, status)) :
    (perform serve q s).2.transaction.status =
      if s.transaction.id = id then status else s.transaction.status := by
  rw [transaction_perform]
  cases q <;> simp only [Query.sets, reduceCtorEq, Option.some.injEq, Prod.mk.injEq] at hq
  all_goals
    obtain ⟨rfl, rfl⟩ := hq
    rw [Query.edit]
    split <;> rfl

theorem status_perform_of_not_sets (hq : q.sets = none) (hterminal : s.transaction.status.terminal) :
    (perform serve q s).2.transaction.status = s.transaction.status ∨
      ∃ id forceRetry now, q = .resetForRetry id forceRetry now := by
  cases q with
  | resetForRetry id forceRetry now => exact .inr ⟨id, forceRetry, now, rfl⟩
  | expire createdBefore now =>
    left
    have hnot : ¬ (s.transaction.unfinished = true ∧ s.transaction.createdAt < createdBefore) := by
      intro h
      have hunfinished := of_decide_eq_true h.1
      rcases hterminal with hstatus | hstatus | hstatus <;> simp [hstatus] at hunfinished
    rw [transaction_perform, Query.edit, if_neg hnot]
    rfl
  | updateTransactionStatus id status now | confirm id txHash attemptNumber now | recordError id error => cases hq
  | _ => exact .inl rfl

/-- Where the status of a record comes from: it was so, it was written, or the record was expired or
reset. -/
theorem status_perform_cases (q : Query C) (s : Store K) : (perform serve q s).2.transaction.status = s.transaction.status ∨
      (∃ id, q.sets = some (id, (perform serve q s).2.transaction.status) ∧ s.transaction.id = id) ∨
      (∃ createdBefore now, q = .expire createdBefore now ∧ s.transaction.unfinished = true ∧
        s.transaction.createdAt < createdBefore ∧ (perform serve q s).2.transaction.status = .expired) ∨
      ∃ id forceRetry now, q = .resetForRetry id forceRetry now ∧ (perform serve q s).2.transaction.status = .pending := by
  cases hsets : q.sets with
  | some target =>
    have hstatus := @status_perform_of_sets C K ChainReply serve q s target.1 target.2 hsets
    by_cases hid : s.transaction.id = target.1
    · rw [if_pos hid] at hstatus
      exact .inr (.inl ⟨target.1, by rw [hstatus], hid⟩)
    · rw [if_neg hid] at hstatus
      exact .inl hstatus
  | none =>
    have hedited : (perform serve q s).2.transaction = _ := transaction_perform q s
    cases hedit : q.edit s with
    | none =>
      rw [hedit] at hedited
      exact .inl (by rw [hedited]; rfl)
    | some f =>
      rw [hedit] at hedited
      cases q with
      | expire createdBefore now =>
        simp only [Query.edit, Option.ite_none_right_eq_some, Option.some.injEq] at hedit
        obtain ⟨⟨hunfinished, hold⟩, rfl⟩ := hedit
        refine .inr (.inr (.inl ⟨createdBefore, now, rfl, hunfinished, hold, ?_⟩))
        rw [hedited]
        rfl
      | resetForRetry id forceRetry now =>
        simp only [Query.edit, Option.ite_none_right_eq_some, Option.some.injEq] at hedit
        obtain ⟨-, rfl⟩ := hedit
        refine .inr (.inr (.inr ⟨id, forceRetry, now, rfl, ?_⟩))
        rw [hedited]
        rfl
      | updateTransactionStatus id status now | confirm id txHash attemptNumber now | recordError id error => cases hsets
      | _ => cases hedit

section Attempts
variable {M : ℕ}

/-- The attempts that a request puts down are at most `M`. -/
def AttemptsWithin (M : ℕ) : Query C → Prop
  | .confirm _ _ attemptNumber _ => attemptNumber ≤ M
  | .recordError _ error => error.attemptNumber ≤ M
  | _ => True

def Query.Outside : Query C → Prop
  | .clock | .sleepUntil _ | .chain _ => True
  | _ => False

variable {α : Type} {t : Handler ChainReply α} {attemptNumber : ℕ}

theorem Query.Outside.attemptsWithin : ∀ q : Query C, q.Outside → AttemptsWithin M q
  | .clock, _ | .sleepUntil _, _ | .chain _, _ => trivial

structure Within (M : ℕ) (s : Store K) : Prop where
  count : s.transaction.attemptCount ≤ M
  max : s.transaction.maxAttempts = M

theorem edit_attemptCount {s : Store K} {f : SorobanTransaction String → SorobanTransaction String} (h : q.edit s = some f)
    (hq : AttemptsWithin M q) {tx : SorobanTransaction String} (htx : tx.attemptCount ≤ M) :
    (f tx).attemptCount ≤ M := by
  cases q <;> simp only [Query.edit, Option.ite_none_right_eq_some, Option.some.injEq, reduceCtorEq] at h
  case resetForRetry id forceRetry now =>
    obtain ⟨-, rfl⟩ := h
    simp only [setForRetry]
    split
    · exact Nat.zero_le M
    · exact htx
  all_goals
    obtain ⟨-, rfl⟩ := h
    first | exact htx | exact hq

theorem Within.perform {s : Store K} (h : Within M s) (hq : AttemptsWithin M q) :
    Within M (perform serve q s).2 := by
  refine ⟨?_, (perform_maxAttempts q s).trans h.max⟩
  rw [transaction_perform]
  cases hedit : q.edit s with
  | none => exact h.count
  | some f => exact edit_attemptCount hedit hq h.count

variable {onchainAdapter : AdapterCall → Handler ChainReply String}

def Bounded {α : Type} (serve : (c : C) → Time → K → ChainReply c × K) (M : ℕ)
    (t : Handler ChainReply α) (s : Store K) : Prop :=
  t.Keeps (perform serve) (fun _ _ => True) (Within M) (fun _ _ => True)
    (fun q _ => AttemptsWithin M q) (fun _ _ => True) s

theorem Bounded.of_asks (h : t.Asks (AttemptsWithin M)) : Bounded serve M t s :=
  Task.Keeps.of_asks (fun _ _ hq => hq) (fun _ _ => trivial) h

theorem Bounded.bind {β : Type} {f : α → Handler ChainReply β}
    (hf : ∀ a s, Bounded serve M (f a) s) (h : Bounded serve M t s) : Bounded serve M (t.bind f) s :=
  Task.Keeps.bind (fun _ => trivial) (fun _ _ => True) (fun a s _ => hf a s) (fun _ _ _ => trivial) h

theorem Bounded.attempt (h : Bounded serve M t s) :
    Bounded serve M (t.attempt : Handler ChainReply (Except String α)) s :=
  Task.Keeps.of_post (fun _ _ _ => trivial) (Task.Keeps.attempt h)

theorem asks_adapterCall (tx : TrackedTransaction) :
    (adapterCall tx : Handler ChainReply AdapterCall).Asks Query.Outside := by
  unfold adapterCall
  cases tx.operation with
  | createClaim => exact ⟨trivial, fun _ => trivial⟩
  | disburseClaim | initEscrow => trivial

theorem asks_submitAttempt (hadapter : ∀ call, (onchainAdapter call).Asks Query.Outside) (id : String)
    (tx : TrackedTransaction) (h : attemptNumber ≤ M) :
    (submitAttempt onchainAdapter id tx attemptNumber).Asks (AttemptsWithin M) := by
  have hmark : (updateTransactionStatus id .submitted : Handler ChainReply Unit).Asks
      (AttemptsWithin M) := ⟨trivial, fun _ => ⟨trivial, fun _ => trivial⟩⟩
  refine Task.Asks.bind (fun _ => ?_) hmark
  refine Task.Asks.bind (fun call => ?_) ((asks_adapterCall tx).mono Query.Outside.attemptsWithin)
  refine Task.Asks.bind (fun hash => ?_) ((hadapter call).mono Query.Outside.attemptsWithin)
  exact ⟨trivial, fun _ => ⟨h, fun _ => trivial⟩⟩

theorem asks_handleTransactionError (id errorMessage : String) (jitter : ℕ) (h : attemptNumber ≤ M) :
    (handleTransactionError id errorMessage attemptNumber jitter : Handler ChainReply Unit).Asks (AttemptsWithin M) := by
  refine ⟨trivial, fun found => ?_⟩
  cases found with
  | none => trivial
  | some tx => exact ⟨trivial, fun _ => ⟨h, fun _ => trivial⟩⟩

theorem asks_executeTransactionInContext
    (hadapter : ∀ call, (onchainAdapter call).Asks Query.Outside) (jitter : ℕ) (id : String)
    {tx : TrackedTransaction} (htx : tx.maxAttempts = M) :
    (executeTransactionInContext onchainAdapter jitter id tx).Asks (AttemptsWithin M) := by
  rw [executeTransactionInContext]
  split
  · trivial
  · rename_i hnot
    have hn : tx.attemptCount + 1 ≤ M := by omega
    refine Task.Asks.bind (fun result => ?_) (asks_submitAttempt hadapter id tx hn).attempt
    cases result with
    | ok _ => trivial
    | error errorMessage => exact asks_handleTransactionError id errorMessage jitter hn

theorem bounded_executeTransaction (hadapter : ∀ call, (onchainAdapter call).Asks Query.Outside)
    (jitter : ℕ) (id : String) : Bounded serve M (executeTransaction onchainAdapter jitter id) s := by
  intro s' _ hs' _
  refine ⟨trivial, ?_⟩
  cases hfound : (perform serve (.findUnique id) s').1 with
  | none => exact Bounded.of_asks trivial
  | some tx =>
    have hmem : tx = s'.transaction := by
      have hhead : tx ∈ s'.rows (·.id = id) := List.mem_of_mem_head? hfound
      exact List.mem_singleton.mp (List.mem_filter.mp hhead).1
    have hmax : tx.maxAttempts = M := by rw [hmem, hs'.max]
    exact Bounded.of_asks (asks_executeTransactionInContext hadapter jitter id hmax)

theorem asks_addRetryJobs : ∀ rows : List TrackedTransaction,
    (addRetryJobs rows : Handler ChainReply Unit).Asks (AttemptsWithin M)
  | [] => trivial
  | _ :: rest => ⟨trivial, fun _ => asks_addRetryJobs rest⟩

theorem bounded_process (hadapter : ∀ call, (onchainAdapter call).Asks Query.Outside)
    (pick jitter : ℕ) : Bounded serve M (process onchainAdapter pick jitter) s := by
  refine Bounded.bind (fun taken s => ?_) (Bounded.of_asks ⟨trivial, fun _ => trivial⟩)
  cases taken with
  | none => exact Bounded.of_asks trivial
  | some job =>
    refine Bounded.bind (fun _ _ => Bounded.of_asks trivial) (Bounded.bind (fun result s => ?_) ?_)
    · cases result with
      | error error => exact Bounded.of_asks trivial
      | ok _ =>
        by_cases hcleanup : job.operation = .cleanup
        · simp only [hcleanup]
          exact Bounded.of_asks trivial
        · simp only [hcleanup]
          exact Bounded.of_asks ⟨trivial, fun _ => trivial⟩
    · apply Bounded.attempt
      unfold runOperation
      cases job.operation with
      | execute | retry => exact bounded_executeTransaction hadapter jitter job.transactionId
      | cleanup => exact Bounded.of_asks ⟨trivial, fun _ => ⟨trivial, fun _ => trivial⟩⟩

theorem bounded_retryTransaction (hadapter : ∀ call, (onchainAdapter call).Asks Query.Outside)
    (jitter : ℕ) (id : String) (forceRetry : Bool) :
    Bounded serve M (retryTransaction onchainAdapter jitter id forceRetry) s := by
  refine fun s' _ _ _ => ⟨trivial, ?_⟩
  cases (perform serve (.findUnique id) s').1 with
  | none => exact Bounded.of_asks trivial
  | some tx =>
    refine Task.keeps_ite (fun _ => ?_) fun _ => Task.keeps_ite (fun _ => ?_) fun _ => ?_
    · exact Bounded.of_asks trivial
    · exact Bounded.of_asks trivial
    · refine fun s' _ _ _ => ⟨trivial, fun s' _ _ _ => ⟨trivial, ?_⟩⟩
      refine Bounded.bind (t := .done _) (fun _ _ => ?_) (Bounded.of_asks trivial)
      exact bounded_executeTransaction hadapter jitter id

theorem bounded_body (hadapter : ∀ call, (onchainAdapter call).Asks Query.Outside)
    (event : E → C) (op : LifecycleOp E) : Bounded serve M (op.body onchainAdapter event) s := by
  cases op with
  | scheduleTransaction id => exact Bounded.of_asks ⟨trivial, fun _ => trivial⟩
  | scheduleRetryableTransactions =>
    exact Bounded.of_asks ⟨trivial, fun _ => ⟨trivial, fun rows => asks_addRetryJobs rows⟩⟩
  | cleanupExpiredTransactions => exact Bounded.of_asks ⟨trivial, fun _ => trivial⟩
  | detectStuckTransactions thresholdMs =>
    exact Bounded.of_asks ⟨trivial, fun _ => ⟨trivial, fun _ => trivial⟩⟩
  | process pick jitter => exact bounded_process hadapter pick jitter
  | stalled job => exact Bounded.of_asks ⟨trivial, fun _ => trivial⟩
  | retryTransaction id forceRetry jitter =>
    exact bounded_retryTransaction hadapter jitter id forceRetry
  | elapse d | chain c => exact Bounded.of_asks ⟨trivial, fun _ => trivial⟩

variable {p p' : System K ChainReply E} {event : E → C} {s₀ : Store K}
  {tr : List (Transition (System K ChainReply E) (Turn (LifecycleOp E)))}

theorem attempts_run (hadapter : ∀ call, (onchainAdapter call).Asks Query.Outside)
    (hstart : s₀.transaction.attemptCount ≤ s₀.transaction.maxAttempts)
    (hrun : Run (Pool.Step (perform serve) (LifecycleOp.body onchainAdapter event)) { store := s₀ } tr p)
    {t : Transition (System K ChainReply E) (Turn (LifecycleOp E))} (ht : t ∈ tr) :
    t.post.store.transaction.attemptCount ≤ t.post.store.transaction.maxAttempts := by
  have hidle : Pool.Kept (perform serve) (fun _ _ => True) (Within s₀.transaction.maxAttempts)
      (fun _ _ _ => True) (fun _ q _ => AttemptsWithin s₀.transaction.maxAttempts q)
      (fun _ _ _ => True) ({ store := s₀ } : System K ChainReply E) := Pool.Kept.idle ⟨hstart, rfl⟩
  have hkept := (Pool.Kept.run (fun _ => trivial) (fun _ _ _ _ _ => trivial)
    (fun op s _ => bounded_body hadapter event op) (fun _ q s hI _ hq => ⟨trivial, hI.perform hq⟩)
    hrun hidle (fun _ _ _ _ _ => trivial) ht).2
  rw [hkept.store.max]
  exact hkept.store.count

end Attempts
end Soter.Soroban
