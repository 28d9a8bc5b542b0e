import Soter.Lib.FirstPage
import Soter.Soroban.ExecuteOnce

/-! What `detectStuckTransactions` reports as retryable, and when the scheduler does take it up: the queries
on a whole table of records, any of which is one that the lifecycle of `Lifecycle` has left. -/
namespace Soter.Soroban
open Soter.Tasks Soter.Runs Soter.FirstPages TrackedTransaction

variable {C K E : Type} {ChainReply : C → Type} {serve : (c : C) → Time → K → ChainReply c × K}

variable {s : Store K}

/-- The rows of the table that `getRetryableTransactions` asks for. -/
def readyRows (table : List TrackedTransaction) (now : Time) : List TrackedTransaction :=
  table.filter (·.ready now)

/-- `orderBy: { nextRetryAt: 'asc' }`; a row that is ready has such a time. -/
def TrackedTransaction.retryKey (tx : TrackedTransaction) : Time := tx.nextRetryAt.getD 0

def retryBatch : ℕ := 50

/-- `page` may be the answer of `getRetryableTransactions` at the time `now`. -/
def RetryPage (table : List TrackedTransaction) (now : Time) (page : List TrackedTransaction) : Prop :=
  FirstPage retryKey retryBatch (readyRows table now) page

/-- What `detectStuckTransactions` reports, in the order of the table. -/
def stuckTransactions (table : List TrackedTransaction) (now : Time) (thresholdMs : ℕ) :
    List (TrackedTransaction × StuckTransactionClassification × Time) :=
  (table.filter fun tx => tx.unfinished && tx.updatedAt < now - thresholdMs).map fun tx =>
    (tx, classifyStuckTransaction tx, now - tx.updatedAt)

theorem getRetryableTransactions_alone : ∃ page, RetryPage [s.transaction] s.now page ∧
      ((getRetryableTransactions : Handler ChainReply _).alone (perform serve) s).1 = .ok page := by
  refine ⟨(s.rows (·.ready s.now)).take 50, ?_, rfl⟩
  refine ⟨_, List.Perm.refl _, ?_, rfl⟩
  have hlength : (readyRows [s.transaction] s.now).length ≤ 1 := List.length_filter_le _ _
  cases hrows : readyRows [s.transaction] s.now with
  | nil => exact List.Pairwise.nil
  | cons tx rest =>
    rw [hrows, List.length_cons] at hlength
    rw [List.eq_nil_of_length_eq_zero (by omega : rest.length = 0)]
    exact List.pairwise_singleton _ _

theorem detectStuckTransactions_alone (thresholdMs : ℕ) :
    ((detectStuckTransactions thresholdMs : Handler ChainReply _).alone (perform serve) s).1.map
        (·.transactions) = .ok (stuckTransactions [s.transaction] s.now thresholdMs) := by
  rfl

section Invariant

/-- What the handlers ask of the record: no status but `submitted` is written by itself, and where an error
leaves the record to be retried it says when. -/
def WritesRetry : Query C → Prop
  | .updateTransactionStatus _ status _ => status = .submitted
  | .recordError _ error => error.shouldRetry = error.nextRetryAt.isSome
  | _ => True

def Dated (tx : SorobanTransaction String) : Prop := tx.status = .pending → tx.nextRetryAt.isSome = true

theorem dated_edit {q : Query C} {f : SorobanTransaction String → SorobanTransaction String}
    (h : q.edit s = some f) (hq : WritesRetry q) {tx : SorobanTransaction String} (_ : Dated tx) :
    Dated (f tx) := by
  cases q <;> simp only [Query.edit, Option.ite_none_right_eq_some, Option.some.injEq, reduceCtorEq] at h
  all_goals obtain ⟨-, rfl⟩ := h
  case updateTransactionStatus id status now =>
    intro hstatus
    rw [show status = .submitted from hq] at hstatus
    cases hstatus
  case confirm id txHash attemptNumber now => exact fun hstatus => by cases hstatus
  case expire createdBefore now => exact fun hstatus => by cases hstatus
  case resetForRetry id forceRetry now => exact fun _ => rfl
  case recordError id error =>
    intro hstatus
    have hretry : error.shouldRetry = true := by
      by_contra hnot
      have hfailed : error.status = .pending := hstatus
      rw [ErrorRecord.status, if_neg hnot] at hfailed
      cases hfailed
    have hdate : error.shouldRetry = error.nextRetryAt.isSome := hq
    exact hdate.symm.trans hretry

theorem dated_perform {q : Query C} (hq : WritesRetry q) (h : Dated s.transaction.toSorobanTransaction) :
    Dated (perform serve q s).2.transaction.toSorobanTransaction := by
  rw [transaction_perform]
  cases hedit : q.edit s with
  | none => exact h
  | some f => exact dated_edit hedit hq h

variable {onchainAdapter : AdapterCall → Handler ChainReply String} {event : E → C}

theorem Query.Outside.writesRetry : ∀ q : Query C, q.Outside → WritesRetry q
  | .clock, _ | .sleepUntil _, _ | .chain _, _ => trivial

theorem writesRetry_submitAttempt (hadapter : ∀ call, (onchainAdapter call).Asks Query.Outside) (id : String)
    (tx : TrackedTransaction) (attemptNumber : ℕ) :
    (submitAttempt onchainAdapter id tx attemptNumber).Asks WritesRetry := by
  have hmark : (updateTransactionStatus id .submitted : Handler ChainReply Unit).Asks WritesRetry :=
    ⟨trivial, fun _ => ⟨rfl, fun _ => trivial⟩⟩
  refine Task.Asks.bind (fun _ => ?_) hmark
  refine Task.Asks.bind (fun call => ?_) ((asks_adapterCall tx).mono Query.Outside.writesRetry)
  refine Task.Asks.bind (fun hash => ?_) ((hadapter call).mono Query.Outside.writesRetry)
  exact ⟨trivial, fun _ => ⟨trivial, fun _ => trivial⟩⟩

theorem writesRetry_handleTransactionError (id errorMessage : String) (attemptNumber jitter : ℕ) :
    (handleTransactionError id errorMessage attemptNumber jitter : Handler ChainReply Unit).Asks
      WritesRetry := by
  refine ⟨trivial, fun found => ?_⟩
  cases found with
  | none => trivial
  | some tx =>
    refine ⟨trivial, fun now => ⟨?_, fun _ => trivial⟩⟩
    -- the date is given exactly where the record is to be retried
    cases hretry : (classifyError errorMessage).isRetryable && decide (attemptNumber < tx.maxAttempts) <;> simp [WritesRetry]

theorem writesRetry_executeTransaction (hadapter : ∀ call, (onchainAdapter call).Asks Query.Outside)
    (jitter : ℕ) (id : String) : (executeTransaction onchainAdapter jitter id).Asks WritesRetry := by
  refine ⟨trivial, fun found => ?_⟩
  cases found with
  | none => trivial
  | some tx =>
    refine Task.asks_ite (fun _ => trivial) fun _ => ?_
    refine Task.Asks.bind (fun result => ?_) (writesRetry_submitAttempt hadapter id tx _).attempt
    cases result with
    | ok _ => trivial
    | error errorMessage => exact writesRetry_handleTransactionError id errorMessage _ jitter

theorem writesRetry_addRetryJobs : ∀ rows : List TrackedTransaction,
    (addRetryJobs rows : Handler ChainReply Unit).Asks WritesRetry
  | [] => trivial
  | _ :: rest => ⟨trivial, fun _ => writesRetry_addRetryJobs rest⟩

theorem writesRetry_process (hadapter : ∀ call, (onchainAdapter call).Asks Query.Outside)
    (pick jitter : ℕ) : (process onchainAdapter pick jitter).Asks WritesRetry := by
  refine ⟨trivial, fun taken => ?_⟩
  cases taken with
  | none => trivial
  | some job =>
    have hoperation : (runOperation onchainAdapter jitter job).Asks WritesRetry := by
      unfold runOperation
      cases job.operation with
      | execute | retry => exact writesRetry_executeTransaction hadapter jitter job.transactionId
      | cleanup => exact ⟨trivial, fun _ => ⟨trivial, fun _ => trivial⟩⟩
    refine Task.Asks.bind (fun _ => Task.asks_done _) (Task.Asks.bind (fun result => ?_) hoperation.attempt)
    cases result with
    | error error => trivial
    | ok _ => exact Task.asks_ite (fun _ => trivial) fun _ => ⟨trivial, fun _ => trivial⟩

theorem writesRetry_retryTransaction (hadapter : ∀ call, (onchainAdapter call).Asks Query.Outside)
    (jitter : ℕ) (id : String) (forceRetry : Bool) :
    (retryTransaction onchainAdapter jitter id forceRetry).Asks WritesRetry := by
  refine ⟨trivial, fun found => ?_⟩
  cases found with
  | none => trivial
  | some tx =>
    refine Task.asks_ite (fun _ => trivial) fun _ => Task.asks_ite (fun _ => trivial) fun _ => ?_
    refine ⟨trivial, fun now => ⟨trivial, fun reset => ?_⟩⟩
    exact Task.Asks.bind (fun _ => writesRetry_executeTransaction hadapter jitter id) (Task.asks_done reset)

theorem writesRetry_body (hadapter : ∀ call, (onchainAdapter call).Asks Query.Outside)
    (op : LifecycleOp E) : (op.body onchainAdapter event).Asks WritesRetry := by
  cases op with
  | scheduleTransaction id => exact ⟨trivial, fun _ => trivial⟩
  | scheduleRetryableTransactions =>
    exact ⟨trivial, fun _ => ⟨trivial, fun rows => writesRetry_addRetryJobs rows⟩⟩
  | cleanupExpiredTransactions => exact ⟨trivial, fun _ => trivial⟩
  | detectStuckTransactions thresholdMs => exact ⟨trivial, fun _ => ⟨trivial, fun _ => trivial⟩⟩
  | process pick jitter => exact writesRetry_process hadapter pick jitter
  | stalled job => exact ⟨trivial, fun _ => trivial⟩
  | retryTransaction id forceRetry jitter => exact writesRetry_retryTransaction hadapter jitter id forceRetry
  | elapse d | chain e => exact ⟨trivial, fun _ => trivial⟩

def Reached (tx : TrackedTransaction) : Prop :=
  ∃ (C K E : Type) (ChainReply : C → Type) (serve : (c : C) → Time → K → ChainReply c × K)
    (onchainAdapter : AdapterCall → Handler ChainReply String) (event : E → C) (s₀ : Store K)
    (tr : List (Transition (System K ChainReply E) (Turn (LifecycleOp E)))) (p : System K ChainReply E)
    (params : CreateSorobanTransactionParams String) (created : Time),
    (∀ call, (onchainAdapter call).Asks Query.Outside) ∧
      s₀.transaction.toSorobanTransaction = params.row created ∧
      Run (Pool.Step (perform serve) (LifecycleOp.body onchainAdapter event)) { store := s₀ } tr p ∧
      p.store.transaction = tx

theorem Reached.dated {tx : TrackedTransaction} (h : Reached tx) : Dated tx.toSorobanTransaction := by
  obtain ⟨C, K, E, ChainReply, serve, onchainAdapter, event, s₀, tr, p, params, created, hadapter, hs₀, hrun, rfl⟩ := h
  refine Pool.run_invariant (I := fun s : Store K => Dated s.transaction.toSorobanTransaction)
    (C := fun q _ => WritesRetry q) hrun ?_ ?_ fun q s hq hs => dated_perform hq hs
  · rw [hs₀]
    exact fun _ => rfl
  · intro t ht q hq
    obtain ⟨op, hop⟩ := Pool.request_of_asked hq
    exact Pool.asks_of_run (writesRetry_body hadapter) hrun ht hop

end Invariant
section Actionable
variable {table : List TrackedTransaction} {tx row : TrackedTransaction} {now t age : Time} {thresholdMs : ℕ}

/-- The record is taken up at some time if it is left alone, whichever of the records with one time the
database puts first; and the cleanup expires it, should it be there for too long. -/
structure Actionable (table : List TrackedTransaction) (tx : TrackedTransaction) (now : Time) : Prop where
  retried : ∃ t, now ≤ t ∧ ∀ page, RetryPage table t page → tx ∈ page
  expires : ∀ (C K : Type) (ChainReply : C → Type) (serve : (c : C) → Time → K → ChainReply c × K)
    (s : Store K), s.transaction = tx → tx.createdAt + transactionExpiryMs < s.now →
      ((markExpiredTransactions : Handler ChainReply ℕ).alone (perform serve) s).2.transaction.status =
        .expired

theorem ready_iff : tx.ready now = true ↔ tx.status = .pending ∧ tx.isRetryable = true ∧
    (∃ t ∈ tx.nextRetryAt, t ≤ now) ∧ tx.attemptCount < tx.maxAttempts := by
  rw [ready, decide_eq_true_iff]

/-- The rows that come up to `tx` at a later time are those that were ready when it became so. -/
theorem upTo_readyRows (ht : tx.retryKey ≤ t) :
    upTo retryKey (readyRows table t) tx = readyRows table tx.retryKey := by
  rw [upTo, readyRows, readyRows, List.filter_filter]
  congr 1
  funext row
  rw [Bool.eq_iff_iff, Bool.and_eq_true, decide_eq_true_iff, ready_iff, ready_iff]
  constructor
  · rintro ⟨hkey, hstatus, hretry, ⟨next, hnext, -⟩, hbudget⟩
    rw [retryKey, show row.nextRetryAt = some next from hnext, Option.getD_some] at hkey
    exact ⟨hstatus, hretry, ⟨next, hnext, hkey⟩, hbudget⟩
  · rintro ⟨hstatus, hretry, ⟨next, hnext, hle⟩, hbudget⟩
    refine ⟨?_, hstatus, hretry, ⟨next, hnext, hle.trans ht⟩, hbudget⟩
    rw [retryKey, show row.nextRetryAt = some next from hnext, Option.getD_some]
    exact hle

theorem retryKey_le_of_ready (h : tx.ready t = true) : tx.retryKey ≤ t := by
  obtain ⟨-, -, ⟨next, hnext, hle⟩, -⟩ := ready_iff.mp h
  rw [retryKey, show tx.nextRetryAt = some next from hnext]
  exact hle

theorem nodup_readyRows (hids : (table.map (·.id)).Nodup) : (readyRows table t).Nodup :=
  (List.Nodup.of_map _ hids).filter _

theorem mem_stuckTransactions (h : (tx, .retryable, age) ∈ stuckTransactions table now thresholdMs) :
    tx ∈ table ∧ tx.unfinished = true ∧ tx.isRetryable = true ∧ tx.attemptCount < tx.maxAttempts := by
  obtain ⟨tx', hmem, heq⟩ := List.mem_map.mp h
  obtain ⟨rfl, hrest⟩ := Prod.mk.inj heq
  obtain ⟨hclass, -⟩ := Prod.mk.inj hrest
  obtain ⟨htable, hstuck⟩ := List.mem_filter.mp hmem
  refine ⟨htable, (Bool.and_eq_true_iff.mp hstuck).1, ?_⟩
  by_contra hnot
  rw [classifyStuckTransaction, if_neg hnot] at hclass
  cases hclass

theorem expires_of_unfinished (hunfinished : tx.unfinished = true) (s : Store K) (hs : s.transaction = tx)
    (hlate : tx.createdAt + transactionExpiryMs < s.now) :
    ((markExpiredTransactions : Handler ChainReply ℕ).alone (perform serve) s).2.transaction.status =
      .expired := by
  have hold : s.transaction.unfinished = true ∧ s.transaction.createdAt < s.now - transactionExpiryMs := by
    rw [hs]
    exact ⟨hunfinished, Int.lt_sub_right_of_add_lt hlate⟩
  change (perform serve (.expire (s.now - transactionExpiryMs) s.now) s).2.transaction.status = .expired
  rw [transaction_perform, Query.edit, if_pos hold]
  rfl

/-- For every record that the lifecycle can leave, in every table and at every time: if it is reported as
retryable, it is taken up and else expires if and only if it is pending, and no more than a batch of rows is
due by the time that it is. -/
theorem stuck_actionable_iff (hreached : Reached tx) (hids : (table.map (·.id)).Nodup)
    (hreport : (tx, .retryable, age) ∈ stuckTransactions table now thresholdMs) : Actionable table tx now ↔
      tx.status = .pending ∧ (readyRows table tx.retryKey).length ≤ retryBatch := by
  obtain ⟨htable, hunfinished, hretry, hbudget⟩ := mem_stuckTransactions hreport
  constructor
  · rintro ⟨⟨t, -, hpages⟩, -⟩
    have hmem : tx ∈ readyRows table t :=
      (firstPage_sortBy retryKey retryBatch (readyRows table t)).subset
        (hpages _ (firstPage_sortBy _ _ _))
    have hready := (List.mem_filter.mp hmem).2
    refine ⟨(ready_iff.mp hready).1, ?_⟩
    rw [← upTo_readyRows (retryKey_le_of_ready hready)]
    exact (mem_every_page_iff (nodup_readyRows hids) hmem).mp hpages
  · rintro ⟨hstatus, hbatch⟩
    refine ⟨⟨max now tx.retryKey, le_max_left _ _, ?_⟩, ?_⟩
    · obtain ⟨next, hnext⟩ := Option.isSome_iff_exists.mp (hreached.dated hstatus)
      have hkey : tx.retryKey = next := by rw [retryKey, hnext, Option.getD_some]
      have hready : tx.ready (max now tx.retryKey) = true :=
        ready_iff.mpr ⟨hstatus, hretry, ⟨next, hnext, hkey ▸ le_max_right _ _⟩, hbudget⟩
      have hmem : tx ∈ readyRows table (max now tx.retryKey) := List.mem_filter.mpr ⟨htable, hready⟩
      apply (mem_every_page_iff (nodup_readyRows hids) hmem).mpr
      rw [upTo_readyRows (le_max_right _ _)]
      exact hbatch
    · exact fun C K ChainReply serve s hs hlate => expires_of_unfinished hunfinished s hs hlate

end Actionable

def leftSubmitted : List (Turn SubmissionOp) :=
  [.start (.scheduleTransaction "tx"), .advance 0, .start (.process 0 0), .advance 1, .advance 1, .advance 1,
    .advance 1]

theorem reached_played (turns : List (Turn SubmissionOp)) : Reached (played turns).2.store.transaction :=
  ⟨_, _, _, _, _, _, _, _, _, _, sampleParams, 0, asks_anyAdapter, rfl, played_run turns, rfl⟩

theorem stuck_actionable_iff_new : Actionable [sampleRecord] sampleRecord 600001 := by
  have hids : ([sampleRecord].map (·.id)).Nodup := List.nodup_singleton _
  have hreport : (sampleRecord, .retryable, 600001) ∈ stuckTransactions [sampleRecord] 600001 600000 := by
    decide +kernel
  have hreached : Reached sampleRecord := reached_played []
  exact (stuck_actionable_iff hreached hids hreport).mpr (by decide +kernel)

theorem stuck_submitted :
    Run SubmissionStep { store := sampleStore } (played leftSubmitted).1 (played leftSubmitted).2 ∧
      ((played leftSubmitted).2.store.transaction, .retryable, 600001) ∈
        stuckTransactions [(played leftSubmitted).2.store.transaction] 600001 600000 ∧
      ∀ t page, RetryPage [(played leftSubmitted).2.store.transaction] t page →
        (played leftSubmitted).2.store.transaction ∉ page := by
  have hstatus : (played leftSubmitted).2.store.transaction.status = .submitted := by
    decide +kernel
  refine ⟨played_run _, by decide +kernel, fun t page hpage hmem => ?_⟩
  have hready := (ready_iff.mp (List.mem_filter.mp (hpage.subset hmem)).2).1
  rw [hstatus] at hready
  cases hready

end Soter.Soroban
