import Soter.Claims.Onchain
import Soter.Claims.StatusMachine

/-! How many Soroban transactions a claim gets. `disburse` creates one after a check of the status
and before the guarded transition, and creates it whatever becomes of the transition. -/
namespace Soter.Claims
open Std Soter.Fallible Soter.Tasks Soter.Runs Soter.Soroban Soter.MapSum List

abbrev OnchainTransition := Transition OnchainSystem (Turn OnchainOp)

variable {services : Services} {db : Db} {s : OnchainSystem} {tr : List OnchainTransition}
  {t u : OnchainTransition} {id : ClaimId} {i : ℕ}

/-- The transaction `a` was created to disburse the claim `id`. -/
def OnchainDb.Disburses (s : OnchainDb) (a : TransactionId) (id : ClaimId) : Prop :=
  ∃ tx, s.transactions[a]? = some tx ∧ tx.claimId = some id ∧ tx.operation = .disburseClaim

instance (s : OnchainDb) (a : TransactionId) (id : ClaimId) : Decidable (s.Disburses a id) :=
  decidable_of_iff (∃ tx ∈ s.transactions[a]?, tx.claimId = some id ∧ tx.operation = .disburseClaim) Iff.rfl

def OnchainQuery.creates : OnchainQuery → OnchainDb → Option ClaimId
  | .createTransaction newId params _, s =>
    if s.transactions[newId]? = none ∧ params.operation = .disburseClaim then params.claimId else none
  | _, _ => none

def OnchainQuery.touches : OnchainQuery → Option ClaimId
  | .claims q => q.writes.map (·.1)
  | .createTransaction _ params _ => params.claimId
  | .scheduleTransaction .. => none

def OnchainQuery.disburses : OnchainQuery → Option ClaimId
  | .claims (.setStatus id .disbursed) => some id
  | _ => none

def OnchainQuery.writes : OnchainQuery → Option (ClaimId × ClaimStatus)
  | .claims q => q.writes
  | _ => none

/-- What a call goes on to once its transaction is created: if it finds the claim approved, it writes
that the claim is disbursed. -/
inductive Committed {α : Type} (id : ClaimId) : OnchainHandler α → Prop
  | disburse {next : Except Failure Claim → OnchainHandler α} :
      Committed id (.ask (.claims (.setStatus id .disbursed)) next)
  | find {next : Option Claim → OnchainHandler α}
      (approved : ∀ row : Claim, row.status = .approved → Committed id (next (some row))) :
      Committed id (.ask (.claims (.findClaim id)) next)
  | schedule {job : SorobanTransactionJob} {queue : Except Failure Unit}
      {next : Except Failure Unit → OnchainHandler α} (either : ∀ reply, Committed id (next reply)) :
      Committed id (.ask (.scheduleTransaction job queue) next)

def creates (t : OnchainTransition) : Option ClaimId :=
  (t.pre.asked t.label).bind (·.creates t.pre.store)

def touches (t : OnchainTransition) : Option ClaimId := (t.pre.asked t.label).bind (·.touches)

def disburses (t : OnchainTransition) : Option ClaimId := (t.pre.asked t.label).bind (·.disburses)

/-- Between the places `m` and `n` of a run, the call that advances in `t` writes its claim as
disbursed. -/
def WrittenBetween (tr : List OnchainTransition) (t : OnchainTransition) (id : ClaimId) (m n : ℕ) :
    Prop :=
  ∃ k < n, m < k ∧ ∃ v ∈ tr[k]?, v.label.thread = t.label.thread ∧ disburses v = some id

instance (m n : ℕ) : Decidable (WrittenBetween tr t id m n) :=
  inferInstanceAs (Decidable (∃ k < n, m < k ∧ ∃ v ∈ tr[k]?, v.label.thread = t.label.thread ∧ disburses v = some id))

/-- A run in which disbursements of one claim do not get in the way of each other or of other calls. -/
structure DisbursesInTurn (tr : List OnchainTransition) : Prop where
  /-- A transaction is created while its claim is still approved. -/
  created : ∀ t ∈ tr, ∀ id ∈ creates t, ∃ row ∈ t.pre.store.db.claims[id]?, row.status = .approved
  /-- From then on until its call writes the status, no other call touches the claim. -/
  undisturbed : ∀ n < tr.length, ∀ u ∈ tr[n]?, ∀ m < n, ∀ t ∈ tr[m]?, ∀ id ∈ creates t,
    touches u = some id → u.label.thread ≠ t.label.thread → WrittenBetween tr t id m n
  /-- Once a claim has a transaction, its status is written while the check of the call still
  passes. -/
  later : ∀ t ∈ tr, ∀ op q, t.pre.request t.label = some (op, q) → ∀ w ∈ q.writes,
    (∃ a, t.pre.store.Disburses a w.1) → ∀ row ∈ t.pre.store.db.claims[w.1]?,
      op.onClaims.Admits row.status

structure DisbursedOnce (tr : List OnchainTransition) : Prop where
  once : ∀ t ∈ tr, ∀ id a b, t.post.store.Disburses a id → t.post.store.Disburses b id → a = b
  /-- When the call that created a transaction has ended, and at every point after that, the claim
  is disbursed, or archived after it. -/
  settled : ∀ (m n : ℕ) (t u : OnchainTransition), m ≤ n → tr[m]? = some t → tr[n]? = some u → ∀ (i : ℕ) (id : ClaimId),
    t.label = .advance i → creates t = some id →
      (∃ thread : OnchainOp × OnchainHandler Unit, u.post.threads[i]? = some thread ∧
        thread.2.isDone = true) →
        ∃ row : Claim, u.post.store.db.claims[id]? = some row ∧
          (row.status = .disbursed ∨ row.status = .archived)

section Bodies

variable {α β : Type} {P : Query → Prop}

theorem onClaims_asks {t : Handler α} (h : t.Asks P) : (onClaims t).Asks fun q => ∃ q', q = .claims q' ∧ P q' :=
  h.lift fun q hq => ⟨q, rfl, hq⟩

def OnchainOp.Asks (op : OnchainOp) (q : OnchainQuery) : Prop :=
  ∀ q', q = .claims q' → op.onClaims.Asks q'

theorem onClaims_asks_op {op : OnchainOp} {t : Handler α} (h : t.Asks op.onClaims.Asks) : (onClaims t).Asks op.Asks := by
  apply (onClaims_asks h).mono
  rintro q ⟨q', rfl, hq'⟩ q'' hq''
  cases hq''
  exact hq'

theorem createDisbursement_asks {P : OnchainQuery → Prop} {receiptPointer : Option String}
    {ctx : OnchainContext} {claim : Claim} (hcreate : ∀ a params now, P (.createTransaction a params now))
    (hschedule : ∀ job queue, P (.scheduleTransaction job queue)) :
    (createDisbursement services id receiptPointer ctx claim).Asks P := by
  refine Task.Asks.bind (fun packageId => ?_) (Task.asks_done _)
  refine Task.Asks.bind (fun recipientAddress => ?_) (Task.asks_done _)
  refine Task.Asks.bind (fun transactionId => ?_) ⟨hcreate _ _ _, fun _ => trivial⟩
  exact Task.Asks.bind (fun _ => Task.asks_done _) ⟨hschedule _ _, fun _ => trivial⟩

theorem onchainBody_asks (services : Services) (op : OnchainOp) : (op.body services).Asks op.Asks := by
  cases op with
  | other op notDisburse => exact onClaims_asks_op (body_asks services op)
  | disburse id receiptPointer ctx =>
    have hrest (claim : Claim) : (disburseApproved services id receiptPointer ctx claim).Asks
        (OnchainOp.disburse id receiptPointer ctx).Asks := by
      refine Task.Asks.bind (fun _ => ?_) (createDisbursement_asks ?_ ?_).attempt
      · exact onClaims_asks_op (asks_transitionStatus .findDisbursed .disburse)
      · exact fun _ _ _ q' hq' => nomatch hq'
      · exact fun _ _ q' hq' => nomatch hq'
    refine Task.Asks.bind (fun _ => Task.asks_done _) ?_
    refine Task.Asks.bind (fun found => ?_) (onClaims_asks_op (asks_findClaim .findDisbursed))
    refine Task.Asks.bind (fun claim => ?_) (Task.asks_done _)
    refine Task.Asks.bind (fun _ => ?_) (Task.asks_done _)
    cases receiptPointer.filter (· ≠ "") with
    | none => exact hrest claim
    | some pointer =>
      refine Task.Asks.bind (fun _ => hrest claim) (onClaims_asks_op ?_)
      exact ⟨.pointToReceipt pointer, fun _ => trivial⟩

theorem Committed.bind {t : OnchainHandler α} (f : α → OnchainHandler β) (h : Committed id t) : Committed id (t.bind f) := by
  induction h with
  | disburse => exact .disburse
  | find _ ih => exact .find ih
  | schedule _ ih => exact .schedule ih

def CommitsCreator {α : Type} (t : OnchainHandler α) : Prop :=
  ∀ newId params now next, t = .ask (.createTransaction newId params now) next →
    ∀ id ∈ params.claimId, ∀ a, Committed id (next (.ok a))

theorem transition_committed (id : ClaimId) :
    Committed id (onClaims (transitionStatus id .approved .disbursed)) := by
  apply Committed.find
  intro row hrow
  cases row
  -- the check passes
  cases hrow
  exact .disburse

theorem onClaims_commits {t : Handler α} (h : t.Asks P) : (onClaims t).Throughout CommitsCreator := by
  apply (onClaims_asks h).throughout
  · intro result newId params now next hask
    cases hask
  · rintro r next ⟨q, rfl, -⟩ newId params now next' hask
    cases hask

theorem done_commits (result : Except Failure α) : (Task.done result : OnchainHandler α).Throughout CommitsCreator := by
  intro newId params now next hask
  cases hask

theorem CommitsCreator.bind {f : α → OnchainHandler β} {r : OnchainQuery}
    {next : r.Reply → OnchainHandler α} (h : CommitsCreator (.ask r next)) :
    CommitsCreator (.ask r fun reply => (next reply).bind f) := by
  intro newId params now next' hask id hid a
  cases hask
  exact (h newId params now next rfl id hid a).bind f

variable (services) in
theorem disburseApproved_commits (id : ClaimId) (receiptPointer : Option String) (ctx : OnchainContext)
    (claim : Claim) : (disburseApproved services id receiptPointer ctx claim).Throughout CommitsCreator := by
  have hasks : (transitionStatus id .approved .disbursed).Asks fun _ => True :=
    asks_transitionStatus trivial trivial
  have hrest := onClaims_commits hasks
  unfold disburseApproved createDisbursement
  cases getPackageIdForClaim id ctx with
  | error e => exact hrest
  | ok packageId =>
    cases services.decrypt claim.recipientRef with
    | error e => exact hrest
    | ok recipientAddress =>
      refine ⟨?_, fun created => ?_⟩
      · intro newId params now next hask a ha tx
        cases hask
        cases ha
        apply Committed.schedule
        intro reply
        cases reply <;> exact transition_committed id
      · cases created with
        | error e => exact hrest
        | ok tx =>
          refine ⟨?_, fun reply => ?_⟩
          · intro newId params now next hask
            cases hask
          · cases reply <;> exact hrest

theorem onchainBody_commits (services : Services) (op : OnchainOp) : (op.body services).Throughout CommitsCreator := by
  have herror {α : Type} (e : Failure) : CommitsCreator (Task.done (.error e) : OnchainHandler α) := by
    intro newId params now next hask
    cases hask
  have hbind {α β : Type} {f : α → OnchainHandler β} {t : OnchainHandler α}
      (hf : ∀ a, (f a).Throughout CommitsCreator) (ht : t.Throughout CommitsCreator) :
      (t.bind f).Throughout CommitsCreator :=
    ht.bind (fun _ _ h => h.bind) hf herror
  cases op with
  | other op notDisburse => exact onClaims_commits (body_asks services op)
  | disburse id receiptPointer ctx =>
    refine hbind (fun _ => done_commits _) ?_
    refine hbind (fun found => ?_) (onClaims_commits (P := fun _ => True) (asks_findClaim trivial))
    refine hbind (fun claim => ?_) (done_commits _)
    refine hbind (fun _ => ?_) (done_commits _)
    have hrest := disburseApproved_commits services id receiptPointer ctx claim
    cases receiptPointer.filter (· ≠ "") with
    | none => exact hrest
    | some pointer =>
      refine hbind (fun _ => hrest) (onClaims_commits (P := fun _ => True) ?_)
      exact ⟨trivial, fun _ => trivial⟩

end Bodies

theorem OnchainStep.row (hstep : OnchainStep services t.pre t.label t.post) {row : Claim}
    (hrow : t.pre.store.db.claims[id]? = some row) :
    ∃ row', t.post.store.db.claims[id]? = some row' ∧ (row'.status = row.status ∨
      ∃ op q, t.pre.request t.label = some (op, .claims q) ∧ q.writes = some (id, row'.status)) := by
  rcases hstep.request_cases with ⟨-, hstore⟩ | ⟨op, q, hrequest, hstore⟩
  · exact ⟨row, by rw [hstore, hrow], .inl rfl⟩
  · have hdb := performOnchain_alike services q t.pre.store
    rw [hstore]
    cases q with
    | claims q =>
      obtain ⟨row', hrow', hrewrites⟩ := (perform_rows services q t.pre.store.db).row hrow
      refine ⟨row', hrow', hrewrites.status.imp_right fun hwrites => ⟨op, q, hrequest, hwrites⟩⟩
    | createTransaction newId params now | scheduleTransaction job queue => exact ⟨row, by rw [hdb, hrow], .inl rfl⟩

theorem OnchainStep.transactions (hstep : OnchainStep services t.pre t.label t.post) :
    t.post.store.transactions = t.pre.store.transactions ∨ ∃ newId params now,
      t.pre.asked t.label = some (.createTransaction newId params now) ∧ t.pre.store.transactions[newId]? = none ∧
        t.post.store.transactions = t.pre.store.transactions.insert newId (params.row now) := by
  rcases hstep.store with ⟨-, hstore⟩ | ⟨q, hasked, hstore⟩
  · exact .inl (by rw [hstore])
  rw [hstore]
  cases q with
  | claims q => exact .inl rfl
  | scheduleTransaction job queue =>
    refine .inl (commit_keeps (P := fun s' : OnchainDb => s'.transactions = t.pre.store.transactions) rfl fun _ s' h => ?_)
    simp only [scheduleTransactionTx, bind_eq_ok, exists_unit, pure_eq_ok] at h
    obtain ⟨-, hres⟩ := h
    cases hres
    rfl
  | createTransaction newId params now =>
    rcases commit_cases (createTransactionTx newId params now t.pre.store) t.pre.store with
      ⟨e, -, hcommit⟩ | ⟨a, s', htx, hcommit⟩
    · exact .inl (congrArg (·.2.transactions) hcommit)
    · simp only [createTransactionTx, bind_eq_ok, exists_unit, pure_eq_ok, require_eq_ok] at htx
      obtain ⟨hfresh, hres⟩ := htx
      cases hres
      refine .inr ⟨newId, params, now, hasked, by simpa using hfresh, ?_⟩
      exact congrArg (·.2.transactions) hcommit

theorem OnchainStep.disburses (hstep : OnchainStep services t.pre t.label t.post) {a : TransactionId}
    (h : t.pre.store.Disburses a id) : t.post.store.Disburses a id := by
  obtain ⟨tx, htx, hclaim⟩ := h
  refine ⟨tx, ?_, hclaim⟩
  rcases OnchainStep.transactions hstep with hsame | ⟨newId, params, now, -, hfresh, hnew⟩
  · rw [hsame, htx]
  · have hne : a ≠ newId := by
      rintro rfl
      rw [htx] at hfresh
      cases hfresh
    rw [hnew, get_insert_of_ne hne, htx]

theorem createTransactionTx_fresh {newId : TransactionId} {params : CreateSorobanTransactionParams ClaimId}
    {now : Time} {s : OnchainDb} (hfresh : s.transactions[newId]? = none) :
    createTransactionTx newId params now s =
      .ok (newId, { s with transactions := s.transactions.insert newId (params.row now) }) := by
  simp only [createTransactionTx, bind_eq_ok, exists_unit, pure_eq_ok, require_eq_ok]
  exact ⟨by simpa using hfresh, trivial⟩

theorem creates_eq_some (h : creates t = some id) : ∃ newId params now,
    t.pre.asked t.label = some (.createTransaction newId params now) ∧
      t.pre.store.transactions[newId]? = none ∧ params.operation = .disburseClaim ∧
        params.claimId = some id := by
  obtain ⟨q, hasked, hq⟩ := Option.bind_eq_some_iff.mp h
  cases q with
  | claims q | scheduleTransaction job queue => cases hq
  | createTransaction newId params now =>
    simp only [OnchainQuery.creates] at hq
    split at hq
    · rename_i hboth
      exact ⟨newId, params, now, hasked, hboth.1, hboth.2, hq⟩
    · cases hq

theorem OnchainStep.created (hstep : OnchainStep services t.pre t.label t.post) {a : TransactionId}
    (h : t.post.store.Disburses a id) : t.pre.store.Disburses a id ∨ creates t = some id ∧
      ∃ params now, t.pre.asked t.label = some (.createTransaction a params now) := by
  obtain ⟨tx, htx, hclaim, hoperation⟩ := h
  rcases OnchainStep.transactions hstep with hsame | ⟨newId, params, now, hasked, hfresh, hnew⟩
  · exact .inl ⟨tx, by rw [← hsame, htx], hclaim, hoperation⟩
  · rw [hnew, get_insert] at htx
    split at htx
    · rename_i ha
      cases htx
      have hcreates : creates t = params.claimId := by
        rw [creates, hasked]
        exact if_pos ⟨hfresh, hoperation⟩
      rw [ha]
      exact .inr ⟨hcreates.trans hclaim, params, now, hasked⟩
    · exact .inl ⟨tx, htx, hclaim, hoperation⟩

theorem OnchainStep.creates (hstep : OnchainStep services t.pre t.label t.post)
    (h : creates t = some id) : ∃ a, t.post.store.Disburses a id := by
  obtain ⟨newId, params, now, hasked, hfresh, hoperation, hclaim⟩ := creates_eq_some h
  refine ⟨newId, params.row now, ?_, hclaim, hoperation⟩
  rw [Pool.Step.store_of_asked hstep hasked, performOnchain, commit_ok (createTransactionTx_fresh hfresh)]
  exact (get_insert _ _ _ _).trans (if_pos rfl)

/-- The call `i` has created a transaction for the claim and has its write still to come. -/
def Pending (s : OnchainSystem) (i : ℕ) (id : ClaimId) : Prop :=
  (∃ op task, s.threads[i]? = some (op, task) ∧ Committed id task) ∧
    ∃ row, s.store.db.claims[id]? = some row ∧ row.status = .approved

def Settled (s : OnchainSystem) (id : ClaimId) : Prop :=
  ∃ row, s.store.db.claims[id]? = some row ∧ (row.status = .disbursed ∨ row.status = .archived)

theorem Pending.own (h : Pending t.pre i id) (hstep : OnchainStep services t.pre t.label t.post)
    (hi : t.label = .advance i) : (Pending t.post i id ∧ disburses t ≠ some id) ∨ Settled t.post id := by
  obtain ⟨⟨op, task, hthread, hcommitted⟩, row, hrow, hstatus⟩ := h
  rw [hi] at hstep
  cases hcommitted with
  | @disburse next =>
    obtain ⟨hstore, -⟩ := hstep.thread_advances hthread
    have hdone : setStatusTx id .disbursed t.pre.store.db = .ok ({ row with status := .disbursed },
        { t.pre.store.db with
          claims := t.pre.store.db.claims.insert id { row with status := .disbursed } }) :=
      updateClaim_eq_ok.mpr ⟨row, hrow, rfl⟩
    refine .inr ⟨{ row with status := .disbursed }, ?_, .inl rfl⟩
    rw [hstore, performOnchain, perform, commit_ok hdone]
    exact (get_insert _ _ _ _).trans (if_pos rfl)
  | @find next happroved =>
    obtain ⟨hstore, hthread'⟩ := hstep.thread_advances hthread
    have hreply : (performOnchain services (.claims (.findClaim id)) t.pre.store).1 = some row := hrow
    rw [hreply] at hthread'
    refine .inl ⟨⟨⟨op, _, hthread', happroved row hstatus⟩, row, ?_, hstatus⟩, ?_⟩
    · rw [hstore]
      exact hrow
    · simp [disburses, hi, Pool.asked, hthread, OnchainQuery.disburses]
  | @schedule job queue next heither =>
    obtain ⟨hstore, hthread'⟩ := hstep.thread_advances hthread
    refine .inl ⟨⟨⟨op, _, hthread', heither _⟩, row, ?_, hstatus⟩, ?_⟩
    · rw [hstore, performOnchain_alike services (.scheduleTransaction job queue) t.pre.store]
      exact hrow
    · simp [disburses, hi, Pool.asked, hthread, OnchainQuery.disburses]

theorem Pending.others (h : Pending t.pre i id) (hstep : OnchainStep services t.pre t.label t.post)
    (hi : t.label ≠ .advance i) (htouches : touches t ≠ some id) : Pending t.post i id := by
  obtain ⟨⟨op, task, hthread, hcommitted⟩, row, hrow, hstatus⟩ := h
  have hthread' := hstep.thread_stays hi hthread
  obtain ⟨row', hrow', hsame | ⟨op', q, hrequest, hwrites⟩⟩ := OnchainStep.row hstep hrow
  · exact ⟨⟨op, task, hthread', hcommitted⟩, row', hrow', hsame.trans hstatus⟩
  · have htouched : touches t = some id := by
      rw [touches, Pool.asked_of_request hrequest, Option.bind_some, OnchainQuery.touches, hwrites]
      rfl
    exact absurd htouched htouches

theorem Settled.step (h : Settled t.pre id) (hstep : OnchainStep services t.pre t.label t.post)
    (hasks : ∀ op q, t.pre.request t.label = some (op, q) → op.Asks q)
    (hadmits : ∀ op q, t.pre.request t.label = some (op, q) → ∀ w ∈ q.writes, w.1 = id →
      ∀ row ∈ t.pre.store.db.claims[id]?, op.onClaims.Admits row.status) : Settled t.post id := by
  obtain ⟨row, hrow, hstatus⟩ := h
  obtain ⟨row', hrow', hsame | ⟨op, q, hrequest, hwrites⟩⟩ := OnchainStep.row hstep hrow
  · exact ⟨row', hrow', by rw [hsame]; exact hstatus⟩
  · have hadmitted := hadmits op _ hrequest (id, row'.status) hwrites rfl row hrow
    rcases statusMove_of_admits (hasks op _ hrequest q rfl) hwrites hadmitted with hsame | hmove
    · exact ⟨row', hrow', by rw [hsame]; exact hstatus⟩
    · exact ⟨row', hrow', closed_disbursed _ _ _ hmove hstatus⟩

theorem Pending.created (hstep : OnchainStep services t.pre t.label t.post)
    (hcreates : creates t = some id) (hi : t.label = .advance i)
    (hcommits : ∀ thread ∈ t.pre.threads, thread.2.Throughout CommitsCreator)
    (hrow : ∃ row ∈ t.pre.store.db.claims[id]?, row.status = .approved) : Pending t.post i id := by
  obtain ⟨newId, params, now, hasked, hfresh, hoperation, hclaim⟩ := creates_eq_some hcreates
  obtain ⟨row, hrow, hstatus⟩ := hrow
  obtain ⟨op, hrequest⟩ := Pool.request_of_asked hasked
  obtain ⟨j, next, hj, hthread⟩ := Pool.request_eq_some hrequest
  rw [hi] at hj hstep
  cases hj
  have hcommitted := (hcommits _ (mem_of_getElem? hthread)).here newId params now next rfl id hclaim
  obtain ⟨hstore, hthread'⟩ := hstep.thread_advances hthread
  rw [performOnchain, commit_ok (createTransactionTx_fresh hfresh)] at hthread' hstore
  refine ⟨⟨op, _, hthread', hcommitted newId⟩, row, ?_, hstatus⟩
  rw [hstore]
  exact hrow

section Runs
variable {m : ℕ}

variable {a : TransactionId}

theorem DisbursesInTurn.before {after : List OnchainTransition} (h : DisbursesInTurn (tr ++ after)) :
    DisbursesInTurn tr where
  created t ht := h.created t (mem_append_left _ ht)
  later t ht := h.later t (mem_append_left _ ht)
  undisturbed n hn u hu k hk t ht id hid htouches hne := by
    have hleft {j : ℕ} (hj : j < tr.length) : (tr ++ after)[j]? = tr[j]? :=
      getElem?_append_left hj
    have hlength : n < (tr ++ after).length := by
      rw [length_append]
      omega
    rw [← hleft hn] at hu
    rw [← hleft (hk.trans hn)] at ht
    obtain ⟨j, hjn, hkj, v, hv, hrest⟩ := h.undisturbed n hlength u hu k hk t ht id hid htouches hne
    rw [hleft (hjn.trans hn)] at hv
    exact ⟨j, hjn, hkj, v, hv, hrest⟩

theorem Run.has_disbursement (hrun : Run (OnchainStep services) (onchainIdle db) tr s) (ht : t ∈ tr)
    (hcreates : creates t = some id) : ∃ a, s.store.Disburses a id := by
  obtain ⟨before, after, rfl⟩ := append_of_mem ht
  obtain ⟨-, hstep, hafter⟩ := hrun.split
  apply hafter.invariant (I := fun p => ∃ a, p.store.Disburses a id) (C := fun _ => True)
    (OnchainStep.creates hstep hcreates) (fun _ _ => trivial)
  intro u hu _ ⟨a, ha⟩
  exact ⟨a, OnchainStep.disburses hu ha⟩

theorem Run.creator (hrun : Run (OnchainStep services) (onchainIdle db) tr s)
    (h : s.store.Disburses a id) : ∃ t ∈ tr, creates t = some id := by
  induction hrun with
  | nil =>
    obtain ⟨tx, htx, -⟩ := h
    simp [onchainIdle] at htx
  | @snoc before p l p' hbefore hstep ih =>
    rcases OnchainStep.created (t := ⟨p, l, p'⟩) hstep h with hold | ⟨hnew, -⟩
    · obtain ⟨t, ht, hcreates⟩ := ih hold
      exact ⟨t, mem_append_left _ ht, hcreates⟩
    · exact ⟨⟨p, l, p'⟩, by simp, hnew⟩

theorem DisbursesInTurn.untouched (h : DisbursesInTurn (tr ++ [u])) (ht : tr[m]? = some t)
    (hcreates : creates t = some id) (hi : t.label = .advance i)
    (hnone : ∀ k v, m < k → tr[k]? = some v → v.label.thread = some i → disburses v ≠ some id)
    (hu : u.label ≠ .advance i) : touches u ≠ some id := by
  intro htouches
  have hm : m < tr.length := (List.getElem?_eq_some_iff.mp ht).1
  have hlast : (tr ++ [u])[tr.length]? = some u := by simp
  have hne : u.label.thread ≠ t.label.thread := by
    rw [hi]
    cases hl : u.label with
    | start op => simp [Turn.thread]
    | advance j =>
      rw [hl] at hu
      simpa [Turn.thread] using hu
  obtain ⟨k, hk, hmk, v, hv, hthread, hdisburses⟩ := h.undisturbed tr.length (by simp) u hlast m hm t
    ((getElem?_append_left hm).trans ht) id hcreates htouches hne
  rw [getElem?_append_left hk] at hv
  rw [hi] at hthread
  exact hnone k v hmk hv hthread hdisburses

theorem Run.phases (hrun : Run (OnchainStep services) (onchainIdle db) tr s)
    (hturn : DisbursesInTurn tr) (ht : tr[m]? = some t) (hcreates : creates t = some id)
    (hi : t.label = .advance i) : (Pending s i id ∧ ∀ k v, m < k → tr[k]? = some v → v.label.thread = some i →
      disburses v ≠ some id) ∨ Settled s id := by
  have hasks (u : OnchainTransition) (hu : u ∈ tr) (op : OnchainOp) (q : OnchainQuery)
      (hrequest : u.pre.request u.label = some (op, q)) : op.Asks q :=
    Pool.asks_of_run (onchainBody_asks services) hrun hu hrequest
  induction hrun with
  | nil => simp at ht
  | @snoc before p l p' hbefore hstep ih =>
    have hlast : (⟨p, l, p'⟩ : OnchainTransition) ∈ before ++ [⟨p, l, p'⟩] := by simp
    rcases getElem?_snoc ht with ht | ⟨hm, rfl⟩
    · rcases ih hturn.before ht fun u hu => hasks u (mem_append_left _ hu) with
        ⟨hpending, hnone⟩ | hsettled
      · by_cases hl : l = .advance i
        · refine (hpending.own (t := ⟨p, l, p'⟩) hstep hl).imp_left fun hstill => ⟨hstill.1, ?_⟩
          intro k v hk hv hthread
          rcases getElem?_snoc hv with hv | ⟨-, rfl⟩
          · exact hnone k v hk hv hthread
          · exact hstill.2
        · have huntouched := hturn.untouched ht hcreates hi hnone hl
          refine .inl ⟨hpending.others (t := ⟨p, l, p'⟩) hstep hl huntouched, ?_⟩
          intro k v hk hv hthread
          rcases getElem?_snoc hv with hv | ⟨-, rfl⟩
          · exact hnone k v hk hv hthread
          · cases hl' : l with
            | start op => simp [hl', Turn.thread] at hthread
            | advance j =>
              simp only [hl', Turn.thread, Option.some.injEq] at hthread
              exact absurd (by rw [hl', hthread]) hl
      · -- the claim has its transaction, so that its status is written after a check
        have htransaction := Run.has_disbursement hbefore (mem_of_getElem? ht) hcreates
        refine .inr (hsettled.step (t := ⟨p, l, p'⟩) hstep (hasks _ hlast) ?_)
        rintro op q hrequest w hw rfl row hrow
        exact hturn.later _ hlast op q hrequest w hw htransaction row hrow
    · have hcommits (thread : OnchainOp × OnchainHandler Unit) (hthread : thread ∈ p.threads) :=
        Pool.throughout_of_run (onchainBody_commits services) hbefore thread hthread
      refine .inl ⟨.created (t := ⟨p, l, p'⟩) hstep hcreates hi hcommits (hturn.created _ hlast id hcreates), ?_⟩
      intro k v hk hv
      have hlength := (List.getElem?_eq_some_iff.mp hv).1
      rw [List.length_append, List.length_singleton] at hlength
      omega

theorem not_creates_again (hrun : Run (OnchainStep services) (onchainIdle db) tr u.pre)
    (hturn : DisbursesInTurn (tr ++ [u])) (h : u.pre.store.Disburses a id) : creates u ≠ some id := by
  intro hcreates
  obtain ⟨t, ht, hfirst⟩ := Run.creator hrun h
  obtain ⟨m, hm⟩ := mem_iff_getElem?.mp ht
  obtain ⟨row, hrow, hstatus⟩ := hturn.created u (by simp) id hcreates
  obtain ⟨newId, params, now, hasked, -, -, hclaim⟩ := creates_eq_some hcreates
  have htouches : touches u = some id := by
    rw [touches, hasked]
    exact hclaim
  obtain ⟨i, hi⟩ : ∃ i, t.label = .advance i := by
    obtain ⟨newId', params', now', hasked', -⟩ := creates_eq_some hfirst
    obtain ⟨op, hrequest⟩ := Pool.request_of_asked hasked'
    obtain ⟨i, next, hi, -⟩ := Pool.request_eq_some hrequest
    exact ⟨i, hi⟩
  rcases Run.phases hrun hturn.before hm hfirst hi with ⟨hpending, hnone⟩ | hsettled
  · by_cases hl : u.label = .advance i
    · -- a call that is committed does not create another transaction
      obtain ⟨⟨op, task, hthread, hcommitted⟩, -⟩ := hpending
      rw [hl, Pool.asked, hthread] at hasked
      cases hcommitted <;> cases hasked
    · exact hturn.untouched hm hfirst hi hnone hl htouches
  · obtain ⟨row', hrow', hstatus'⟩ := hsettled
    rw [hrow'] at hrow
    cases hrow
    rw [hstatus] at hstatus'
    simp at hstatus'

theorem Run.once (hrun : Run (OnchainStep services) (onchainIdle db) tr s) (hturn : DisbursesInTurn tr)
    {b : TransactionId} (ha : s.store.Disburses a id) (hb : s.store.Disburses b id) : a = b := by
  induction hrun with
  | nil =>
    obtain ⟨tx, htx, -⟩ := ha
    simp [onchainIdle] at htx
  | @snoc before p l p' hbefore hstep ih =>
    have hnew {a : TransactionId} (h : p.store.Disburses a id) :=
      not_creates_again (u := ⟨p, l, p'⟩) hbefore hturn h
    rcases OnchainStep.created (t := ⟨p, l, p'⟩) hstep ha with ha | ⟨hcreates, params, now, hasked⟩
    · rcases OnchainStep.created (t := ⟨p, l, p'⟩) hstep hb with hb | ⟨hcreates, -⟩
      · exact ih hturn.before ha hb
      · exact absurd hcreates (hnew ha)
    · rcases OnchainStep.created (t := ⟨p, l, p'⟩) hstep hb with hb | ⟨-, params', now', hasked'⟩
      · exact absurd hcreates (hnew hb)
      · rw [hasked] at hasked'
        cases hasked'
        rfl

end Runs

/-- In every run in which disbursements of a claim do not get in each other's way, a claim gets one
transaction at most, and is disbursed once its call has ended. -/
theorem one_disbursement {s : OnchainSystem} {tr : List OnchainTransition}
    (hrun : Run (OnchainStep services) (onchainIdle db) tr s) (hturn : DisbursesInTurn tr) :
    DisbursedOnce tr where
  once t ht id a b ha hb := by
    obtain ⟨n, hn⟩ := mem_iff_getElem?.mp ht
    rw [← take_append_drop (n + 1) tr] at hturn
    exact Run.once (hrun.upto hn) hturn.before ha hb
  settled m n t u hmn ht hu i id hi hcreates hended := by
    rw [← take_append_drop (n + 1) tr] at hturn
    have ht' : (tr.take (n + 1))[m]? = some t := by
      rw [getElem?_take_of_lt (by omega)]
      exact ht
    rcases Run.phases (hrun.upto hu) hturn.before ht' hcreates hi with ⟨hpending, -⟩ | hsettled
    · obtain ⟨⟨op, task, hthread, hcommitted⟩, -⟩ := hpending
      obtain ⟨thread, hthread', hdone⟩ := hended
      rw [hthread] at hthread'
      cases hthread'
      cases hcommitted <;> cases hdone
    · exact hsettled

/-- What a disbursement meets whose transaction gets the id `a`. -/
def contextOf (a : TransactionId) : OnchainContext where
  packageId := some "1"
  tokenAddress := none
  traceId := "trace"
  transactionId := a
  now := 0
  queue := .ok ()

def untilApproved : List (Turn OnchainOp) :=
  [.start (.other (.create claimOf60 7 0) rfl),
    .advance 0, .advance 0, .start (.other (.processVerification 7 1) rfl), .advance 1, .advance 1,
    .start (.other (.approve 7) rfl), .advance 2, .advance 2]

def disbursedAlone : List (Turn OnchainOp) :=
  untilApproved ++ [.start (.disburse 7 none (contextOf 1)), .advance 3, .advance 3, .advance 3,
    .advance 3, .advance 3]

def disbursedTwice : List (Turn OnchainOp) :=
  untilApproved ++ [.start (.disburse 7 none (contextOf 1)), .start (.disburse 7 none (contextOf 2)),
    .advance 3, .advance 4, .advance 3, .advance 4]

theorem one_disbursement_alone : DisbursedOnce (onchainPlayed fundedDb disbursedAlone).1 := by
  have hchecked : ∀ t ∈ (onchainPlayed fundedDb disbursedAlone).1, ∀ r ∈ t.pre.request t.label,
      ∀ w ∈ r.2.writes, ∀ row ∈ t.pre.store.db.claims[w.1]?, r.1.onClaims.Admits row.status := by
    decide +kernel
  refine one_disbursement (onchainPlayed_run fundedDb disbursedAlone)
    ⟨by decide +kernel, by decide +kernel, ?_⟩
  intro t ht op q hrequest w hw _ row hrow
  exact hchecked t ht (op, q) hrequest w hw row hrow

theorem onchain_refines_alone : ∃ tr' s', Run (Step plainServices) (idle fundedDb) tr' s' ∧
    s'.store = (onchainPlayed fundedDb disbursedAlone).2.store.db :=
  onchain_refines (onchainPlayed_run _ _)

theorem disbursedTwice_not_once :
    ∃ tr s, Run (OnchainStep plainServices) (onchainIdle fundedDb) tr s ∧ ¬ DisbursedOnce tr := by
  refine ⟨_, _, onchainPlayed_run fundedDb disbursedTwice, fun h => ?_⟩
  have hnot : ∀ t ∈ (onchainPlayed fundedDb disbursedTwice).1,
      ¬ (t.post.store.Disburses 1 7 ∧ t.post.store.Disburses 2 7) := by
    intro t ht hboth
    exact absurd (h.once t ht 7 1 2 hboth.1 hboth.2) (by decide)
  exact absurd hnot (by decide +kernel)

end Soter.Claims
