import Soter.Lib.Exclusive
import Soter.Notifications.Outbox

/-! When the outbox keeps its books. -/
namespace Soter.Notifications
open Soter.Tasks Soter.Runs List Option Store

variable {config : Config}

def Store.status (s : Store) (id : ℕ) : Option NotificationOutboxStatus := (s.find id).map (·.status)

def Store.jobsOf (s : Store) (id : ℕ) : ℕ :=
  s.jobs.countP (·.data.outboxId = id) + s.dlq.countP (·.data.outboxId = id)

def Store.delivered (s : Store) (jobId : ℕ) : ℕ := s.deliveries.countP (·.jobId = jobId)

def Query.completes : Query → Option ℕ
  | .settle job none => some job.data.outboxId
  | .markSent id => some id
  | _ => none

def Query.buries : Query → Option ℕ
  | .moveToDlq job _ => some job.data.outboxId
  | _ => none

/-- A record that is sent stays so; one that was delivered is sent, once its worker is done; it has one job at most in
the two queues; and each job leads to one delivery at most. -/
structure Bookkept (tr : List OutboxTransition) : Prop where
  stays : tr.Pairwise fun t t' =>
    ∀ id, t.post.store.status id = some .sent → t'.post.store.status id = some .sent
  ends : ∀ t ∈ tr, ∀ d ∈ t.post.store.deliveries, ¬ t.post.Busy Query.completes d.outboxId →
    t.post.store.status d.outboxId = some .sent
  single : ∀ t ∈ tr, ∀ id, t.post.store.jobsOf id ≤ 1
  once : ∀ t ∈ tr, ∀ jobId, t.post.store.delivered jobId ≤ 1

/-- A status is not written over `sent`, the completed event is written down, a job is only replayed when its record has
no other one and none that is about to be buried, and nothing is replayed from the dead-letter queue, where the job
still is when it is added anew. -/
def Query.IsTimely (p : OutboxPool) : Query → Prop
  | .markEnqueued id _ | .revert id _ | .markFailed id _ _ => p.store.status id ≠ some .sent
  | .markSent _ => p.store.db.isOk = true
  | .add .notifications .outboxReplay data =>
    p.store.queue.isOk = true → p.store.jobsOf (data p.store.now).outboxId = 0 ∧
      ¬ p.Busy Query.buries (data p.store.now).outboxId
  | .add .notifications .dlqReplay _ => p.store.queue.isOk = false
  | _ => True

def Timely (t : OutboxTransition) : Prop := ∀ q ∈ t.pre.asked t.label, q.IsTimely t.pre

instance (p : OutboxPool) (q : Query) : Decidable (q.IsTimely p) :=
  match q with
  | .markEnqueued id _ => inferInstanceAs (Decidable (p.store.status id ≠ some .sent))
  | .revert id _ => inferInstanceAs (Decidable (p.store.status id ≠ some .sent))
  | .markFailed id _ _ => inferInstanceAs (Decidable (p.store.status id ≠ some .sent))
  | .markSent _ => inferInstanceAs (Decidable (p.store.db.isOk = true))
  | .add .notifications .outboxReplay data =>
    inferInstanceAs (Decidable (p.store.queue.isOk = true → p.store.jobsOf (data p.store.now).outboxId = 0 ∧
      ¬ p.Busy Query.buries (data p.store.now).outboxId))
  | .add .notifications .dlqReplay _ => inferInstanceAs (Decidable (p.store.queue.isOk = false))
  | .add .notifications .send _ | .add .verification _ _ | .add .onchain _ _ | .add .retentionPurge _ _
  | .add (.other _) _ _ | .elapse _ | .foresee .. | .createOutbox .. | .findOutbox _ | .claim _ | .setJobId ..
  | .audit | .countDeadLetters | .getDlqJob _ | .removeDlqJob _ | .pickUp _ | .gate _ | .startAttempt _
  | .deliver .. | .settle .. | .moveToDlq .. | .recordAttempt _ => .isTrue trivial

instance (t : OutboxTransition) : Decidable (Timely t) :=
  inferInstanceAs (Decidable (∀ q ∈ t.pre.asked t.label, q.IsTimely t.pre))

variable {α : Type} {id : ℕ}
section Stages

inductive Stage
  | fresh
  /-- A record was created and its job is not added yet. -/
  | created (id : ℕ)
  | added (id : ℕ)
  /-- A replay found a record, or claimed it; `recordId` is the id that it read. -/
  | found (id recordId : ℕ)
  | claimed (id recordId : ℕ)
  /-- A worker has the job. -/
  | processing (job : Job)
  | delivered (job : Job)
  | completing (id : ℕ)
  /-- The job failed for the last time. -/
  | burying (job : Job)
  | failing (id : ℕ)

def Stage.allowed : Stage → Query → Prop
  | .fresh, .elapse _ | .fresh, .foresee .. | .fresh, .createOutbox .. | .fresh, .findOutbox _ | .fresh, .audit
  | .fresh, .countDeadLetters | .fresh, .getDlqJob _ | .fresh, .add _ .dlqReplay _ | .fresh, .removeDlqJob _
  | .fresh, .pickUp _ | .fresh, .recordAttempt _ => True
  | .created id, .add .notifications .send data => ∀ time, (data time).outboxId = id
  | .added id, .markEnqueued id' _ => id' = id
  | .found id _, .claim id' => id' = id
  | .claimed _ recordId, .add .notifications .outboxReplay data => ∀ time, (data time).outboxId = recordId
  | .claimed id _, .setJobId id' _ | .claimed id _, .revert id' _ => id' = id
  | .claimed .., .audit | .claimed .., .countDeadLetters => True
  | .processing _, .gate _ => True
  | .processing job, .startAttempt id => id = job.data.outboxId
  | .processing job, .deliver job' _ | .processing job, .settle job' (some _) | .delivered job, .settle job' none
  | .burying job, .moveToDlq job' _ => job' = job
  | .completing id, .markSent id' => id' = id
  | .failing id, .markFailed id' _ _ => id' = id
  | _, _ => False

def Stage.next : Stage → (q : Query) → q.Reply → Stage
  | .fresh, .createOutbox .., .ok (id : ℕ) => .created id
  | .fresh, .findOutbox id, .ok (some record) => .found id record.id
  | .found id recordId, .claim _, .ok (count : ℕ) => if count = 1 then .claimed id recordId else .fresh
  | .fresh, .pickUp _, some job => .processing job
  | .created id, .add .., .ok _ => .added id
  | .claimed id recordId, .add .., _ | .claimed id recordId, .setJobId .., _ | .claimed id recordId, .audit, _
  | .claimed id recordId, .countDeadLetters, _ => .claimed id recordId
  | .processing job, .gate _, _ | .processing job, .startAttempt _, _ => .processing job
  | .processing _, .deliver job (.ok _), _ => .delivered job
  | .processing _, .deliver job (.error _), _ => .processing job
  | .processing _, .settle job (some _), _ => if job.failed.isExhausted then .burying job.failed
    else .failing job.data.outboxId
  | .delivered _, .settle job none, _ => .completing job.data.outboxId
  | .burying _, .moveToDlq job _, _ => .failing job.data.outboxId
  | _, _, _ => .fresh

def protocol : Protocol Query Query.Reply Stage where
  allowed := Stage.allowed
  next := Stage.next

def Stage.IsHeld : Stage → Prop
  | .processing _ | .delivered _ | .completing _ | .burying _ => True
  | _ => False

abbrev Proceeds (σ : Stage) (t : Handler) : Prop := t.Follows protocol (fun σ _ => ¬ σ.IsHeld) σ

variable {next : α → Handler}

theorem orFail_follows {σ : Stage} (hσ : ¬ σ.IsHeld)
    (h : ∀ a, Proceeds σ (next a)) (result : Except Failure α) : Proceeds σ (orFail next result) := by
  cases result with
  | error e => exact hσ
  | ok a => exact h a

theorem send_follows (type : NotificationType) (recipient : String) (subject : Option String) (message : String)
    (correlationId : Option String) : Proceeds .fresh (send type recipient subject message correlationId) := by
  refine ⟨trivial, fun created => ?_⟩
  rcases created with e | outboxId
  · exact fun h => h
  · refine ⟨fun _ => rfl, fun added => ?_⟩
    rcases added with e | jobId
    · exact fun h => h
    · exact ⟨rfl, orFail_follows (fun h => h) fun _ h => h⟩

variable {recordId : ℕ}

theorem revertReplay_follows (error : Failure) : Proceeds (.claimed id recordId) (revertReplay id error) :=
  ⟨rfl, orFail_follows (fun h => h) fun _ h => h⟩

theorem orRevert_follows (h : ∀ a, Proceeds (.claimed id recordId) (next a))
    (result : Except Failure α) : Proceeds (.claimed id recordId) (orRevert id next result) := by
  cases result with
  | error e => exact revertReplay_follows e
  | ok a => exact h a

theorem enqueueReplay_follows (record : NotificationOutbox) :
    Proceeds (.claimed id record.id) (enqueueReplay id record) := by
  refine ⟨fun _ => rfl, orRevert_follows fun jobId => ⟨rfl, orRevert_follows fun _ => ?_⟩⟩
  exact ⟨trivial, orRevert_follows fun _ => ⟨trivial, orRevert_follows fun _ h => h⟩⟩

theorem replayDeadLetterNotification_follows (id : ℕ) : Proceeds .fresh (replayDeadLetterNotification id) := by
  refine ⟨trivial, fun found => ?_⟩
  rcases found with e | _ | record
  · exact fun h => h
  · exact fun h => h
  · refine Task.follows_ite (fun _ h => h) fun _ => ⟨rfl, fun claimed => ?_⟩
    rcases claimed with e | count
    · exact fun h => h
    · change Proceeds (if count = 1 then .claimed id record.id else .fresh) _
      refine Task.follows_ite (fun hne => ?_) fun hone => ?_
      · rw [if_neg hne]
        exact fun h => h
      · rw [if_pos (not_not.mp hone)]
        exact enqueueReplay_follows record

theorem replayJob_follows (id : ℕ) : Proceeds .fresh (replayJob id) := by
  have hfresh : ¬ Stage.fresh.IsHeld := fun h => h
  refine ⟨trivial, orFail_follows hfresh fun found => ?_⟩
  cases found with
  | none => exact hfresh
  | some job =>
    dsimp only
    split
    · exact hfresh
    · split
      · exact hfresh
      · rename_i queue _
        have hallowed : Stage.allowed .fresh (.add queue .dlqReplay fun _ => job.data) := by
          cases queue with
          | _ => exact trivial
        have hstay : ∀ reply, Stage.next .fresh (.add queue .dlqReplay fun _ => job.data) reply = .fresh := by
          intro reply
          cases queue with
          | _ => rfl
        refine ⟨hallowed, fun added => ?_⟩
        change Proceeds (Stage.next .fresh (.add queue .dlqReplay fun _ => job.data) added) _
        rw [hstay]
        refine orFail_follows hfresh (fun jobId => ?_) added
        exact ⟨trivial, orFail_follows hfresh fun _ => ⟨trivial, orFail_follows hfresh fun _ => hfresh⟩⟩

theorem recordFailedAttempt_follows (job : Job) (error : JobError) :
    Proceeds .fresh (recordFailedAttempt job error) := by
  cases error with
  | circuitOpen e => exact fun h => h
  | other message => exact ⟨trivial, fun _ h => h⟩

theorem markFailed_follows (job : Job) (error : JobError) :
    Proceeds (.failing job.data.outboxId) (markFailed job error) := by
  refine Task.follows_ite (fun _ => ?_) fun _ => ?_
  · exact ⟨rfl, fun _ => ⟨trivial, fun _ => recordFailedAttempt_follows job error⟩⟩
  · exact ⟨rfl, fun _ => recordFailedAttempt_follows job error⟩

theorem failJob_follows (job : Job) (error : JobError) : Proceeds (.processing job) (failJob job error) := by
  refine ⟨rfl, fun _ => ?_⟩
  change Proceeds (if job.failed.isExhausted then .burying job.failed else .failing job.data.outboxId) _
  -- the event and the queue agree on what an attempt too many is
  have hagree : (if job.failed.attempts = 0 then 1 else job.failed.attempts) ≤ job.failed.attemptsMade ↔
      job.failed.isExhausted = true := by
    rw [Job.isExhausted, decide_eq_true_iff]
    have hmade : 1 ≤ job.failed.attemptsMade := Nat.le_add_left 1 job.attemptsMade
    split
    · omega
    · exact Iff.rfl
  refine Task.follows_ite (fun hexhausted => ?_) fun halive => ?_
  · rw [if_pos (hagree.mp hexhausted)]
    exact ⟨rfl, fun _ => markFailed_follows job.failed error⟩
  · rw [if_neg fun h => halive (hagree.mpr h)]
    exact markFailed_follows job.failed error

theorem process_follows (job : Job) (delivery : Except String String) :
    Proceeds (.processing job) (process job delivery) := by
  refine ⟨trivial, fun gated => ?_⟩
  rcases gated with e | _
  · exact failJob_follows job _
  · refine ⟨rfl, fun started => ?_⟩
    rcases started with e | _
    · exact failJob_follows job _
    · refine ⟨rfl, fun _ => ?_⟩
      cases delivery with
      | error message => exact failJob_follows job _
      | ok messageId => exact ⟨rfl, fun _ => ⟨rfl, fun _ => ⟨trivial, fun _ h => h⟩⟩⟩

theorem body_follows (op : OutboxOp) : Proceeds .fresh op.body := by
  cases op with
  | sendEmail recipient subject message correlationId => exact send_follows _ _ _ _ _
  | sendSms recipient message correlationId => exact send_follows _ _ _ _ _
  | replayDeadLetterNotification id => exact replayDeadLetterNotification_follows id
  | replayJob id => exact replayJob_follows id
  | work jobId delivery =>
    refine ⟨trivial, fun picked => ?_⟩
    rcases picked with _ | job
    · exact fun h => h
    · exact process_follows job delivery
  | elapse d | foresee db queue => exact ⟨trivial, fun _ h => h⟩

end Stages
variable {q : Query} {s : Store}
section Requests
variable {s' : Store}

variable {a b : α} {t : Store} {f : NotificationOutbox → NotificationOutbox}

theorem ask_ok (h : s.ask a = .ok b) : b = a := by
  rw [ask] at h
  split at h
  · cases h
  · cases h
    rfl

theorem askQueue_ok (h : s.askQueue a = .ok b) : b = a ∧ s.queue.isOk = true := by
  rw [askQueue] at h
  split at h
  · cases h
  · rename_i hup
    cases h
    refine ⟨rfl, ?_⟩
    rw [hup]
    rfl

theorem ask_store (h : s.ask (a, t) = .ok (b, s')) : s' = t :=
  congrArg Prod.snd (ask_ok h)

theorem askQueue_store (h : s.askQueue (a, t) = .ok (b, s')) : s' = t ∧ s.queue.isOk = true :=
  ⟨congrArg Prod.snd (askQueue_ok h).1, (askQueue_ok h).2⟩

theorem update_cases (s : Store) (id : ℕ) (f : NotificationOutbox → NotificationOutbox) : (commit (s.update id f) s).2 = s ∨
      (commit (s.update id f) s).2 = { s with outbox := s.outbox.map (updateRecord id f) } := by
  rcases commit_cases (s.update id f) s with ⟨e, -, hcommit⟩ | ⟨a, s', htx, hcommit⟩
  · rw [hcommit]
    exact .inl rfl
  · rw [hcommit]
    refine .inr ?_
    cases hfind : s.find id with
    | none =>
      simp only [update, hfind] at htx
      cases hasked : s.ask ((), s) with
      | error e =>
        rw [hasked] at htx
        cases htx
      | ok _ =>
        rw [hasked] at htx
        cases htx
    | some row =>
      simp only [update, hfind] at htx
      exact ask_store htx

theorem update_writes (hdb : s.db.isOk = true) (hfind : (s.find id).isSome = true) :
    (commit (s.update id f) s).2 = { s with outbox := s.outbox.map (updateRecord id f) } := by
  obtain ⟨row, hrow⟩ := isSome_iff_exists.mp hfind
  have hup : ∀ s' : Store, s.ask ((), s') = .ok ((), s') := by
    intro s'
    rw [ask]
    split
    · rename_i e hdown
      rw [hdown] at hdb
      cases hdb
    · rfl
  simp only [update, hrow, hup]
  rfl

def Query.recordId : Query → Option ℕ
  | .markEnqueued id _ | .setJobId id _ | .revert id _ | .startAttempt id | .markSent id | .markFailed id _ _ => some id
  | _ => none

def Query.newStatus : Query → Option NotificationOutboxStatus
  | .markEnqueued .. => some .enqueued
  | .revert .. => some .deadLetter
  | .markSent _ => some .sent
  | .markFailed _ status _ => some status
  | _ => none

inductive Wrote (q : Query) (s s' : Store) : Prop
  | nothing (outbox : s'.outbox = s.outbox) (created : s'.created = s.created)
  | creates (row : NotificationOutbox) (id : row.id = s.created) (status : row.status = .pending)
      (outbox : s'.outbox = s.outbox ++ [row]) (created : s'.created = s.created + 1)
  | claims (id : ℕ) (query : q = .claim id) (outbox : s'.outbox = s.outbox.map (claimRecord id))
      (created : s'.created = s.created)
  | updates (id : ℕ) (f : NotificationOutbox → NotificationOutbox) (query : q.recordId = some id)
      (sameId : ∀ row, (f row).id = row.id) (status : ∀ row, (f row).status = q.newStatus.getD row.status)
      (outbox : s'.outbox = s.outbox.map (updateRecord id f)) (created : s'.created = s.created)

inductive Queued (config : Config) (q : Query) (s s' : Store) : Prop
  | nothing (jobs : s'.jobs = s.jobs) (added : s'.added = s.added)
  | adds (source : Source) (data : ℤ → NotificationJobData) (query : q = .add .notifications source data)
      (up : s.queue.isOk = true) (jobs : s'.jobs = s.jobs ++ [newJob config s source (data s.now)])
      (added : s'.added = s.added + 1)
  | picksUp (jobId : ℕ) (job : Job) (query : q = .pickUp jobId)
      (found : s.jobs.find? (·.isReady s.now jobId) = some job)
      (jobs : s'.jobs = s.jobs.map (updateJob jobId Job.start))
      (added : s'.added = s.added)
  | removes (job : Job) (error : Option JobError) (query : q = .settle job error)
      (done : ∀ e, error = some e → job.failed.isExhausted = true) (jobs : s'.jobs = s.jobs.filter (·.id ≠ job.id))
      (added : s'.added = s.added)
  | retries (job : Job) (error : JobError) (f : Job → Job) (query : q = .settle job (some error))
      (alive : job.failed.isExhausted = false) (sameJob : ∀ job, (f job).id = job.id ∧ (f job).data = job.data)
      (jobs : s'.jobs = s.jobs.map (updateJob job.id f)) (added : s'.added = s.added)

inductive Buried (q : Query) (s s' : Store) : Prop
  | nothing (dlq : s'.dlq = s.dlq)
  | adds (job : Job) (error : JobError) (query : q = .moveToDlq job error) (entry : DlqJob)
      (data : entry.data = job.data) (dlq : s'.dlq = s.dlq ++ [entry])
  | removes (id : ℕ) (query : q = .removeDlqJob id) (dlq : s'.dlq = s.dlq.filter (·.id ≠ id))

inductive Delivered (q : Query) (s s' : Store) : Prop
  | nothing (deliveries : s'.deliveries = s.deliveries)
  | adds (job : Job) (messageId : String) (query : q = .deliver job (.ok messageId))
      (deliveries : s'.deliveries = ⟨job.data.outboxId, job.id⟩ :: s.deliveries)

/-- What one request may do to the outbox, the queue, the dead letters and the deliveries. -/
structure Effects (config : Config) (q : Query) (s s' : Store) : Prop where
  wrote : Wrote q s s' := by exact .nothing rfl rfl
  queued : Queued config q s s' := by exact .nothing rfl rfl
  buried : Buried q s s' := by exact .nothing rfl
  delivered : Delivered q s s' := by exact .nothing rfl

theorem effects_update {config : Config} (hquery : q.recordId = some id) (hid : ∀ row, (f row).id = row.id)
    (hstatus : ∀ row, (f row).status = q.newStatus.getD row.status) :
    Effects config q s (commit (s.update id f) s).2 := by
  rcases update_cases s id f with hsame | hwritten
  · rw [hsame]
    exact {}
  · rw [hwritten]
    exact { wrote := .updates id f hquery hid hstatus rfl rfl }

theorem perform_effects (config : Config) (q : Query) (s : Store) : Effects config q s (perform config q s).2 := by
  have hsame : Effects config q s s := {}
  cases q with
  | createOutbox type recipient subject message =>
    refine commit_keeps (P := Effects config _ s) hsame fun id s' htx => ?_
    rw [ask_store htx]
    exact { wrote := .creates _ rfl rfl rfl rfl }
  | claim id =>
    refine commit_keeps (P := Effects config _ s) hsame fun count s' htx => ?_
    rw [ask_store htx]
    exact { wrote := .claims id rfl rfl rfl }
  | markEnqueued id jobId | setJobId id jobId | revert id lastError | startAttempt id | markSent id
  | markFailed id status lastError => exact effects_update rfl (fun _ => rfl) fun _ => rfl
  | add queue source data =>
    cases queue with
    | notifications =>
      refine commit_keeps (P := Effects config _ s) hsame fun id s' htx => ?_
      obtain ⟨hstore, hup⟩ := askQueue_store htx
      rw [hstore]
      exact { queued := .adds source data rfl hup rfl rfl }
    | _ => exact hsame
  | removeDlqJob id =>
    refine commit_keeps (P := Effects config _ s) hsame fun _ s' htx => ?_
    rw [(askQueue_store htx).1]
    exact { buried := .removes id rfl rfl }
  | moveToDlq job error =>
    refine commit_keeps (P := Effects config _ s) hsame fun _ s' htx => ?_
    rw [(askQueue_store htx).1]
    exact { buried := .adds job error rfl _ rfl rfl }
  | recordAttempt attempt =>
    refine commit_keeps (P := Effects config _ s) hsame fun _ s' htx => ?_
    rw [ask_store htx]
    exact {}
  | pickUp jobId =>
    cases hfound : s.jobs.find? (·.isReady s.now jobId) with
    | none =>
      simp only [perform, pickUp, hfound]
      exact hsame
    | some job =>
      simp only [perform, pickUp, hfound]
      exact { queued := .picksUp jobId job rfl hfound rfl rfl }
  | deliver job outcome =>
    cases outcome with
    | ok messageId => exact { delivered := .adds job messageId rfl rfl }
    | error message => exact {}
  | settle job error =>
    cases error with
    | none => exact { queued := .removes job none rfl (fun e h => by cases h) rfl rfl }
    | some error =>
      by_cases hexhausted : job.failed.isExhausted = true
      · simp only [perform, settle, if_pos hexhausted]
        exact { queued := .removes job (some error) rfl (fun _ _ => hexhausted) rfl rfl }
      · simp only [perform, settle, if_neg hexhausted]
        refine { queued := ?_ }
        exact .retries job error
          (fun job => { job.failed with active := false, availableAt := s.now + job.retryDelay config s })
          rfl (Bool.eq_false_iff.mpr hexhausted) (fun _ => ⟨rfl, rfl⟩) rfl rfl
  | _ => exact {}

theorem find_updated (hid : ∀ row, (f row).id = row.id)
    {s' : Store} (houtbox : s'.outbox = s.outbox.map f) : s'.find id = (s.find id).map f := by
  have hsame : ((fun row : NotificationOutbox => decide (row.id = id)) ∘ f) = fun row => decide (row.id = id) := by
    funext row
    exact congrArg (fun n => decide (n = id)) (hid row)
  rw [find, find, houtbox, find?_map, hsame]

theorem claimRecord_id (id : ℕ) (row : NotificationOutbox) : (claimRecord id row).id = row.id := by
  rw [claimRecord]
  split
  · rfl
  · rfl

theorem updateRecord_id (hid : ∀ row, (f row).id = row.id) (id : ℕ)
    (row : NotificationOutbox) : (updateRecord id f row).id = row.id := by
  rw [updateRecord]
  split
  · exact hid row
  · rfl

theorem status_sent (hsent : s.status id = some .sent)
    (h : q.recordId = some id → q.newStatus = none ∨ q.newStatus = some .sent) :
    (perform config q s).2.status id = some .sent := by
  obtain ⟨row, hrow, hstatus⟩ := map_eq_some_iff.mp hsent
  have hid : row.id = id := by
    have := find?_some hrow
    exact of_decide_eq_true this
  rcases (perform_effects config q s).wrote with ⟨houtbox, -⟩ | ⟨new, -, -, houtbox, -⟩ | ⟨id', -, houtbox, -⟩ |
    ⟨id', f, hquery, hsame, hnew, houtbox, -⟩
  · rw [status, find, houtbox]
    exact hsent
  · rw [status, find, houtbox, find?_append]
    change ((s.find id).or _).map _ = _
    rw [hrow, some_or, map_some, hstatus]
  · rw [status, find_updated (claimRecord_id id') houtbox, hrow, map_some, map_some]
    -- only a dead letter is claimed
    have hnot : ¬ isDeadLetter id' row = true := by
      intro hdead
      have hdead := (of_decide_eq_true hdead).2
      rw [hstatus] at hdead
      cases hdead
    rw [claimRecord, if_neg hnot, hstatus]
  · rw [status, find_updated (updateRecord_id hsame id') houtbox, hrow, map_some, map_some]
    by_cases heq : row.id = id'
    · rw [updateRecord, if_pos heq, hnew]
      rw [← heq, hid] at hquery
      rcases h hquery with hnone | hsome
      · rw [hnone, getD_none, hstatus]
      · rw [hsome, getD_some]
    · rw [updateRecord, if_neg heq, hstatus]

end Requests

theorem countP_sameData {f : Job → Job} (hf : ∀ job, (f job).data = job.data) (jobs : List Job) :
    (jobs.map f).countP (·.data.outboxId = id) = jobs.countP (·.data.outboxId = id) := by
  rw [countP_map]
  congr 1
  funext job
  exact congrArg (fun data : NotificationJobData => decide (data.outboxId = id)) (hf job)

theorem updateJob_data {f : Job → Job} (hf : ∀ job, (f job).id = job.id ∧ (f job).data = job.data) (jobId : ℕ)
    (job : Job) : (updateJob jobId f job).id = job.id ∧ (updateJob jobId f job).data = job.data := by
  rw [updateJob]
  split
  · exact hf job
  · exact ⟨rfl, rfl⟩

theorem liveJobs_frame (config : Config)
    (hadd : ∀ source data, q = .add .notifications source data → s.queue.isOk = true → (data s.now).outboxId ≠ id) :
    (perform config q s).2.jobs.countP (·.data.outboxId = id) ≤ s.jobs.countP (·.data.outboxId = id) := by
  rcases (perform_effects config q s).queued with ⟨hjobs, -⟩ | ⟨source, data, hquery, hup, hjobs, -⟩ |
    ⟨jobId, job, -, -, hjobs, -⟩ | ⟨job, error, -, -, hjobs, -⟩ | ⟨job, error, f, -, -, hsame, hjobs, -⟩
  · rw [hjobs]
  · have hother : (newJob config s source (data s.now)).data = data s.now := by
      cases source with
      | _ => rfl
    rw [hjobs, countP_append, countP_singleton, hother, if_neg]
    · exact le_refl _
    · exact fun h => hadd source data hquery hup (of_decide_eq_true h)
  · rw [hjobs, countP_sameData fun job => (updateJob_data (f := Job.start) (fun _ => ⟨rfl, rfl⟩) jobId job).2]
  · rw [hjobs]
    exact filter_sublist.countP_le
  · rw [hjobs, countP_sameData fun job' => (updateJob_data hsame job.id job').2]

theorem deadJobs_frame (config : Config) (s : Store) (hbury : q.buries ≠ some id) :
    (perform config q s).2.dlq.countP (·.data.outboxId = id) ≤ s.dlq.countP (·.data.outboxId = id) := by
  rcases (perform_effects config q s).buried with hdlq | ⟨job, error, rfl, entry, hdata, hdlq⟩ | ⟨jobId, -, hdlq⟩
  · rw [hdlq]
  · rw [hdlq, countP_append, countP_singleton, hdata, if_neg]
    · exact le_refl _
    · exact fun h => hbury (congrArg some (of_decide_eq_true h))
  · rw [hdlq]
    exact filter_sublist.countP_le

theorem deadJobs_le (config : Config) (q : Query) (s : Store) (id : ℕ) :
    (perform config q s).2.dlq.countP (·.data.outboxId = id) ≤ s.dlq.countP (·.data.outboxId = id) + 1 := by
  rcases (perform_effects config q s).buried with hdlq | ⟨job, error, -, entry, -, hdlq⟩ | ⟨jobId, -, hdlq⟩
  · rw [hdlq]
    exact Nat.le_succ _
  · rw [hdlq, countP_append]
    exact Nat.add_le_add_left countP_le_length _
  · rw [hdlq]
    exact Nat.le_succ_of_le filter_sublist.countP_le

theorem countP_without {jobs : List Job} {jobId : ℕ} (h : ∃ job ∈ jobs, job.id = jobId ∧ job.data.outboxId = id) :
    (jobs.filter (·.id ≠ jobId)).countP (·.data.outboxId = id) + 1 ≤ jobs.countP (·.data.outboxId = id) := by
  obtain ⟨job, hjob, hid, houtbox⟩ := h
  rw [countP_eq_countP_filter_add jobs (·.data.outboxId = id) (·.id ≠ jobId)]
  refine Nat.add_le_add_left (countP_pos_iff.mpr ⟨job, ?_, decide_eq_true houtbox⟩) _
  refine mem_filter.mpr ⟨hjob, ?_⟩
  simp [hid]

structure HasJob (s : Store) (job : Job) : Prop where
  below : job.id < s.added
  live : ∃ job' ∈ s.jobs, job'.id = job.id ∧ job'.data = job.data
  active : ∀ job' ∈ s.jobs, job'.id = job.id → job'.active = true

theorem HasJob.frame {job : Job} (h : HasJob s job) (hother : ∀ job' error, q = .settle job' error → job'.id ≠ job.id) :
    HasJob (perform config q s).2 job := by
  obtain ⟨hbelow, ⟨held, hheld, hid, hdata⟩, hactive⟩ := h
  -- jobs that are replaced by ones of the same id: the one that is held stays active
  have hmap : ∀ (jobId : ℕ) (f : Job → Job), (∀ job, (f job).id = job.id ∧ (f job).data = job.data) →
      (∀ job' : Job, job'.id = jobId → jobId = job.id → (f job').active = true) →
      (perform config q s).2.jobs = s.jobs.map (updateJob jobId f) → (perform config q s).2.added = s.added →
      HasJob (perform config q s).2 job := by
    intro jobId f hsame hstays hjobs hadded
    refine ⟨hadded ▸ hbelow, ⟨updateJob jobId f held, ?_, ?_, ?_⟩, fun job' hjob' hid' => ?_⟩
    · rw [hjobs]
      exact mem_map_of_mem hheld
    · exact (updateJob_data hsame jobId held).1.trans hid
    · exact (updateJob_data hsame jobId held).2.trans hdata
    · rw [hjobs] at hjob'
      obtain ⟨old, hold, rfl⟩ := mem_map.mp hjob'
      rw [(updateJob_data hsame jobId old).1] at hid'
      by_cases heq : old.id = jobId
      · rw [updateJob, if_pos heq]
        exact hstays old heq (heq.symm.trans hid')
      · rw [updateJob, if_neg heq]
        exact hactive old hold hid'
  rcases (perform_effects config q s).queued with ⟨hjobs, hadded⟩ | ⟨source, data, -, -, hjobs, hadded⟩ |
    ⟨jobId, picked, -, -, hjobs, hadded⟩ | ⟨job', error, hquery, -, hjobs, hadded⟩ |
    ⟨job', error, f, hquery, -, hsame, hjobs, hadded⟩
  · refine ⟨hadded ▸ hbelow, ⟨held, ?_, hid, hdata⟩, fun job' hjob' => ?_⟩
    · rw [hjobs]
      exact hheld
    · rw [hjobs] at hjob'
      exact hactive job' hjob'
  · refine ⟨?_, ⟨held, ?_, hid, hdata⟩, fun job' hjob' hid' => ?_⟩
    · rw [hadded]
      exact Nat.lt_succ_of_lt hbelow
    · rw [hjobs]
      exact mem_append_left _ hheld
    · rw [hjobs] at hjob'
      rcases mem_append.mp hjob' with hold | hnew
      · exact hactive job' hold hid'
      · have hnext : job'.id = s.added := by
          rw [mem_singleton.mp hnew]
          cases source with
          | _ => rfl
        omega
  · exact hmap jobId Job.start (fun _ => ⟨rfl, rfl⟩) (fun _ _ _ => rfl) hjobs hadded
  · have hne := hother job' error hquery
    refine ⟨hadded ▸ hbelow, ⟨held, ?_, hid, hdata⟩, fun job'' hjob'' => ?_⟩
    · rw [hjobs]
      refine mem_filter.mpr ⟨hheld, ?_⟩
      simp [hid, Ne.symm hne]
    · rw [hjobs] at hjob''
      exact hactive job'' (mem_filter.mp hjob'').1
  · exact hmap job'.id f hsame (fun _ _ heq => absurd heq (hother job' _ hquery)) hjobs hadded

variable {σ : Stage}
section Invariant
variable {stages : List Stage} {τ : Stage} {i : ℕ}

def Stage.outboxId : Stage → Option ℕ
  | .fresh | .found .. => none
  | .created id | .added id | .claimed id _ | .completing id | .failing id => some id
  | .processing job | .delivered job | .burying job => some job.data.outboxId

def Stage.HoldsJob : Stage → ℕ → Prop
  | .processing job, jobId | .delivered job, jobId => job.id = jobId
  | _, _ => False

def Stage.buries (id : ℕ) : Stage → Bool
  | .burying job => job.data.outboxId = id
  | _ => false

def Stage.Completes (id : ℕ) : Stage → Prop
  | .delivered job => job.data.outboxId = id
  | .completing id' => id' = id
  | _ => False

def Stage.Knows (s : Store) : Stage → Prop
  | .created id => (∀ row ∈ s.outbox, row.id = id → row.status = .pending) ∧ s.jobsOf id = 0
  | .found id recordId | .claimed id recordId => recordId = id
  | .processing job => HasJob s job ∧ s.delivered job.id = 0
  | .delivered job => HasJob s job
  | _ => True

def Lone (stages : List Stage) : Prop :=
  ∀ (i j : ℕ) τ id, stages[i]? = some (.created id) → stages[j]? = some τ → τ.outboxId = some id → i = j

structure Strict (stages : List Stage) (s : Store) : Prop where
  recorded : ∀ id < s.created, (s.find id).isSome = true
  rows : ∀ row ∈ s.outbox, row.id < s.created
  jobs : ∀ job ∈ s.jobs, job.id < s.added ∧ job.data.outboxId < s.created
  dlq : ∀ job ∈ s.dlq, job.data.outboxId < s.created
  deliveries : ∀ d ∈ s.deliveries, d.jobId < s.added
  owned : ∀ σ ∈ stages, ∀ id, σ.outboxId = some id → id < s.created
  lone : Lone stages
  held : Exclusive Stage.HoldsJob stages
  knows : ∀ σ ∈ stages, σ.Knows s
  tokens : ∀ id, s.jobsOf id + stages.countP (·.buries id) ≤ 1
  waiting : ∀ job ∈ s.jobs, job.active = false → s.delivered job.id = 0
  once : ∀ jobId, s.delivered jobId ≤ 1
  ends : ∀ d ∈ s.deliveries, s.status d.outboxId = some .sent ∨ ∃ σ ∈ stages, σ.Completes d.outboxId

structure TimelyAt (stages : List Stage) (s : Store) (q : Query) : Prop where
  status : ∀ id, q.recordId = some id → s.status id = some .sent → q.newStatus = none ∨ q.newStatus = some .sent
  marks : ∀ id, q = .markSent id → s.db.isOk = true
  replays : ∀ data, q = .add .notifications .outboxReplay data → s.queue.isOk = true →
    s.jobsOf (data s.now).outboxId = 0 ∧ ∀ σ ∈ stages, σ.buries (data s.now).outboxId = false
  exhumes : ∀ data, q = .add .notifications .dlqReplay data → s.queue.isOk = false

variable {job : Job}

theorem recordId_outboxId (hallowed : σ.allowed q) (h : q.recordId = some id) : σ.outboxId = some id := by
  cases q with
  | markEnqueued id' jobId =>
    cases σ with
    | added id'' =>
      cases hallowed
      exact h
    | _ => exact hallowed.elim
  | setJobId id' jobId =>
    cases σ with
    | claimed id'' recordId =>
      cases hallowed
      exact h
    | _ => exact hallowed.elim
  | revert id' lastError =>
    cases σ with
    | claimed id'' recordId =>
      cases hallowed
      exact h
    | _ => exact hallowed.elim
  | startAttempt id' =>
    cases σ with
    | processing job =>
      cases hallowed
      exact h
    | _ => exact hallowed.elim
  | markSent id' =>
    cases σ with
    | completing id'' =>
      cases hallowed
      exact h
    | _ => exact hallowed.elim
  | markFailed id' status lastError =>
    cases σ with
    | failing id'' =>
      cases hallowed
      exact h
    | _ => exact hallowed.elim
  | _ => cases h

theorem allowed_settle {error : Option JobError} (h : σ.allowed (.settle job error)) :
    σ.HoldsJob job.id ∧ ((∃ e, error = some e ∧ σ = .processing job) ∨ error = none ∧ σ = .delivered job) := by
  cases σ with
  | processing job' =>
    cases error with
    | none => exact h.elim
    | some e =>
      have hjob : job = job' := h
      rw [← hjob]
      exact ⟨rfl, .inl ⟨e, rfl, rfl⟩⟩
  | delivered job' =>
    cases error with
    | none =>
      have hjob : job = job' := h
      rw [← hjob]
      exact ⟨rfl, .inr ⟨rfl, rfl⟩⟩
    | some e => exact h.elim
  | _ =>
    cases error with
    | _ => exact h.elim

theorem allowed_deliver {outcome : Except String String} (h : σ.allowed (.deliver job outcome)) :
    σ = .processing job := by
  cases σ with
  | processing job' =>
    have hjob : job = job' := h
    rw [hjob]
  | _ => exact h.elim

theorem allowed_moveToDlq {error : JobError} (h : σ.allowed (.moveToDlq job error)) : σ = .burying job := by
  cases σ with
  | burying job' =>
    have hjob : job = job' := h
    rw [hjob]
  | _ => exact h.elim

theorem adds_outboxId (h : Strict stages s) (htimely : TimelyAt stages s q) (hi : stages[i]? = some σ)
    (hallowed : σ.allowed q) {source : Source} {data : ℤ → NotificationJobData}
    (hquery : q = .add .notifications source data) (hup : s.queue.isOk = true) :
    σ.outboxId = some (data s.now).outboxId ∧
      (σ = .created (data s.now).outboxId ∨ source = .outboxReplay) := by
  subst hquery
  cases source with
  | send =>
    cases σ with
    | created id =>
      rw [show (data s.now).outboxId = id from hallowed s.now]
      exact ⟨rfl, .inl rfl⟩
    | _ => exact hallowed.elim
  | outboxReplay =>
    cases σ with
    | claimed id recordId =>
      have hrecord : recordId = id := h.knows _ (mem_of_getElem? hi)
      rw [show (data s.now).outboxId = recordId from hallowed s.now, hrecord]
      exact ⟨rfl, .inr rfl⟩
    | _ => exact hallowed.elim
  | dlqReplay =>
    have hdown := htimely.exhumes data rfl
    rw [hup] at hdown
    cases hdown

theorem others_know (h : Strict stages s) (htimely : TimelyAt stages s q) (hi : stages[i]? = some σ)
    (hallowed : σ.allowed q) (j : ℕ) (τ : Stage) (hji : j ≠ i) (hj : stages[j]? = some τ) :
    τ.Knows (perform config q s).2 := by
  have hknows := h.knows τ (mem_of_getElem? hj)
  have hsettle : ∀ job : Job, τ.HoldsJob job.id → ∀ (job' : Job) error, q = .settle job' error →
      job'.id ≠ job.id := by
    intro job hτ job' error hquery heq
    subst hquery
    have hσ := (allowed_settle hallowed).1
    rw [heq] at hσ
    exact h.held.other hi hji hj hσ hτ
  cases τ with
  | created id =>
    obtain ⟨hpending, hnone⟩ := hknows
    have hother : σ.outboxId ≠ some id := fun heq => hji (h.lone j i σ id hj hi heq)
    refine ⟨fun row hrow hid => ?_, ?_⟩
    · rcases (perform_effects config q s).wrote with ⟨houtbox, -⟩ | ⟨new, hnew, hstatus, houtbox, -⟩ | ⟨id', -, houtbox, -⟩ |
        ⟨id', f, hquery, hsame, -, houtbox, -⟩
      · rw [houtbox] at hrow
        exact hpending row hrow hid
      · rw [houtbox] at hrow
        rcases mem_append.mp hrow with hrow | hrow
        · exact hpending row hrow hid
        · rw [mem_singleton.mp hrow]
          exact hstatus
      · rw [houtbox] at hrow
        obtain ⟨old, hold, rfl⟩ := mem_map.mp hrow
        rw [claimRecord_id] at hid
        have hstatus := hpending old hold hid
        have hnot : ¬ isDeadLetter id' old = true := by
          intro hdead
          have hdead := (of_decide_eq_true hdead).2
          rw [hstatus] at hdead
          cases hdead
        rw [claimRecord, if_neg hnot]
        exact hstatus
      · rw [houtbox] at hrow
        obtain ⟨old, hold, rfl⟩ := mem_map.mp hrow
        rw [updateRecord_id hsame] at hid
        have hne : old.id ≠ id' := by
          intro heq
          rw [← heq, hid] at hquery
          exact hother (recordId_outboxId hallowed hquery)
        rw [updateRecord, if_neg hne]
        exact hpending old hold hid
    · have hadds : ∀ source data, q = .add .notifications source data → s.queue.isOk = true →
          (data s.now).outboxId ≠ id := by
        intro source data hquery hup heq
        have hσ := (adds_outboxId h htimely hi hallowed hquery hup).1
        rw [heq] at hσ
        exact hother hσ
      have hburies : q.buries ≠ some id := by
        intro hbury
        cases q with
        | moveToDlq job error =>
          rw [allowed_moveToDlq hallowed] at hother
          exact hother hbury
        | _ => cases hbury
      have hlive := liveJobs_frame config hadds
      have hdead := deadJobs_frame config s hburies
      rw [jobsOf] at hnone ⊢
      omega
  | processing job =>
    obtain ⟨hjob, hundelivered⟩ := hknows
    refine ⟨hjob.frame (hsettle job rfl), ?_⟩
    rcases (perform_effects config q s).delivered with hsame | ⟨job', messageId, rfl, hdeliveries⟩
    · rw [delivered, hsame]
      exact hundelivered
    · have hne : job'.id ≠ job.id := by
        intro heq
        rw [allowed_deliver hallowed] at hi
        exact h.held.other hi hji hj (show job'.id = job.id from heq) rfl
      rw [delivered, hdeliveries, countP_cons_of_neg (by simpa using hne)]
      exact hundelivered
  | delivered job => exact HasJob.frame hknows (hsettle job rfl)
  | found id recordId | claimed id recordId => exact hknows
  | _ => trivial

inductive Went (s : Store) (q : Query) : Stage → Stage → Prop
  | rests (σ : Stage) (settled : ∀ id, ¬ σ.Completes id ∨ q = .markSent id) (buried : ∀ id, σ.buries id = false) :
      Went s q σ .fresh
  | creates (created : ∃ type recipient subject message, q = .createOutbox type recipient subject message) :
      Went s q .fresh (.created s.created)
  | finds (id : ℕ) : Went s q .fresh (.found id id)
  | claims (id recordId : ℕ) (dead : ∃ row ∈ s.outbox, row.id = id ∧ row.status = .deadLetter) :
      Went s q (.found id recordId) (.claimed id recordId)
  | replays (id recordId : ℕ) : Went s q (.claimed id recordId) (.claimed id recordId)
  | adds (id : ℕ) : Went s q (.created id) (.added id)
  | picksUp (jobId : ℕ) (job : Job) (query : q = .pickUp jobId)
      (found : s.jobs.find? (·.isReady s.now jobId) = some job) : Went s q .fresh (.processing job)
  | processes (job : Job) (quiet : ∀ job' error, q ≠ .settle job' error)
      (failed : ∀ job' messageId, q ≠ .deliver job' (.ok messageId)) : Went s q (.processing job) (.processing job)
  | delivers (job : Job) (messageId : String) (query : q = .deliver job (.ok messageId)) :
      Went s q (.processing job) (.delivered job)
  | buries (job : Job) (error : JobError) (query : q = .settle job (some error))
      (exhausted : job.failed.isExhausted = true) : Went s q (.processing job) (.burying job.failed)
  | fails (job : Job) (error : JobError) (query : q = .settle job (some error)) :
      Went s q (.processing job) (.failing job.data.outboxId)
  | completes (job : Job) (query : q = .settle job none) : Went s q (.delivered job) (.completing job.data.outboxId)
  | buried (job : Job) (error : JobError) (query : q = .moveToDlq job error) :
      Went s q (.burying job) (.failing job.data.outboxId)

theorem claims_dead {count : ℕ} (h : (perform config (.claim id) s).1 = .ok count) (hcount : count = 1) :
    ∃ row ∈ s.outbox, row.id = id ∧ row.status = .deadLetter := by
  rcases commit_cases (s.claim id) s with ⟨e, -, hcommit⟩ | ⟨n, s', htx, hcommit⟩
  · rw [perform, hcommit] at h
    cases h
  · rw [perform, hcommit] at h
    cases h
    have hn : count = s.outbox.countP (isDeadLetter id) := congrArg Prod.fst (ask_ok htx)
    have hpos : 0 < s.outbox.countP (isDeadLetter id) := by omega
    obtain ⟨row, hrow, hdead⟩ := countP_pos_iff.mp hpos
    exact ⟨row, hrow, of_decide_eq_true hdead⟩

theorem went (config : Config) (s : Store) (hallowed : σ.allowed q) :
    Went s q σ (Stage.next σ q (perform config q s).1) := by
  cases σ with
  | fresh =>
    have hrests : Went s q .fresh .fresh := .rests .fresh (fun _ => .inl fun h => h) fun _ => rfl
    cases q with
    | createOutbox type recipient subject message =>
      rcases commit_cases (s.createOutbox type recipient subject message) s with
        ⟨e, -, hcommit⟩ | ⟨id, s', htx, hcommit⟩
      · rw [perform, hcommit]
        exact hrests
      · have hid : id = s.created := congrArg Prod.fst (ask_ok htx)
        rw [perform, hcommit, hid]
        exact .creates ⟨type, recipient, subject, message, rfl⟩
    | findOutbox id =>
      rcases hreply : (perform config (.findOutbox id) s).1 with e | _ | record
      · exact hrests
      · exact hrests
      · have hfind : some record = s.find id := ask_ok hreply
        have hid : record.id = id := by
          have := find?_some hfind.symm
          exact of_decide_eq_true this
        change Went s _ .fresh (.found id record.id)
        rw [hid]
        exact .finds id
    | pickUp jobId =>
      cases hfound : s.jobs.find? (·.isReady s.now jobId) with
      | none =>
        simp only [perform, pickUp, hfound]
        exact hrests
      | some job =>
        simp only [perform, pickUp, hfound]
        exact .picksUp jobId job rfl hfound
    | add queue source data =>
      cases source with
      | dlqReplay =>
        cases queue with
        | _ => exact hrests
      | _ =>
        cases queue with
        | _ => exact hallowed.elim
    | _ => exact hrests
  | created id =>
    cases q with
    | add queue source data =>
      generalize (perform config (.add queue source data) s).1 = reply
      rcases reply with e | jobId
      · exact .rests _ (fun _ => .inl fun h => h) fun _ => rfl
      · exact .adds id
    | _ => exact hallowed.elim
  | added id => exact .rests _ (fun _ => .inl fun h => h) fun _ => rfl
  | found id recordId =>
    cases q with
    | claim id' =>
      have hid : id' = id := hallowed
      subst hid
      rcases hreply : (perform config (.claim id') s).1 with e | count
      · exact .rests _ (fun _ => .inl fun h => h) fun _ => rfl
      · change Went s _ _ (if count = 1 then .claimed id' recordId else .fresh)
        split
        · rename_i hone
          exact .claims id' recordId (claims_dead hreply hone)
        · exact .rests _ (fun _ => .inl fun h => h) fun _ => rfl
    | _ => exact hallowed.elim
  | claimed id recordId =>
    cases q with
    | revert id' lastError => exact .rests _ (fun _ => .inl fun h => h) fun _ => rfl
    | add queue source data | setJobId id' jobId | audit | countDeadLetters => exact .replays id recordId
    | _ => exact hallowed.elim
  | processing job =>
    cases q with
    | gate provider | startAttempt id => exact .processes job (fun _ _ h => by cases h) fun _ _ h => by cases h
    | deliver job' outcome =>
      have hjob : job' = job := hallowed
      rw [hjob]
      cases outcome with
      | ok messageId => exact .delivers job messageId rfl
      | error message => exact .processes job (fun _ _ h => by cases h) fun _ _ h => by cases h
    | settle job' error =>
      cases error with
      | none => exact hallowed.elim
      | some error =>
        have hjob : job' = job := hallowed
        rw [hjob]
        change Went s _ _ (if job.failed.isExhausted then .burying job.failed else .failing job.data.outboxId)
        split
        · rename_i hexhausted
          exact .buries job error rfl hexhausted
        · exact .fails job error rfl
    | _ => exact hallowed.elim
  | delivered job =>
    cases q with
    | settle job' error =>
      cases error with
      | none =>
        have hjob : job' = job := hallowed
        rw [hjob]
        exact .completes job rfl
      | some error => exact hallowed.elim
    | _ => exact hallowed.elim
  | completing id =>
    cases q with
    | markSent id' =>
      have hid : id' = id := hallowed
      refine .rests _ (fun id'' => ?_) fun _ => rfl
      by_cases heq : id'' = id
      · rw [heq, hid]
        exact .inr rfl
      · exact .inl fun h => heq (Eq.symm h)
    | _ => exact hallowed.elim
  | burying job =>
    cases q with
    | moveToDlq job' error =>
      have hjob : job' = job := hallowed
      rw [hjob]
      exact .buried job error rfl
    | _ => exact hallowed.elim
  | failing id => exact .rests _ (fun _ => .inl fun h => h) fun _ => rfl

theorem created_le (config : Config) (q : Query) (s : Store) : s.created ≤ (perform config q s).2.created := by
  rcases (perform_effects config q s).wrote with ⟨-, hcreated⟩ | ⟨-, -, -, -, hcreated⟩ | ⟨-, -, -, hcreated⟩ |
    ⟨-, -, -, -, -, -, hcreated⟩
  · exact hcreated.ge
  · exact hcreated ▸ Nat.le_succ _
  · exact hcreated.ge
  · exact hcreated.ge

theorem added_le (config : Config) (q : Query) (s : Store) : s.added ≤ (perform config q s).2.added := by
  rcases (perform_effects config q s).queued with ⟨-, hadded⟩ | ⟨-, -, -, -, -, hadded⟩ | ⟨-, -, -, -, -, hadded⟩ |
    ⟨-, -, -, -, -, hadded⟩ | ⟨-, -, -, -, -, -, -, hadded⟩
  · exact hadded.ge
  · exact hadded ▸ Nat.le_succ _
  · exact hadded.ge
  · exact hadded.ge
  · exact hadded.ge

theorem recorded_serve (h : Strict stages s) (q : Query) :
    (∀ id < (perform config q s).2.created, ((perform config q s).2.find id).isSome = true) ∧
      ∀ row ∈ (perform config q s).2.outbox, row.id < (perform config q s).2.created := by
  rcases (perform_effects config q s).wrote with ⟨houtbox, hcreated⟩ | ⟨new, hnew, -, houtbox, hcreated⟩ |
    ⟨id, -, houtbox, hcreated⟩ | ⟨id, f, -, hsame, -, houtbox, hcreated⟩
  · rw [hcreated]
    refine ⟨fun id hid => ?_, fun row hrow => ?_⟩
    · rw [find, houtbox]
      exact h.recorded id hid
    · rw [houtbox] at hrow
      exact h.rows row hrow
  · rw [hcreated]
    refine ⟨fun id hid => ?_, fun row hrow => ?_⟩
    · rw [find, houtbox, find?_append]
      rcases Nat.lt_succ_iff_lt_or_eq.mp hid with hold | heq
      · obtain ⟨row, hrow⟩ := isSome_iff_exists.mp (h.recorded id hold)
        rw [show s.outbox.find? (fun row => decide (row.id = id)) = some row from hrow]
        rfl
      · have hfound : [new].find? (fun row => decide (row.id = id)) = some new :=
          find?_cons_of_pos (decide_eq_true (hnew.trans heq.symm))
        rw [hfound, isSome_or, isSome_some, Bool.or_true]
    · rw [houtbox] at hrow
      rcases mem_append.mp hrow with hrow | hrow
      · exact Nat.lt_succ_of_lt (h.rows row hrow)
      · rw [mem_singleton.mp hrow, hnew]
        exact Nat.lt_succ_self _
  · rw [hcreated]
    refine ⟨fun id' hid => ?_, fun row hrow => ?_⟩
    · rw [find_updated (claimRecord_id id) houtbox, isSome_map]
      exact h.recorded id' hid
    · rw [houtbox] at hrow
      obtain ⟨old, hold, rfl⟩ := mem_map.mp hrow
      rw [claimRecord_id]
      exact h.rows old hold
  · rw [hcreated]
    refine ⟨fun id' hid => ?_, fun row hrow => ?_⟩
    · rw [find_updated (updateRecord_id hsame id) houtbox, isSome_map]
      exact h.recorded id' hid
    · rw [houtbox] at hrow
      obtain ⟨old, hold, rfl⟩ := mem_map.mp hrow
      rw [updateRecord_id hsame]
      exact h.rows old hold

theorem jobs_serve (h : Strict stages s) (htimely : TimelyAt stages s q) (hi : stages[i]? = some σ)
    (hallowed : σ.allowed q) : ∀ job ∈ (perform config q s).2.jobs,
    job.id < (perform config q s).2.added ∧ job.data.outboxId < (perform config q s).2.created := by
  have hold : ∀ job ∈ s.jobs,
      job.id < (perform config q s).2.added ∧ job.data.outboxId < (perform config q s).2.created := fun job hjob =>
    ⟨lt_of_lt_of_le (h.jobs job hjob).1 (added_le config q s),
      lt_of_lt_of_le (h.jobs job hjob).2 (created_le config q s)⟩
  have hmap : ∀ (jobId : ℕ) (f : Job → Job), (∀ job, (f job).id = job.id ∧ (f job).data = job.data) →
      ∀ job ∈ s.jobs.map (updateJob jobId f),
        job.id < (perform config q s).2.added ∧ job.data.outboxId < (perform config q s).2.created := by
    intro jobId f hsame job hjob
    obtain ⟨old, hmem, rfl⟩ := mem_map.mp hjob
    rw [(updateJob_data hsame jobId old).1, (updateJob_data hsame jobId old).2]
    exact hold old hmem
  intro job hjob
  rcases (perform_effects config q s).queued with ⟨hjobs, -⟩ | ⟨source, data, hquery, hup, hjobs, hadded⟩ |
    ⟨jobId, picked, -, -, hjobs, -⟩ | ⟨job', error, -, -, hjobs, -⟩ | ⟨job', error, f, -, -, hsame, hjobs, -⟩
  · rw [hjobs] at hjob
    exact hold job hjob
  · rw [hjobs] at hjob
    rcases mem_append.mp hjob with hjob | hjob
    · exact hold job hjob
    · have howned := h.owned σ (mem_of_getElem? hi) _ (adds_outboxId h htimely hi hallowed hquery hup).1
      have hnew : job.id = s.added ∧ job.data = data s.now := by
        rw [mem_singleton.mp hjob]
        cases source with
        | _ => exact ⟨rfl, rfl⟩
      rw [hnew.1, hnew.2, hadded]
      exact ⟨Nat.lt_succ_self _, lt_of_lt_of_le howned (created_le config q s)⟩
  · rw [hjobs] at hjob
    exact hmap jobId Job.start (fun _ => ⟨rfl, rfl⟩) job hjob
  · rw [hjobs] at hjob
    exact hold job (mem_filter.mp hjob).1
  · rw [hjobs] at hjob
    exact hmap job'.id f hsame job hjob

theorem dlq_serve (h : Strict stages s) (hi : stages[i]? = some σ) (hallowed : σ.allowed q) :
    ∀ job ∈ (perform config q s).2.dlq, job.data.outboxId < (perform config q s).2.created := by
  have hle := created_le config q s
  intro job hjob
  rcases (perform_effects config q s).buried with hdlq | ⟨job', error, rfl, entry, hdata, hdlq⟩ | ⟨jobId, -, hdlq⟩
  · rw [hdlq] at hjob
    exact lt_of_lt_of_le (h.dlq job hjob) hle
  · rw [hdlq] at hjob
    rcases mem_append.mp hjob with hjob | hjob
    · exact lt_of_lt_of_le (h.dlq job hjob) hle
    · rw [mem_singleton.mp hjob, hdata]
      refine lt_of_lt_of_le (h.owned σ (mem_of_getElem? hi) _ ?_) hle
      rw [allowed_moveToDlq hallowed]
      rfl
  · rw [hdlq] at hjob
    exact lt_of_lt_of_le (h.dlq job (mem_filter.mp hjob).1) hle

theorem deliveries_serve (h : Strict stages s) (hi : stages[i]? = some σ) (hallowed : σ.allowed q) :
    ∀ d ∈ (perform config q s).2.deliveries, d.jobId < (perform config q s).2.added := by
  have hle := added_le config q s
  intro d hd
  rcases (perform_effects config q s).delivered with hsame | ⟨job, messageId, rfl, hdeliveries⟩
  · rw [hsame] at hd
    exact lt_of_lt_of_le (h.deliveries d hd) hle
  · rw [hdeliveries] at hd
    rcases mem_cons.mp hd with rfl | hd
    · have hknows := h.knows σ (mem_of_getElem? hi)
      rw [allowed_deliver hallowed] at hknows
      exact lt_of_lt_of_le hknows.1.below hle
    · exact lt_of_lt_of_le (h.deliveries d hd) hle

theorem find?_isReady {jobId : ℕ} (h : s.jobs.find? (·.isReady s.now jobId) = some job) :
    job ∈ s.jobs ∧ job.id = jobId ∧ job.active = false := by
  have hready := find?_some h
  have hready := of_decide_eq_true hready
  exact ⟨mem_of_find?_eq_some h, hready.1, hready.2.1⟩

theorem owned_serve (h : Strict stages s) (hi : stages[i]? = some σ) (hallowed : σ.allowed q) :
    ∀ τ ∈ stages.set i (Stage.next σ q (perform config q s).1), ∀ id, τ.outboxId = some id →
      id < (perform config q s).2.created := by
  have hle := created_le config q s
  have hold : ∀ τ ∈ stages, ∀ id, τ.outboxId = some id → id < (perform config q s).2.created :=
    fun τ hτ id hid => lt_of_lt_of_le (h.owned τ hτ id hid) hle
  have hσ := hold σ (mem_of_getElem? hi)
  refine forall_mem_set ?_ fun j τ _ hj => hold τ (mem_of_getElem? hj)
  intro id hid
  have hwent := went config s hallowed
  generalize hnext : Stage.next σ q (perform config q s).1 = σ' at hwent hid
  cases hwent with
  | rests _ => cases hid
  | creates created =>
    obtain ⟨type, recipient, subject, message, rfl⟩ := created
    cases hid
    rcases commit_cases (s.createOutbox type recipient subject message) s with
      ⟨e, -, hcommit⟩ | ⟨newId, s', htx, hcommit⟩
    · rw [perform, hcommit] at hnext
      cases hnext
    · rw [perform, hcommit, ask_store htx]
      exact Nat.lt_succ_self _
  | finds id' => cases hid
  | claims id' recordId dead =>
    cases hid
    obtain ⟨row, hrow, hrowId, -⟩ := dead
    exact hrowId ▸ lt_of_lt_of_le (h.rows row hrow) hle
  | replays id' recordId | adds id' => exact hσ id hid
  | picksUp jobId job query found =>
    cases hid
    exact lt_of_lt_of_le (h.jobs job (find?_isReady found).1).2 hle
  | processes job quiet failed | delivers job messageId query | buries job error query exhausted
  | fails job error query | completes job query | buried job error query => exact hσ id hid

theorem outboxId_went {σ' : Stage} (h : Strict stages s) (hi : stages[i]? = some σ) (hwent : Went s q σ σ')
    (hid : σ'.outboxId = some id) : σ.outboxId = some id ∨ ∀ τ ∈ stages, τ ≠ .created id := by
  -- a record whose job is not added yet is pending, and has no job
  have hdead : ∀ row ∈ s.outbox, row.id = id → row.status = .deadLetter → ∀ τ ∈ stages, τ ≠ .created id := by
    rintro row hrow hrowId hstatus τ hτ rfl
    have hpending := (h.knows _ hτ).1 row hrow hrowId
    rw [hstatus] at hpending
    cases hpending
  have hlive : ∀ job ∈ s.jobs, job.data.outboxId = id → ∀ τ ∈ stages, τ ≠ .created id := by
    rintro job hjob hjobId τ hτ rfl
    have hnone := (h.knows _ hτ).2
    have hpos : 0 < s.jobs.countP (·.data.outboxId = id) :=
      countP_pos_iff.mpr ⟨job, hjob, decide_eq_true hjobId⟩
    rw [jobsOf] at hnone
    omega
  cases hwent with
  | rests _ => cases hid
  | creates created =>
    cases hid
    refine .inr ?_
    rintro τ hτ rfl
    exact absurd (h.owned _ hτ _ rfl) (Nat.lt_irrefl _)
  | finds id' => cases hid
  | claims id' recordId dead =>
    cases hid
    obtain ⟨row, hrow, hrowId, hstatus⟩ := dead
    exact .inr (hdead row hrow hrowId hstatus)
  | replays id' recordId | adds id' => exact .inl hid
  | picksUp jobId job query found =>
    cases hid
    exact .inr (hlive job (find?_isReady found).1 rfl)
  | processes job quiet failed | delivers job messageId query | buries job error query exhausted
  | fails job error query | completes job query | buried job error query => exact .inl hid

theorem lone_serve (h : Strict stages s) (hi : stages[i]? = some σ) (hallowed : σ.allowed q) :
    Lone (stages.set i (Stage.next σ q (perform config q s).1)) := by
  have hlt : i < stages.length := (List.getElem?_eq_some_iff.mp hi).1
  have hwent := went config s hallowed
  generalize Stage.next σ q (perform config q s).1 = σ' at hwent
  intro a b τ id ha hb hτ
  by_cases hai : a = i
  · by_cases hbi : b = i
    · rw [hai, hbi]
    · rw [hai, getElem?_set_self hlt, some.injEq] at ha
      rw [getElem?_set_ne (Ne.symm hbi)] at hb
      -- the record is new, and nobody else can know it
      have hnew : id = s.created := by
        rw [ha] at hwent
        cases hwent with
        | creates created => rfl
      have howned := h.owned τ (mem_of_getElem? hb) id hτ
      omega
  · rw [getElem?_set_ne (Ne.symm hai)] at ha
    by_cases hbi : b = i
    · rw [hbi, getElem?_set_self hlt, some.injEq] at hb
      rw [← hb] at hτ
      rcases outboxId_went h hi hwent hτ with hbefore | hnobody
      · rw [hbi]
        exact h.lone a i σ id ha hi hbefore
      · exact absurd rfl (hnobody _ (mem_of_getElem? ha))
    · rw [getElem?_set_ne (Ne.symm hbi)] at hb
      exact h.lone a b τ id ha hb hτ

theorem held_serve (h : Strict stages s) (hi : stages[i]? = some σ) (hallowed : σ.allowed q) :
    Exclusive Stage.HoldsJob (stages.set i (Stage.next σ q (perform config q s).1)) := by
  refine h.held.set hi fun jobId hholds => ?_
  have hwent := went config s hallowed
  generalize Stage.next σ q (perform config q s).1 = σ' at hwent hholds
  cases hwent with
  | picksUp jobId' job query found =>
    -- the job was not active, so nobody had it
    obtain ⟨hjob, -, hinactive⟩ := find?_isReady found
    refine .inr fun τ hτ hτholds => ?_
    have hsame : job.id = jobId := hholds
    have hknows := h.knows τ hτ
    cases τ with
    | processing job' =>
      have hid : job'.id = jobId := hτholds
      have := hknows.1.active job hjob (hsame.trans hid.symm)
      rw [hinactive] at this
      cases this
    | delivered job' =>
      have hid : job'.id = jobId := hτholds
      have := HasJob.active hknows job hjob (hsame.trans hid.symm)
      rw [hinactive] at this
      cases this
    | _ => exact hτholds
  | processes job quiet failed | delivers job messageId query => exact .inl hholds
  | _ => exact hholds.elim

theorem next_knows (h : Strict stages s) (hi : stages[i]? = some σ) (hallowed : σ.allowed q) :
    (Stage.next σ q (perform config q s).1).Knows (perform config q s).2 := by
  have hknows := h.knows σ (mem_of_getElem? hi)
  have hwent := went config s hallowed
  generalize hnext : Stage.next σ q (perform config q s).1 = σ' at hwent
  cases hwent with
  | creates created =>
    obtain ⟨type, recipient, subject, message, rfl⟩ := created
    rcases commit_cases (s.createOutbox type recipient subject message) s with
      ⟨e, -, hcommit⟩ | ⟨id, s', htx, hcommit⟩
    · rw [perform, hcommit] at hnext
      cases hnext
    · rw [perform, hcommit, ask_store htx]
      refine ⟨fun row hrow hid => ?_, ?_⟩
      · rcases mem_append.mp hrow with hrow | hrow
        · exact absurd hid (h.rows row hrow).ne
        · rw [mem_singleton.mp hrow]
      · have hlive : s.jobs.countP (·.data.outboxId = s.created) = 0 :=
          countP_eq_zero.mpr fun job hjob heq => absurd (of_decide_eq_true heq) (h.jobs job hjob).2.ne
        have hdead : s.dlq.countP (·.data.outboxId = s.created) = 0 :=
          countP_eq_zero.mpr fun job hjob heq => absurd (of_decide_eq_true heq) (h.dlq job hjob).ne
        change s.jobs.countP (·.data.outboxId = s.created) + s.dlq.countP (·.data.outboxId = s.created) = 0
        rw [hlive, hdead]
  | finds id => exact rfl
  | claims id recordId dead | replays id recordId => exact hknows
  | picksUp jobId job query found =>
    subst query
    obtain ⟨hjob, hid, hinactive⟩ := find?_isReady found
    simp only [perform, pickUp, found]
    refine ⟨⟨(h.jobs job hjob).1, ⟨updateJob jobId Job.start job, mem_map_of_mem hjob, ?_⟩,
      fun job' hjob' hid' => ?_⟩, h.waiting job hjob hinactive⟩
    · exact updateJob_data (f := Job.start) (fun _ => ⟨rfl, rfl⟩) jobId job
    · obtain ⟨old, hold, rfl⟩ := mem_map.mp hjob'
      rw [(updateJob_data (f := Job.start) (fun _ => ⟨rfl, rfl⟩) jobId old).1] at hid'
      rw [updateJob, if_pos (hid'.trans hid)]
      rfl
  | processes job quiet failed =>
    refine ⟨hknows.1.frame fun job' error hquery => absurd hquery (quiet job' error), ?_⟩
    rcases (perform_effects config q s).delivered with hsame | ⟨job', messageId, hquery, -⟩
    · rw [delivered, hsame]
      exact hknows.2
    · exact absurd hquery (failed job' messageId)
  | delivers job messageId query =>
    exact hknows.1.frame fun job' error hquery => by
      rw [query] at hquery
      cases hquery
  | _ => trivial

theorem tokens_serve (h : Strict stages s) (htimely : TimelyAt stages s q) (hi : stages[i]? = some σ)
    (hallowed : σ.allowed q) (id : ℕ) : (perform config q s).2.jobsOf id +
      (stages.set i (Stage.next σ q (perform config q s).1)).countP (·.buries id) ≤ 1 := by
  obtain ⟨hlt, hget⟩ := List.getElem?_eq_some_iff.mp hi
  have hmem := List.mem_of_getElem? hi
  have htokens := h.tokens id
  have hwent := went config s hallowed
  generalize Stage.next σ q (perform config q s).1 = σ' at hwent
  have hset : (stages.set i σ').countP (·.buries id) =
      stages.countP (·.buries id) - (if σ.buries id then 1 else 0) + (if σ'.buries id then 1 else 0) := by
    rw [countP_set hlt, hget]
  have hmine : σ.buries id = true → 0 < stages.countP (·.buries id) :=
    fun hburies => countP_pos_iff.mpr ⟨σ, hmem, hburies⟩
  rw [hset]
  rw [jobsOf] at htokens ⊢
  by_cases hbury : q.buries = some id
  · -- the job goes from the worker to the dead letters, or is lost
    cases q with
    | moveToDlq job error =>
      have hσ := allowed_moveToDlq hallowed
      rw [hσ] at hwent hmine ⊢
      have hlive : (perform config (.moveToDlq job error) s).2.jobs.countP (·.data.outboxId = id) ≤
          s.jobs.countP (·.data.outboxId = id) := liveJobs_frame config fun _ _ h => by cases h
      have hdead := deadJobs_le config (.moveToDlq job error) s id
      have hb : (Stage.burying job).buries id = true := decide_eq_true (some.inj hbury)
      have hpos := hmine hb
      have hb' : σ'.buries id = false := by
        cases hwent with
        | rests _ settled buried =>
          rw [buried id] at hb
          cases hb
        | buried _ _ _ => rfl
      rw [if_pos hb, hb']
      simp only [Bool.false_eq_true, if_false]
      omega
    | _ => cases hbury
  · have hdead := deadJobs_frame config s hbury
    by_cases hadd : ∃ source data, q = .add .notifications source data ∧ s.queue.isOk = true ∧
        (data s.now).outboxId = id
    · obtain ⟨source, data, hquery, hup, hid⟩ := hadd
      obtain ⟨howns, hadds⟩ := adds_outboxId h htimely hi hallowed hquery hup
      rw [hid] at howns hadds
      have hempty : s.jobs.countP (·.data.outboxId = id) + s.dlq.countP (·.data.outboxId = id) = 0 ∧
          stages.countP (·.buries id) = 0 := by
        rcases hadds with hσ | hsource
        · have hknows := h.knows σ hmem
          rw [hσ] at hknows hi
          refine ⟨hknows.2, countP_eq_zero.mpr fun τ hτ hburies => ?_⟩
          obtain ⟨j, hj⟩ := mem_iff_getElem?.mp hτ
          have hτid : τ.outboxId = some id := by
            cases τ with
            | burying job => exact congrArg some (of_decide_eq_true hburies)
            | _ => cases hburies
          have hij := h.lone i j τ id hi hj hτid
          rw [← hij, hi] at hj
          rw [← some.inj hj] at hburies
          cases hburies
        · rw [hsource] at hquery
          obtain ⟨hnone, hfree⟩ := htimely.replays data hquery hup
          rw [hid] at hnone hfree
          exact ⟨hnone, countP_eq_zero.mpr fun τ hτ hburies => by rw [hfree τ hτ] at hburies; cases hburies⟩
      have hlive : (perform config q s).2.jobs.countP (·.data.outboxId = id) ≤
          s.jobs.countP (·.data.outboxId = id) + 1 := by
        rcases (perform_effects config q s).queued with ⟨hjobs, -⟩ | ⟨_, _, -, -, hjobs, -⟩ | ⟨_, _, hq, -, -, -⟩ |
          ⟨_, _, hq, -, -, -⟩ | ⟨_, _, _, hq, -, -, -, -⟩
        · rw [hjobs]
          exact Nat.le_succ _
        · rw [hjobs, countP_append]
          exact Nat.add_le_add_left countP_le_length _
        · rw [hquery] at hq
          cases hq
        · rw [hquery] at hq
          cases hq
        · rw [hquery] at hq
          cases hq
      have hb' : σ'.buries id = false := by
        subst hquery
        cases hwent with
        | buries job error query exhausted => cases query
        | _ => rfl
      rw [hb']
      simp only [Bool.false_eq_true, if_false]
      omega
    · have hlive : (perform config q s).2.jobs.countP (·.data.outboxId = id) ≤
          s.jobs.countP (·.data.outboxId = id) :=
        liveJobs_frame config fun source data hquery hup hid => hadd ⟨source, data, hquery, hup, hid⟩
      by_cases hb' : σ'.buries id = true
      · cases hwent with
        | buries job error query exhausted =>
          have hknows := h.knows _ hmem
          have hdata : job.data.outboxId = id := of_decide_eq_true hb'
          have hless : (perform config q s).2.jobs.countP (·.data.outboxId = id) + 1 ≤
              s.jobs.countP (·.data.outboxId = id) := by
            obtain ⟨job', hjob', hid, hsame⟩ := hknows.1.live
            rw [query]
            simp only [perform, settle, if_pos exhausted]
            exact countP_without ⟨job', hjob', hid, (congrArg NotificationJobData.outboxId hsame).trans hdata⟩
          have hb : (Stage.processing job).buries id = false := rfl
          rw [if_pos hb', hb]
          simp only [Bool.false_eq_true, if_false]
          omega
        | _ => cases hb'
      · rw [if_neg hb']
        omega

theorem waiting_serve (h : Strict stages s) (hi : stages[i]? = some σ) (hallowed : σ.allowed q) :
    ∀ job ∈ (perform config q s).2.jobs, job.active = false → (perform config q s).2.delivered job.id = 0 := by
  have hknows := h.knows σ (mem_of_getElem? hi)
  intro job hjob hinactive
  rcases (perform_effects config q s).delivered with hsame | ⟨job', messageId, hquery, hdeliveries⟩
  · rw [delivered, hsame]
    rcases (perform_effects config q s).queued with ⟨hjobs, -⟩ | ⟨source, data, -, -, hjobs, -⟩ |
      ⟨jobId, picked, -, -, hjobs, -⟩ | ⟨job', error, -, -, hjobs, -⟩ | ⟨job', error, f, hquery, -, hsame, hjobs, -⟩
    · rw [hjobs] at hjob
      exact h.waiting job hjob hinactive
    · rw [hjobs] at hjob
      rcases mem_append.mp hjob with hjob | hjob
      · exact h.waiting job hjob hinactive
      · have hnew : job.id = s.added := by
          rw [mem_singleton.mp hjob]
          cases source with
          | _ => rfl
        refine countP_eq_zero.mpr fun d hd heq => ?_
        have hbelow := h.deliveries d hd
        have heq : d.jobId = job.id := of_decide_eq_true heq
        omega
    · rw [hjobs] at hjob
      obtain ⟨old, hold, rfl⟩ := mem_map.mp hjob
      by_cases heq : old.id = jobId
      · rw [updateJob, if_pos heq] at hinactive
        cases hinactive
      · rw [updateJob, if_neg heq] at hinactive ⊢
        exact h.waiting old hold hinactive
    · rw [hjobs] at hjob
      exact h.waiting job (mem_filter.mp hjob).1 hinactive
    · rw [hjobs] at hjob
      obtain ⟨old, hold, rfl⟩ := mem_map.mp hjob
      rw [(updateJob_data hsame job'.id old).1]
      by_cases heq : old.id = job'.id
      · -- the attempt of a job that is tried again failed
        rw [heq]
        subst hquery
        rcases (allowed_settle hallowed).2 with ⟨e, -, hσ⟩ | ⟨hnone, -⟩
        · rw [hσ] at hknows
          exact hknows.2
        · cases hnone
      · rw [updateJob, if_neg heq] at hinactive
        exact h.waiting old hold hinactive
  · subst hquery
    rw [allowed_deliver hallowed] at hknows
    have hjobs : (perform config (.deliver job' (.ok messageId)) s).2.jobs = s.jobs := rfl
    rw [hjobs] at hjob
    have hne : job'.id ≠ job.id := by
      intro heq
      rw [hknows.1.active job hjob heq.symm] at hinactive
      cases hinactive
    rw [delivered, hdeliveries, countP_cons_of_neg (by simpa using hne)]
    exact h.waiting job hjob hinactive

theorem once_serve (h : Strict stages s) (hi : stages[i]? = some σ) (hallowed : σ.allowed q) (jobId : ℕ) :
    (perform config q s).2.delivered jobId ≤ 1 := by
  rcases (perform_effects config q s).delivered with hsame | ⟨job, messageId, rfl, hdeliveries⟩
  · rw [delivered, hsame]
    exact h.once jobId
  · have hknows := h.knows σ (mem_of_getElem? hi)
    rw [allowed_deliver hallowed] at hknows
    by_cases heq : job.id = jobId
    · have hnone := hknows.2
      rw [heq, delivered] at hnone
      rw [delivered, hdeliveries, countP_cons_of_pos (by simpa using heq), hnone]
    · rw [delivered, hdeliveries, countP_cons_of_neg (by simpa using heq)]
      exact h.once jobId

theorem ends_serve (h : Strict stages s) (htimely : TimelyAt stages s q) (hi : stages[i]? = some σ)
    (hallowed : σ.allowed q) : ∀ d ∈ (perform config q s).2.deliveries,
    (perform config q s).2.status d.outboxId = some .sent ∨
      ∃ τ ∈ stages.set i (Stage.next σ q (perform config q s).1), τ.Completes d.outboxId := by
  have hlt : i < stages.length := (List.getElem?_eq_some_iff.mp hi).1
  have hnext : ∀ id, (Stage.next σ q (perform config q s).1).Completes id →
      ∃ τ ∈ stages.set i (Stage.next σ q (perform config q s).1), τ.Completes id :=
    fun id hcompletes => ⟨_, mem_set hlt _, hcompletes⟩
  have hold : ∀ d ∈ s.deliveries, (perform config q s).2.status d.outboxId = some .sent ∨
      ∃ τ ∈ stages.set i (Stage.next σ q (perform config q s).1), τ.Completes d.outboxId := by
    intro d hd
    rcases h.ends d hd with hsent | ⟨τ, hτ, hcompletes⟩
    · exact .inl (status_sent hsent fun hquery => htimely.status d.outboxId hquery hsent)
    · obtain ⟨j, hj⟩ := mem_iff_getElem?.mp hτ
      by_cases hji : j = i
      · have hτσ : τ = σ := by
          rw [hji, hi] at hj
          exact (some.inj hj).symm
        rw [hτσ] at hcompletes
        have hwent := went config s hallowed
        generalize hafter : Stage.next σ q (perform config q s).1 = σ' at hwent hnext ⊢
        cases hwent with
        | rests _ settled buried =>
          rcases settled d.outboxId with hnot | hquery
          · exact absurd hcompletes hnot
          · -- the completed event is written down
            subst hquery
            have hfind := h.recorded _ (h.owned σ (mem_of_getElem? hi) _ (recordId_outboxId hallowed rfl))
            refine .inl ?_
            rw [perform, update_writes (htimely.marks _ rfl) hfind, status]
            obtain ⟨row, hrow⟩ := isSome_iff_exists.mp hfind
            have hid : row.id = d.outboxId := by
              have := find?_some hrow
              exact of_decide_eq_true this
            let sent : NotificationOutbox → NotificationOutbox :=
              fun row => { row with status := .sent, sentAt := some s.now }
            rw [find_updated (s := s) (f := updateRecord d.outboxId sent)
              (updateRecord_id (f := sent) (fun _ => rfl) d.outboxId) rfl, hrow, map_some, map_some,
              updateRecord, if_pos hid]
        | completes job query => exact .inr (hnext _ hcompletes)
        | _ => exact hcompletes.elim
      · refine .inr ⟨τ, mem_of_getElem? (i := j) ?_, hcompletes⟩
        rw [getElem?_set_ne (Ne.symm hji)]
        exact hj
  intro d hd
  rcases (perform_effects config q s).delivered with hsame | ⟨job, messageId, rfl, hdeliveries⟩
  · rw [hsame] at hd
    exact hold d hd
  · rw [hdeliveries] at hd
    rcases mem_cons.mp hd with rfl | hd
    · refine .inr (hnext _ ?_)
      rw [allowed_deliver hallowed]
      exact rfl
    · exact hold d hd

theorem strict_serve (h : Strict stages s) (htimely : TimelyAt stages s q) (hi : stages[i]? = some σ)
    (hallowed : σ.allowed q) :
    Strict (stages.set i (Stage.next σ q (perform config q s).1)) (perform config q s).2 where
  recorded := (recorded_serve h q).1
  rows := (recorded_serve h q).2
  jobs := jobs_serve h htimely hi hallowed
  dlq := dlq_serve h hi hallowed
  deliveries := deliveries_serve h hi hallowed
  owned := owned_serve h hi hallowed
  lone := lone_serve h hi hallowed
  held := held_serve h hi hallowed
  knows := forall_mem_set (next_knows h hi hallowed) (others_know h htimely hi hallowed)
  tokens := tokens_serve h htimely hi hallowed
  waiting := waiting_serve h hi hallowed
  once := once_serve h hi hallowed
  ends := ends_serve h htimely hi hallowed

theorem strict_start (h : Strict stages s) : Strict (stages ++ [.fresh]) s where
  recorded := h.recorded
  rows := h.rows
  jobs := h.jobs
  dlq := h.dlq
  deliveries := h.deliveries
  owned σ hσ id hid := by
    rcases mem_append.mp hσ with hσ | hσ
    · exact h.owned σ hσ id hid
    · rw [mem_singleton.mp hσ] at hid
      cases hid
  lone i j τ id hi hj hτ := by
    rcases getElem?_snoc hi with hi | ⟨-, hσ⟩
    · rcases getElem?_snoc hj with hj | ⟨-, rfl⟩
      · exact h.lone i j τ id hi hj hτ
      · cases hτ
    · cases hσ
  held := h.held.snoc fun _ => id
  knows σ hσ := by
    rcases mem_append.mp hσ with hσ | hσ
    · exact h.knows σ hσ
    · rw [mem_singleton.mp hσ]
      trivial
  tokens id := by
    rw [countP_append]
    exact h.tokens id
  waiting := h.waiting
  once := h.once
  ends d hd := by
    rcases h.ends d hd with hsent | ⟨σ, hσ, hcompletes⟩
    · exact .inl hsent
    · exact .inr ⟨σ, mem_append_left _ hσ, hcompletes⟩

end Invariant
section Runs
variable {now : ℤ} {p : OutboxPool} {tr : List OutboxTransition}

def InOrder (p : OutboxPool) : Prop :=
  ∃ stages, p.At protocol (fun σ _ => ¬ σ.IsHeld) stages ∧ Strict stages p.store

theorem inOrder_idle : InOrder ({ store := { now := now } } : OutboxPool) := by
  refine ⟨[], List.Forall₂.nil, ?_⟩
  exact
    { recorded := fun _ h => absurd h (Nat.not_lt_zero _)
      rows := fun _ h => absurd h not_mem_nil
      jobs := fun _ h => absurd h not_mem_nil
      dlq := fun _ h => absurd h not_mem_nil
      deliveries := fun _ h => absurd h not_mem_nil
      owned := fun _ h => absurd h not_mem_nil
      lone := fun _ _ _ _ h => by cases h
      held := Exclusive.nil
      knows := fun _ h => absurd h not_mem_nil
      tokens := fun _ => Nat.zero_le _
      waiting := fun _ h => absurd h not_mem_nil
      once := fun _ => Nat.zero_le _
      ends := fun _ h => absurd h not_mem_nil }

theorem buries_query (hallowed : σ.allowed q) (h : σ.buries id = true) : q.buries = some id := by
  cases σ with
  | burying job =>
    cases q with
    | moveToDlq job' error =>
      have hjob : job' = job := hallowed
      rw [hjob]
      exact congrArg some (of_decide_eq_true h)
    | _ => exact hallowed.elim
  | _ => cases h

theorem completes_query (hallowed : σ.allowed q) (h : σ.Completes id) : q.completes = some id := by
  cases σ with
  | delivered job =>
    cases q with
    | settle job' error =>
      cases error with
      | none =>
        have hjob : job' = job := hallowed
        rw [hjob]
        exact congrArg some h
      | some error => exact hallowed.elim
    | _ => exact hallowed.elim
  | completing id' =>
    cases q with
    | markSent id'' =>
      have hid : id'' = id' := hallowed
      rw [hid]
      exact congrArg some h
    | _ => exact hallowed.elim
  | _ => exact h.elim

theorem timelyAt {stages : List Stage} (h : p.At protocol (fun σ _ => ¬ σ.IsHeld) stages)
    (hq : q.IsTimely p) : TimelyAt stages p.store q where
  status id hrecord hsent := by
    cases q with
    | markEnqueued id' jobId =>
      cases hrecord
      exact absurd hsent hq
    | revert id' lastError =>
      cases hrecord
      exact absurd hsent hq
    | markFailed id' status lastError =>
      cases hrecord
      exact absurd hsent hq
    | markSent id' => exact .inr rfl
    | setJobId id' jobId | startAttempt id' => exact .inl rfl
    | _ => cases hrecord
  marks id heq := by
    subst heq
    exact hq
  replays data heq hup := by
    subst heq
    obtain ⟨hnone, hfree⟩ := hq hup
    refine ⟨hnone, fun σ hσ => ?_⟩
    by_contra hburies
    refine hfree (h.busy (fun σ id => σ.buries id = true) (fun σ _ id hrest hburies => ?_)
      (fun σ q id hallowed hburies => buries_query hallowed hburies) hσ (Bool.eq_true_of_not_eq_false hburies))
    cases σ with
    | burying job => exact hrest trivial
    | _ => cases hburies
  exhumes data heq := by
    subst heq
    exact hq

theorem inOrder_of_run (hrun : Run (OutboxStep config) { store := { now := now } } tr p)
    (htimely : ∀ t ∈ tr, Timely t) {t : OutboxTransition} (ht : t ∈ tr) : InOrder t.pre ∧ InOrder t.post := by
  refine hrun.invariant_at (I := InOrder) (C := Timely) inOrder_idle htimely (fun t hstep hC hpre => ?_) ht
  obtain ⟨stages, hat, hstrict⟩ := hpre
  rcases hat.step body_follows hstep with ⟨-, hstore, hat'⟩ | ⟨i, σ, q, -, hq, hσ, hallowed, hstore, hat'⟩
  · refine ⟨_, hat', ?_⟩
    rw [hstore]
    exact strict_start hstrict
  · refine ⟨_, hat', ?_⟩
    rw [hstore]
    exact strict_serve hstrict (timelyAt hat (hC q hq)) hσ hallowed

/-- Outbox bookkeeping: in every run in which no status is written over `sent`, the completed events are written down,
jobs are replayed only when their record has no other one and none is replayed from the dead-letter queue, the outbox
keeps its books. -/
theorem bookkept_of_timely (hrun : Run (OutboxStep config) { store := { now := now } } tr p)
    (htimely : ∀ t ∈ tr, Timely t) : Bookkept tr where
  stays := by
    have htrans : ∀ a b c : OutboxPool, (∀ id, a.store.status id = some .sent → b.store.status id = some .sent) →
        (∀ id, b.store.status id = some .sent → c.store.status id = some .sent) →
        ∀ id, a.store.status id = some .sent → c.store.status id = some .sent :=
      fun a b c hab hbc id hsent => hbc id (hab id hsent)
    refine hrun.pairwise_post (fun _ _ h => h) htrans fun t ht id hsent => ?_
    obtain ⟨stages, hat, -⟩ := (inOrder_of_run hrun htimely ht).1
    rcases (hrun.step_of_mem ht).store with ⟨-, hstore⟩ | ⟨q, hq, hstore⟩
    · rw [hstore]
      exact hsent
    · rw [hstore]
      exact status_sent hsent fun hrecord => (timelyAt hat (htimely t ht q hq)).status id hrecord hsent
  ends t ht d hd hbusy := by
    obtain ⟨stages, hat, hstrict⟩ := (inOrder_of_run hrun htimely ht).2
    rcases hstrict.ends d hd with hsent | ⟨σ, hσ, hcompletes⟩
    · exact hsent
    · refine absurd (hat.busy (fun σ id => σ.Completes id) (fun σ _ id hrest hcompletes => ?_)
        (fun σ q id hallowed hcompletes => completes_query hallowed hcompletes) hσ hcompletes) hbusy
      cases σ with
      | delivered job | completing id' => exact hrest trivial
      | _ => exact hcompletes
  single t ht id := by
    obtain ⟨stages, -, hstrict⟩ := (inOrder_of_run hrun htimely ht).2
    exact le_trans (Nat.le_add_right _ _) (hstrict.tokens id)
  once t ht jobId := by
    obtain ⟨stages, -, hstrict⟩ := (inOrder_of_run hrun htimely ht).2
    exact hstrict.once jobId

def mailing (turns : List ℕ) : List OutboxTransition × OutboxPool :=
  play (Pool.take (perform {}) OutboxOp.body) { store := { now := 0 } }
    ([.start (.sendEmail "ada@example.org" "Claim" "Your claim is approved" none),
      .start (.work 0 (.ok "message-1"))] ++ turns.map .advance)

theorem mailing_run (turns : List ℕ) : Run (OutboxStep {}) { store := { now := 0 } } (mailing turns).1 (mailing turns).2 :=
  play_run (fun _ _ _ h => h) _ _

theorem bookkept_mailing : Bookkept (mailing [0, 0, 0, 1, 1, 1, 1, 1, 1, 1]).1 :=
  bookkept_of_timely (mailing_run _) (by decide +kernel)

theorem fastWorker_unsent : ¬ Bookkept (mailing [0, 0, 1, 1, 1, 1, 1, 1, 1, 0]).1 := by
  intro h
  have hlost : ¬ ∀ t ∈ (mailing [0, 0, 1, 1, 1, 1, 1, 1, 1, 0]).1, ∀ d ∈ t.post.store.deliveries,
      ¬ t.post.Busy Query.completes d.outboxId → t.post.store.status d.outboxId = some .sent := by
    decide +kernel
  exact hlost h.ends

end Runs
end Soter.Notifications
