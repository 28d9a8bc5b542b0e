import Soter.Lib.Protocol
import Soter.Notifications.Backpressure

/-! The notification outbox (`notifications.service.ts`), its worker (`notifications.processor.ts`) and the dead-letter
queue (`dlq.service.ts`). Every call of the database or of a queue is one request, and so are the attempt at the
provider and what the worker makes of a job that it is done with. -/
namespace Soter.Notifications
open Soter.Tasks Soter.Runs

inductive NotificationType
  | email
  | sms
  deriving DecidableEq

def providerForType : NotificationType → NotificationProvider
  | .sms => .sms
  | .email => .email

inductive NotificationOutboxStatus
  | pending
  | enqueued
  | sent
  | failed
  | deadLetter
  deriving DecidableEq

structure NotificationOutbox where
  id : ℕ
  type : NotificationType
  recipient : String
  subject : Option String
  message : String
  status : NotificationOutboxStatus := .pending
  retryCount : ℕ := 0
  lastError : Option String := none
  lastAttemptAt : Option ℤ := none
  scheduledFor : ℤ
  sentAt : Option ℤ := none
  jobId : Option ℕ := none

structure NotificationJobData where
  type : NotificationType
  recipient : String
  subject : Option String
  message : String
  timestamp : ℤ
  outboxId : ℕ
  correlationId : Option String

inductive Backoff
  | custom
  | exponential (delay : ℕ)

/-- A job of the queue `notifications`, which a worker works on or that waits for one. -/
structure Job where
  id : ℕ
  data : NotificationJobData
  attempts : ℕ
  backoff : Backoff
  attemptsMade : ℕ := 0
  /-- A job that is delayed is not picked up before. -/
  availableAt : ℤ
  active : Bool := false

inductive QueueName
  | verification
  | notifications
  | onchain
  | retentionPurge
  | other (name : String)

structure DlqJob where
  id : ℕ
  originalId : ℕ
  originalQueue : Option QueueName
  data : NotificationJobData
  failedReason : String
  failedAt : ℤ
  attemptsMade : ℕ

/-- A row of `NotificationDeliveryAttempt`. -/
structure NotificationDeliveryAttempt where
  outboxId : ℕ
  attemptNumber : ℕ
  errorMessage : Option String

/-- `AppException`, what Prisma throws, or what a queue throws. -/
inductive Failure
  | app (status : ℕ) (message : String)
  | prisma (message : String)
  | queue (message : String)

def Failure.message : Failure → String
  | .app _ message => message
  | .prisma message => message
  | .queue message => message

inductive JobError
  | circuitOpen (e : ProviderCircuitOpenError)
  | other (message : String)

def JobError.message : JobError → String
  | .circuitOpen e => e.message
  | .other message => message

structure Delivery where
  outboxId : ℕ
  jobId : ℕ
  deriving DecidableEq

structure Store where
  now : ℤ := 0
  outbox : List NotificationOutbox := []
  deliveryAttempts : List NotificationDeliveryAttempt := []
  jobs : List Job := []
  dlq : List DlqJob := []
  /-- The numbers of the records, of the jobs and of the dead-lettered jobs so far. -/
  created : ℕ := 0
  added : ℕ := 0
  buried : ℕ := 0
  backpressure : Service := {}
  /-- How the next calls of the database and of the queues fare. -/
  db : Except String Unit := .ok ()
  queue : Except String Unit := .ok ()
  deliveries : List Delivery := []

inductive Source
  | send
  | outboxReplay
  | dlqReplay

inductive Query
  | elapse (d : ℕ)
  | foresee (db queue : Except String Unit)
  | createOutbox (type : NotificationType) (recipient : String) (subject : Option String) (message : String)
  /-- `queue.add`, with data that depends on the time. -/
  | add (queue : QueueName) (source : Source) (data : ℤ → NotificationJobData)
  /-- `data: { status: 'enqueued', jobId }` -/
  | markEnqueued (id jobId : ℕ)
  | findOutbox (id : ℕ)
  /-- `where: { id, status: 'dead_letter' }` -/
  | claim (id : ℕ)
  /-- `data: { jobId }` -/
  | setJobId (id jobId : ℕ)
  | audit
  | countDeadLetters
  /-- `data: { status: 'dead_letter', lastError }` -/
  | revert (id : ℕ) (lastError : String)
  | getDlqJob (id : ℕ)
  | removeDlqJob (id : ℕ)
  /-- A worker picks a job up. -/
  | pickUp (jobId : ℕ)
  | gate (provider : NotificationProvider)
  /-- `data: { lastAttemptAt }` -/
  | startAttempt (id : ℕ)
  /-- `adapter.send`, with its outcome, which is recorded for the provider. -/
  | deliver (job : Job) (outcome : Except String String)
  /-- What the queue makes of a job that is done, or that failed. -/
  | settle (job : Job) (error : Option JobError)
  /-- `data: { status: 'sent', sentAt }` -/
  | markSent (id : ℕ)
  | moveToDlq (job : Job) (error : JobError)
  /-- `data: { status, retryCount: { increment: 1 }, lastError }` -/
  | markFailed (id : ℕ) (status : NotificationOutboxStatus) (lastError : String)
  | recordAttempt (attempt : NotificationDeliveryAttempt)

def Query.Reply : Query → Type
  | .elapse _ | .foresee .. | .deliver .. | .settle .. => Unit
  | .createOutbox .. | .add .. | .claim _ | .countDeadLetters => Except Failure ℕ
  | .markEnqueued .. | .setJobId .. | .audit | .revert .. | .removeDlqJob _ | .startAttempt _ | .markSent _
  | .moveToDlq .. | .markFailed .. | .recordAttempt _ => Except Failure Unit
  | .findOutbox _ => Except Failure (Option NotificationOutbox)
  | .getDlqJob _ => Except Failure (Option DlqJob)
  | .pickUp _ => Option Job
  | .gate _ => Except ProviderCircuitOpenError Unit

section Requests

/-- `NOTIFICATION_MAX_ATTEMPTS` -/
def notificationMaxAttempts : ℕ := 8

structure Config where
  backpressure : BackpressureConfig := {}
  defaultAttempts : ℕ := 3
  defaultDelay : ℕ := 5000

variable (config : Config)

def Store.ask {α : Type} (s : Store) (answer : α) : Except Failure α :=
  match s.db with
  | .error e => .error (.prisma e)
  | .ok () => .ok answer

def Store.askQueue {α : Type} (s : Store) (answer : α) : Except Failure α :=
  match s.queue with
  | .error e => .error (.queue e)
  | .ok () => .ok answer

def Store.find (s : Store) (id : ℕ) : Option NotificationOutbox := s.outbox.find? (·.id = id)

def updateRecord (id : ℕ) (f : NotificationOutbox → NotificationOutbox) (row : NotificationOutbox) :
    NotificationOutbox :=
  if row.id = id then f row else row

/-- `prisma.notificationOutbox.update`. -/
def Store.update (s : Store) (id : ℕ) (f : NotificationOutbox → NotificationOutbox) : Except Failure (Unit × Store) :=
  match s.find id with
  | none => s.ask ((), s) >>= fun _ => .error (.prisma "Record to update not found.")
  | some _ => s.ask ((), { s with outbox := s.outbox.map (updateRecord id f) })

def Store.createOutbox (s : Store) (type : NotificationType) (recipient : String) (subject : Option String)
    (message : String) : Except Failure (ℕ × Store) :=
  s.ask (s.created, { s with
    outbox := s.outbox ++ [{ id := s.created, type, recipient, subject, message, scheduledFor := s.now }]
    created := s.created + 1 })

def isDeadLetter (id : ℕ) (row : NotificationOutbox) : Bool := row.id = id ∧ row.status = .deadLetter

def claimRecord (id : ℕ) (row : NotificationOutbox) : NotificationOutbox :=
  if isDeadLetter id row then { row with status := .enqueued, retryCount := row.retryCount + 1, lastError := none }
  else row

/-- `updateMany({ where: { id, status: 'dead_letter' }, data: { status: 'enqueued', … } })`. -/
def Store.claim (s : Store) (id : ℕ) : Except Failure (ℕ × Store) :=
  s.ask (s.outbox.countP (isDeadLetter id), { s with outbox := s.outbox.map (claimRecord id) })

/-- The options of a job: `jobOptions`, or the queue's defaults. -/
def newJob (s : Store) (source : Source) (data : NotificationJobData) : Job :=
  match source with
  | .dlqReplay =>
    { id := s.added, data, attempts := config.defaultAttempts, backoff := .exponential config.defaultDelay
      availableAt := s.now }
  | .send | .outboxReplay =>
    { id := s.added, data, attempts := notificationMaxAttempts, backoff := .custom
      availableAt := s.now + getInitialDelay s.backpressure (providerForType data.type) s.now }

def Store.add (s : Store) (source : Source) (data : ℤ → NotificationJobData) : Except Failure (ℕ × Store) :=
  s.askQueue (s.added, { s with jobs := s.jobs ++ [newJob config s source (data s.now)], added := s.added + 1 })

def Job.isReady (now : ℤ) (jobId : ℕ) (job : Job) : Bool :=
  job.id = jobId ∧ job.active = false ∧ job.availableAt ≤ now

def updateJob (jobId : ℕ) (f : Job → Job) (job : Job) : Job := if job.id = jobId then f job else job

def Job.start (job : Job) : Job := { job with active := true }

def Store.pickUp (s : Store) (jobId : ℕ) : Option Job × Store :=
  match s.jobs.find? (·.isReady s.now jobId) with
  | none => (none, s)
  | some job => (some job, { s with jobs := s.jobs.map (updateJob jobId Job.start) })

def Job.retryDelay (job : Job) (s : Store) : ℤ :=
  match job.backoff with
  | .custom =>
    getRetryDelay config.backpressure s.backpressure (providerForType job.data.type) (job.attemptsMade + 1) s.now
  | .exponential delay => delay * 2 ^ job.attemptsMade

def Job.isExhausted (job : Job) : Bool := job.attempts ≤ job.attemptsMade

def Job.failed (job : Job) : Job := { job with attemptsMade := job.attemptsMade + 1 }

def Store.settle (s : Store) (job : Job) (error : Option JobError) : Store :=
  match error with
  | none => { s with jobs := s.jobs.filter (·.id ≠ job.id) }
  | some _ =>
    if job.failed.isExhausted then { s with jobs := s.jobs.filter (·.id ≠ job.id) }
    else { s with
      jobs := s.jobs.map (updateJob job.id fun job =>
        { job.failed with active := false, availableAt := s.now + job.retryDelay config s }) }

def Store.bury (s : Store) (job : Job) (error : JobError) : Except Failure (Unit × Store) :=
  s.askQueue ((), { s with
    dlq := s.dlq ++ [⟨s.buried, job.id, some .notifications, job.data, error.message, s.now, job.attemptsMade⟩]
    buried := s.buried + 1 })

def Store.deliver (s : Store) (job : Job) (outcome : Except String String) : Store :=
  let provider := providerForType job.data.type
  match outcome with
  | .ok _ => { s with
      backpressure := recordSuccess config.backpressure provider s.now s.backpressure
      deliveries := ⟨job.data.outboxId, job.id⟩ :: s.deliveries }
  | .error _ => { s with backpressure := recordFailure config.backpressure provider s.now s.backpressure }

def perform : (q : Query) → Store → q.Reply × Store
  | .elapse d, s => ((), { s with now := s.now + d })
  | .foresee db queue, s => ((), { s with db := db, queue := queue })
  | .createOutbox type recipient subject message, s => commit (s.createOutbox type recipient subject message) s
  | .add .notifications source data, s => commit (s.add config source data) s
  -- what the other queues hold is not followed
  | .add _ _ _, s => (s.askQueue s.added, s)
  | .markEnqueued id jobId, s =>
    commit (s.update id fun row => { row with status := .enqueued, jobId := some jobId }) s
  | .findOutbox id, s => (s.ask (s.find id), s)
  | .claim id, s => commit (s.claim id) s
  | .setJobId id jobId, s => commit (s.update id fun row => { row with jobId := some jobId }) s
  | .audit, s => (s.ask (), s)
  | .countDeadLetters, s => (s.ask (s.outbox.countP (·.status = .deadLetter)), s)
  | .revert id lastError, s =>
    commit (s.update id fun row => { row with status := .deadLetter, lastError := some lastError }) s
  | .getDlqJob id, s => (s.askQueue (s.dlq.find? (·.id = id)), s)
  | .removeDlqJob id, s => commit (s.askQueue ((), { s with dlq := s.dlq.filter (·.id ≠ id) })) s
  | .pickUp jobId, s => s.pickUp jobId
  | .gate provider, s =>
    let gated := assertAttemptAllowed config.backpressure provider s.now s.backpressure
    (gated.1, { s with backpressure := gated.2 })
  | .startAttempt id, s => commit (s.update id fun row => { row with lastAttemptAt := some s.now }) s
  | .deliver job outcome, s => ((), s.deliver config job outcome)
  | .settle job error, s => ((), s.settle config job error)
  | .markSent id, s => commit (s.update id fun row => { row with status := .sent, sentAt := some s.now }) s
  | .moveToDlq job error, s => commit (s.bury job error) s
  | .markFailed id status lastError, s =>
    commit (s.update id fun row =>
      { row with status := status, retryCount := row.retryCount + 1, lastError := some lastError }) s
  | .recordAttempt attempt, s =>
    commit (s.ask ((), { s with deliveryAttempts := s.deliveryAttempts ++ [attempt] })) s

end Requests

inductive Outcome
  | sent (outboxId jobId : ℕ)
  | replayed (jobId : ℕ)
  | done

abbrev Handler := Task Query Query.Reply Failure Outcome

def orFail {α : Type} (next : α → Handler) : Except Failure α → Handler
  | .error e => .done (.error e)
  | .ok a => next a

/-- `sendEmail` and `sendSms`. -/
def send (type : NotificationType) (recipient : String) (subject : Option String) (message : String)
    (correlationId : Option String) : Handler :=
  .ask (.createOutbox type recipient subject message) <| orFail fun outboxId =>
    .ask (.add .notifications .send fun timestamp =>
        ⟨type, recipient, subject, message, timestamp, outboxId, correlationId⟩) <| orFail fun jobId =>
      .ask (.markEnqueued outboxId jobId) <| orFail fun _ => .done (.ok (.sent outboxId jobId))

/-- The `catch` of a replay. -/
def revertReplay (id : ℕ) (error : Failure) : Handler :=
  .ask (.revert id error.message) <| orFail fun _ => .done (.error error)

def orRevert {α : Type} (id : ℕ) (next : α → Handler) : Except Failure α → Handler
  | .error e => revertReplay id e
  | .ok a => next a

/-- The `try` of a replay. -/
def enqueueReplay (id : ℕ) (record : NotificationOutbox) : Handler :=
  .ask (.add .notifications .outboxReplay fun timestamp =>
      ⟨record.type, record.recipient, record.subject.filter (· ≠ ""), record.message, timestamp, record.id, none⟩) <|
    orRevert id fun jobId =>
      .ask (.setJobId id jobId) <| orRevert id fun _ =>
        .ask .audit <| orRevert id fun _ =>
          .ask .countDeadLetters <| orRevert id fun _ => .done (.ok (.replayed jobId))

def replayDeadLetterNotification (id : ℕ) : Handler :=
  .ask (.findOutbox id) <| orFail fun
    | none => .done (.error (.app 404 s!"Outbox record with id \"{id}\" not found"))
    | some record =>
      if record.status ≠ .deadLetter then
        .done (.error (.app 400 "Only dead-lettered notifications can be replayed"))
      else .ask (.claim id) <| orFail fun count =>
        if count ≠ 1 then .done (.error (.app 400 "Notification replay is already in progress"))
        else enqueueReplay id record

/-- `getOriginalQueue` -/
def getOriginalQueue : QueueName → Option QueueName
  | .other _ => none
  | name => some name

def QueueName.text : QueueName → String
  | .verification => "verification"
  | .notifications => "notifications"
  | .onchain => "onchain"
  | .retentionPurge => "retention-purge"
  | .other name => name

/-- `DlqService.replayJob`. -/
def replayJob (id : ℕ) : Handler :=
  .ask (.getDlqJob id) <| orFail fun
    | none => .done (.error (.app 404 s!"Job {id} not found in DLQ"))
    | some job =>
      match job.originalQueue with
      | none => .done (.error (.app 400 s!"Job {id} is missing originalQueue data"))
      | some name =>
        match getOriginalQueue name with
        | none => .done (.error (.app 400 s!"Target queue {name.text} is not recognized"))
        | some queue => .ask (.add queue .dlqReplay fun _ => job.data) <| orFail fun jobId =>
          .ask (.removeDlqJob job.id) <| orFail fun _ =>
            .ask .audit <| orFail fun _ => .done (.ok (.replayed jobId))

/-- `onCompleted`: what the event throws is swallowed. -/
def onCompleted (job : Job) : Handler :=
  .ask (.markSent job.data.outboxId) fun _ =>
    .ask (.recordAttempt ⟨job.data.outboxId, job.attemptsMade + 1, none⟩) fun _ => .done (.ok .done)

/-- The end of `onFailed`: an attempt that the circuit breaker held back is no delivery attempt. -/
def recordFailedAttempt (job : Job) : JobError → Handler
  | .circuitOpen _ => .done (.ok .done)
  | .other message =>
    .ask (.recordAttempt ⟨job.data.outboxId, job.attemptsMade, some message⟩) fun _ => .done (.ok .done)

/-- `onFailed`, once the job is where it belongs. -/
def markFailed (job : Job) (error : JobError) : Handler :=
  if job.isExhausted then
    .ask (.markFailed job.data.outboxId .deadLetter error.message) fun _ =>
      .ask .countDeadLetters fun _ => recordFailedAttempt job error
  else .ask (.markFailed job.data.outboxId .enqueued error.message) fun _ => recordFailedAttempt job error

/-- `onFailed`, for a job that counts its failed attempt. -/
def onFailed (job : Job) (error : JobError) : Handler :=
  if (if job.attempts = 0 then 1 else job.attempts) ≤ job.attemptsMade then
    .ask (.moveToDlq job error) fun _ => markFailed job error
  else markFailed job error

def failJob (job : Job) (error : JobError) : Handler :=
  .ask (.settle job (some error)) fun _ => onFailed job.failed error

/-- `process`, for a job that a worker has picked up, and the event that follows. -/
def process (job : Job) (delivery : Except String String) : Handler :=
  .ask (.gate (providerForType job.data.type)) fun
    | .error e => failJob job (.circuitOpen e)
    | .ok () => .ask (.startAttempt job.data.outboxId) fun
      | .error e => failJob job (.other e.message)
      | .ok () => .ask (.deliver job delivery) fun _ =>
        match delivery with
        | .error message => failJob job (.other message)
        | .ok _ => .ask (.settle job none) fun _ => onCompleted job

def work (jobId : ℕ) (delivery : Except String String) : Handler :=
  .ask (.pickUp jobId) fun
    | none => .done (.ok .done)
    | some job => process job delivery

inductive OutboxOp
  | sendEmail (recipient subject message : String) (correlationId : Option String)
  | sendSms (recipient message : String) (correlationId : Option String)
  | replayDeadLetterNotification (id : ℕ)
  | replayJob (id : ℕ)
  | work (jobId : ℕ) (delivery : Except String String)
  | elapse (d : ℕ)
  | foresee (db queue : Except String Unit)

def OutboxOp.body : OutboxOp → Handler
  | .sendEmail recipient subject message correlationId => send .email recipient (some subject) message correlationId
  | .sendSms recipient message correlationId => send .sms recipient none message correlationId
  | .replayDeadLetterNotification id => Notifications.replayDeadLetterNotification id
  | .replayJob id => Notifications.replayJob id
  | .work jobId delivery => Notifications.work jobId delivery
  | .elapse d => .ask (.elapse d) fun _ => .done (.ok .done)
  | .foresee db queue => .ask (.foresee db queue) fun _ => .done (.ok .done)

abbrev OutboxPool := Pool Store Query Query.Reply Failure Outcome OutboxOp

abbrev OutboxTransition := Transition OutboxPool (Turn OutboxOp)

def OutboxStep (config : Config) : OutboxPool → Turn OutboxOp → OutboxPool → Prop :=
  Pool.Step (perform config) OutboxOp.body

end Soter.Notifications
