import Soter.Lib.JsNumber
import Soter.Lib.Protocol

/-! `VerificationFlowService` (`verification-flow.service.ts`). Every Prisma call, every comparison of codes,
every look at the clock apart from the one that follows a read and every message that is sent is one request. -/
namespace Soter.Verification
open Soter.Tasks Soter.Runs

abbrev Text := List Char

inductive VerificationChannel
  | email
  | phone
  deriving DecidableEq

inductive VerificationSessionStatus
  | pending
  | completed
  | expired
  | failed
  deriving DecidableEq

/-- A row of `VerificationSession`. For the record, how many codes were written before the one it holds. -/
structure VerificationSession where
  id : ℕ
  channel : VerificationChannel
  identifier : Text
  code : Text
  attempts : ℕ := 0
  resendCount : ℕ := 0
  status : VerificationSessionStatus := .pending
  expiresAt : ℤ
  createdAt : ℤ
  issue : ℕ

structure StartVerificationDto where
  channel : VerificationChannel
  email : Option Text := none
  phone : Option Text := none

structure CompleteVerificationDto where
  sessionId : ℕ
  code : Text

/-- `AppException`, what Prisma throws, or what another service throws. -/
inductive Failure
  | app (status : ℕ) (message : String)
  | prisma (message : String)
  | service (message : String)

/-- What happens to a session, for the record: a comparison with one of its codes fails, or it is completed. -/
inductive Event
  | failed (id issue : ℕ)
  | completed (id : ℕ)
  deriving DecidableEq

structure Store where
  now : ℤ := 0
  sessions : List VerificationSession := []
  /-- How many sessions there have been; the next one is given this id. -/
  created : ℕ := 0
  /-- How many codes have been written. -/
  issues : ℕ := 0
  /-- How the database's next calls fare. -/
  db : Except String Unit := .ok ()
  /-- The latest event first. -/
  events : List Event := []

inductive Reader
  | resend
  | complete

inductive Query
  | clock
  /-- Nothing but time goes by. -/
  | elapse (d : ℕ)
  | count (identifier : Text) (since : ℤ)
  | create (channel : VerificationChannel) (identifier code : Text) (expiresAt : ℤ)
  /-- A session, and the time that is looked at then. -/
  | findUnique (reader : Reader) (id : ℕ)
  /-- `data: { status: 'expired' }` -/
  | expire (id : ℕ)
  /-- `data: { code, resendCount, expiresAt }` -/
  | renew (id : ℕ) (code : Text) (resendCount : ℕ) (expiresAt : ℤ)
  /-- The stored code is compared with another one, and differs unless they match. -/
  | compare (session : VerificationSession) (isMatch : Bool)
  /-- `data: { attempts }` -/
  | fail (id attempts : ℕ)
  /-- `data: { status: 'completed' }` -/
  | succeed (id : ℕ)
  /-- `notificationsService.sendEmail` or `sendSms`, with its outcome. -/
  | send (outcome : Except String Unit)
  /-- How the database's next calls fare is decided elsewhere. -/
  | foresee (db : Except String Unit)

def Query.Reply : Query → Type
  | .clock => ℤ
  | .elapse _ | .foresee _ | .compare .. => Unit
  | .count .. | .create .. => Except Failure ℕ
  | .findUnique .. => Except Failure (Option VerificationSession × ℤ)
  | .expire _ | .renew .. | .fail .. | .succeed _ | .send _ => Except Failure Unit

def Store.ask {α : Type} (s : Store) (answer : α) : Except Failure α :=
  match s.db with
  | .error e => .error (.prisma e)
  | .ok () => .ok answer

def Store.find (s : Store) (id : ℕ) : Option VerificationSession := s.sessions.find? (·.id = id)

def updateSession (id : ℕ) (f : VerificationSession → VerificationSession) (row : VerificationSession) :
    VerificationSession :=
  if row.id = id then f row else row

/-- `prisma.verificationSession.update`. -/
def Store.update (s : Store) (id : ℕ) (f : VerificationSession → VerificationSession) (events : List Event)
    (issues : ℕ) : Except Failure (Unit × Store) :=
  match s.find id with
  | none => s.ask ((), s) >>= fun _ => .error (.prisma "Record to update not found.")
  | some _ => s.ask ((), { s with
      sessions := s.sessions.map (updateSession id f), issues := s.issues + issues, events := events ++ s.events })

/-- `prisma.verificationSession.create`. -/
def Store.create (s : Store) (channel : VerificationChannel) (identifier code : Text) (expiresAt : ℤ) :
    Except Failure (ℕ × Store) :=
  s.ask (s.created, { s with
    sessions := s.sessions ++
      [⟨s.created, channel, identifier, code, 0, 0, .pending, expiresAt, s.now, s.issues⟩]
    created := s.created + 1
    issues := s.issues + 1 })

def perform : (q : Query) → Store → q.Reply × Store
  | .clock, s => (s.now, s)
  | .elapse d, s => ((), { s with now := s.now + d })
  | .count identifier since, s =>
    (s.ask (s.sessions.countP fun row => row.identifier = identifier ∧ since ≤ row.createdAt), s)
  | .create channel identifier code expiresAt, s => commit (s.create channel identifier code expiresAt) s
  | .findUnique _ id, s => (s.ask (s.find id, s.now), s)
  | .expire id, s => commit (s.update id (fun row => { row with status := .expired }) [] 0) s
  | .renew id code resendCount expiresAt, s =>
    commit (s.update id (fun row => { row with
      code := code, resendCount := resendCount, expiresAt := expiresAt, issue := s.issues }) [] 1) s
  | .compare session isMatch, s =>
    ((), { s with events := (if isMatch then [] else [.failed session.id session.issue]) ++ s.events })
  | .fail id attempts, s => commit (s.update id (fun row => { row with attempts := attempts }) [] 0) s
  | .succeed id, s => commit (s.update id (fun row => { row with status := .completed }) [.completed id] 0) s
  | .send outcome, s => (outcome.mapError .service, s)
  | .foresee db, s => ((), { s with db := db })

section Service

inductive Outcome
  | started (sessionId : ℕ) (expiresAt : ℤ)
  | resent (sessionId : ℕ) (expiresAt : ℤ)
  | completed (sessionId : ℕ)
  | done

abbrev Handler := Task Query Query.Reply Failure Outcome

/-- What the service is configured with, and what it uses of `EncryptionService`. -/
structure Config where
  ttlMinutes : ℤ := 10
  maxStartsPerIdentifierPerHour : ℕ := 5
  maxResendsPerSession : ℕ := 3
  maxAttemptsPerSession : ℕ := 5
  encrypt : Text → Text
  decrypt : Text → Option Text
  encryptDeterministic : Text → Text
  decryptDeterministic : Text → Option Text
  toLowerCase : Text → Text

variable (config : Config)

def badRequest (message : String) : Handler := .done (.error (.app 400 message))

def trim (t : Text) : Text := ((t.dropWhile JsNumbers.isSpace).reverse.dropWhile JsNumbers.isSpace).reverse

def getIdentifier (dto : StartVerificationDto) : Option Text :=
  match dto.channel with
  | .email => (dto.email.filter (· ≠ [])).map fun email => config.toLowerCase (trim email)
  | .phone => (dto.phone.filter (· ≠ [])).map trim

def minuteMs : ℤ := 60 * 1000

def start (dto : StartVerificationDto) (code : Text) (sent : Except String Unit) : Handler :=
  match (getIdentifier config dto).filter (· ≠ []) with
  | none => badRequest "email is required when channel is email, phone is required when channel is phone"
  | some identifier => .ask .clock fun (asked : ℤ) =>
    .ask (.count (config.encryptDeterministic identifier) (asked - 60 * minuteMs)) fun
      | .error e => .done (.error e)
      | .ok recentCount =>
        if config.maxStartsPerIdentifierPerHour ≤ recentCount then
          badRequest "Too many verification requests. Try again after some time."
        else .ask .clock fun (now : ℤ) =>
          .ask (.create dto.channel (config.encryptDeterministic identifier) (config.encrypt code)
              (now + config.ttlMinutes * minuteMs)) fun
            | .error e => .done (.error e)
            | .ok sessionId => .ask (.send sent) fun
              | .error e => .done (.error e)
              | .ok () => .done (.ok (.started sessionId (now + config.ttlMinutes * minuteMs)))

def notFound : Handler := .done (.error (.app 404 "Verification session not found"))

def expireSession (id : ℕ) : Handler :=
  .ask (.expire id) fun
    | .error e => .done (.error e)
    | .ok () => badRequest "Session expired. Start a new verification."

def resend (sessionId : ℕ) (code : Text) (sent : Except String Unit) : Handler :=
  .ask (.findUnique .resend sessionId) fun
    | .error e => .done (.error e)
    | .ok (none, _) => notFound
    | .ok (some session, now) =>
      if session.status ≠ .pending then badRequest "Session is no longer active. Start a new verification."
      else if session.expiresAt < now then expireSession session.id
      else if config.maxResendsPerSession ≤ session.resendCount then
        badRequest s!"Maximum resend limit ({config.maxResendsPerSession}) reached. Request a new code by starting verification again."
      else .ask .clock fun (now : ℤ) =>
        .ask (.renew session.id (config.encrypt code) (session.resendCount + 1)
            (now + config.ttlMinutes * minuteMs)) fun
          | .error e => .done (.error e)
          | .ok () =>
            match config.decryptDeterministic session.identifier with
            | none => .done (.error (.service "Decryption failed"))
            | some _ => .ask (.send sent) fun
              | .error e => .done (.error e)
              | .ok () => .done (.ok (.resent session.id (now + config.ttlMinutes * minuteMs)))

/-- `complete` from the comparison of the codes on. -/
def compareCode (session : VerificationSession) (isMatch : Bool) : Handler :=
  .ask (.compare session isMatch) fun _ =>
    if isMatch then .ask (.succeed session.id) fun
      | .error e => .done (.error e)
      | .ok () => .done (.ok (.completed session.id))
    else .ask (.fail session.id (session.attempts + 1)) fun
      | .error e => .done (.error e)
      | .ok () => badRequest "Invalid verification code."

def complete (dto : CompleteVerificationDto) : Handler :=
  .ask (.findUnique .complete dto.sessionId) fun
    | .error e => .done (.error e)
    | .ok (none, _) => notFound
    | .ok (some session, now) =>
      if session.status ≠ .pending then badRequest "Session is no longer active. Start a new verification."
      else if session.expiresAt < now then expireSession session.id
      else if config.maxAttemptsPerSession ≤ session.attempts then
        badRequest "Too many failed attempts. Start a new verification."
      else
        match config.decrypt session.code with
        | none => .done (.error (.service "Decryption failed"))
        | some storedCode => compareCode session (storedCode = dto.code)

end Service

inductive FlowOp
  | start (dto : StartVerificationDto) (code : Text) (sent : Except String Unit)
  | resend (sessionId : ℕ) (code : Text) (sent : Except String Unit)
  | complete (dto : CompleteVerificationDto)
  | elapse (d : ℕ)
  | foresee (db : Except String Unit)

def FlowOp.body (config : Config) : FlowOp → Handler
  | .start dto code sent => Verification.start config dto code sent
  | .resend sessionId code sent => Verification.resend config sessionId code sent
  | .complete dto => Verification.complete config dto
  | .elapse d => .ask (.elapse d) fun _ => .done (.ok .done)
  | .foresee db => .ask (.foresee db) fun _ => .done (.ok .done)

abbrev FlowPool := Pool Store Query Query.Reply Failure Outcome FlowOp

abbrev FlowTransition := Transition FlowPool (Turn FlowOp)

def FlowStep (config : Config) : FlowPool → Turn FlowOp → FlowPool → Prop :=
  Pool.Step perform (FlowOp.body config)

end Soter.Verification
