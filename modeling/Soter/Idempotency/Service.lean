import Soter.Lib.JsonText
import Soter.Lib.Protocol

/-! `IdempotencyInterceptor` (`idempotency.interceptor.ts`) and `IdempotencyKeyRetentionService`
(`idempotency-key-retention.service.ts`). Every Prisma call, every look at the clock and every run of the
wrapped handler is one request. -/
namespace Soter.Idempotency
open Soter.Json Soter.Tasks Soter.Runs

variable {Num : Type}

section Data
variable (Num)

/-- What the wrapped handler responds; `undefined` is no body. -/
structure Response where
  statusCode : ℕ
  data : Option (Value Num)
  data_wf : ∀ v, data = some v → v.WF

/-- A row of `IdempotencyKey`. -/
structure IdempotencyKey where
  id : ℕ
  key : Text
  responseStatus : ℕ
  responseBody : Text
  expiresAt : ℤ

structure NewKey where
  key : Text
  responseStatus : ℕ
  responseBody : Option Text
  expiresAt : ℤ

inductive Failure
  | config (message : String)
  | prisma (message : String)
  | handler (message : String)
  | malformed (message : String)

/-- What happens to a key: the handler runs for it, or a request is answered from a record. -/
inductive Event
  | ran (key : Text) (time expiresAt : ℤ) (outcome : Except String (Response Num))
  | replied (key : Text) (time : ℤ) (record : IdempotencyKey)

structure Store where
  now : ℤ := 0
  rows : List IdempotencyKey := []
  /-- How many rows there have been; the next one is given this id. -/
  created : ℕ := 0
  /-- How the database's next calls fare. -/
  db : Except String Unit := .ok ()
  /-- For the record, the latest event first. -/
  events : List (Event Num) := []

inductive Query
  | clock
  /-- Nothing but time goes by. -/
  | elapse (d : ℕ)
  | findFirst (key : Text) (now : ℤ)
  | deleteStale (key : Text) (now : ℤ)
  /-- The wrapped handler, with its outcome; a key and its expiry if the request has one. -/
  | handle (key : Option (Text × ℤ)) (outcome : Except String (Response Num))
  | create (row : NewKey)
  | findExpired (startedAt : ℤ) (batchSize : ℕ)
  | deleteIds (ids : List ℕ)
  /-- How the database's next calls fare is decided elsewhere. -/
  | foresee (db : Except String Unit)

end Data

def Query.Reply : Query Num → Type
  | .clock => ℤ
  | .elapse _ | .foresee _ => Unit
  | .findFirst .. => Except Failure (Option IdempotencyKey)
  | .deleteStale .. | .deleteIds _ => Except Failure ℕ
  | .handle .. => Except Failure (Response Num)
  | .create _ => Except Failure Unit
  | .findExpired .. => Except Failure (List ℕ)

def Store.ask {α : Type} (s : Store Num) (answer : α) : Except Failure α :=
  match s.db with
  | .error e => .error (.prisma e)
  | .ok () => .ok answer

def Store.find (s : Store Num) (key : Text) (now : ℤ) : Option IdempotencyKey :=
  s.rows.find? fun row => row.key = key ∧ now < row.expiresAt

/-- `prisma.idempotencyKey.findFirst`; what is found is what the request is answered with. -/
def Store.findFirst (s : Store Num) (key : Text) (now : ℤ) :
    Except Failure (Option IdempotencyKey × Store Num) :=
  match s.db, s.find key now with
  | .error e, _ => .error (.prisma e)
  | .ok (), none => .ok (none, s)
  | .ok (), some record => .ok (some record, { s with events := .replied key s.now record :: s.events })

/-- `prisma.idempotencyKey.deleteMany`. -/
def Store.deleteWhere (s : Store Num) (p : IdempotencyKey → Bool) : Except Failure (ℕ × Store Num) :=
  s.ask (s.rows.countP p, { s with rows := s.rows.filter (!p ·) })

def isStale (key : Text) (now : ℤ) (row : IdempotencyKey) : Bool := row.key = key ∧ row.expiresAt ≤ now

/-- `prisma.idempotencyKey.create`. -/
def Store.create (s : Store Num) (row : NewKey) : Except Failure (Unit × Store Num) :=
  match s.db, row.responseBody with
  | .error e, _ => .error (.prisma e)
  | .ok (), none => .error (.prisma "Argument `responseBody` is missing.")
  | .ok (), some responseBody =>
    if s.rows.any (·.key = row.key) then .error (.prisma "Unique constraint failed")
    else .ok ((), { s with
      rows := s.rows ++ [⟨s.created, row.key, row.responseStatus, responseBody, row.expiresAt⟩]
      created := s.created + 1 })

def Store.handle (s : Store Num) (key : Option (Text × ℤ)) (outcome : Except String (Response Num)) : Store Num :=
  { s with events := (key.map fun key => .ran key.1 s.now key.2 outcome).toList ++ s.events }

/-- `prisma.idempotencyKey.findMany`: the ids of the rows that have expired longest. -/
def Store.findExpired (s : Store Num) (startedAt : ℤ) (batchSize : ℕ) : List ℕ :=
  (((s.rows.filter (·.expiresAt ≤ startedAt)).insertionSort (·.expiresAt ≤ ·.expiresAt)).take batchSize).map (·.id)

def perform : (q : Query Num) → Store Num → q.Reply × Store Num
  | .clock, s => (s.now, s)
  | .elapse d, s => ((), { s with now := s.now + d })
  | .findFirst key now, s => commit (s.findFirst key now) s
  | .deleteStale key now, s => commit (s.deleteWhere (isStale key now)) s
  | .handle key outcome, s => (outcome.mapError .handler, s.handle key outcome)
  | .create row, s => commit (s.create row) s
  | .findExpired startedAt batchSize, s => (s.ask (s.findExpired startedAt batchSize), s)
  | .deleteIds ids, s => commit (s.deleteWhere (·.id ∈ ids)) s
  | .foresee db, s => ((), { s with db := db })

section Service

inductive Outcome (Num : Type)
  | handled (response : Response Num)
  | cached (status : ℕ) (body : Value Num)
  | purged (batchesRun recordsPurged : ℕ)
  | done

variable (Num) in
abbrev Handler := Task (Query Num) Query.Reply Failure (Outcome Num)

/-- How the services are configured: the lifetime of a key, which is a positive number if it is valid. -/
structure Config (Num : Type) where
  numerals : Numerals Num
  ttlHours : Except String ℕ := .ok 24

variable (config : Config Num)

def hourMs : ℤ := 60 * 60 * 1000

def cacheResponse (key : Text) (expiresAt : ℤ) (response : Response Num) : Handler Num :=
  .ask (.create
    { key := key, responseStatus := response.statusCode
      responseBody := response.data.map (stringify config.numerals 0), expiresAt := expiresAt }) fun _ =>
    .done (.ok (.handled response))

def process (key : Text) (expiresAt : ℤ) (outcome : Except String (Response Num)) : Handler Num :=
  .ask (.handle (some (key, expiresAt)) outcome) fun
    | .error e => .done (.error e)
    | .ok response => cacheResponse config key expiresAt response

def replay (existingRecord : IdempotencyKey) : Handler Num :=
  match parse config.numerals existingRecord.responseBody with
  | none => .done (.error (.malformed "Unexpected token in JSON"))
  | some body => .done (.ok (.cached existingRecord.responseStatus body))

def intercept (idempotencyKey : Option Text) (outcome : Except String (Response Num)) : Handler Num :=
  match idempotencyKey.filter (· ≠ []) with
  | none => .ask (.handle none outcome) fun
    | .error e => .done (.error e)
    | .ok response => .done (.ok (.handled response))
  | some key =>
    match config.ttlHours with
    | .error e => .done (.error (.config e))
    | .ok ttlHours => .ask .clock fun (now : ℤ) =>
      .ask (.findFirst key now) fun
        | .error e => .done (.error e)
        | .ok (some existingRecord) => replay config existingRecord
        | .ok none => .ask (.deleteStale key now) fun
          | .error e => .done (.error e)
          | .ok _ => process config key (now + ttlHours * hourMs) outcome

def purgeBatches (batchSize : ℕ) (startedAt : ℤ) : ℕ → ℕ → ℕ → Handler Num
  | 0, batchesRun, recordsPurged => .ask .clock fun _ => .done (.ok (.purged batchesRun recordsPurged))
  | n + 1, batchesRun, recordsPurged => .ask (.findExpired startedAt batchSize) fun
    | .error e => .done (.error e)
    | .ok [] => .ask .clock fun _ => .done (.ok (.purged batchesRun recordsPurged))
    | .ok expired => .ask (.deleteIds expired) fun
      | .error e => .done (.error e)
      | .ok count => purgeBatches batchSize startedAt n (batchesRun + 1) (recordsPurged + count)

def purgeExpiredKeys (batchSize maxBatches : ℕ) : Handler Num :=
  .ask .clock fun (startedAt : ℤ) => purgeBatches batchSize startedAt maxBatches 0 0

end Service

inductive KeyOp (Num : Type)
  | intercept (idempotencyKey : Option Text) (outcome : Except String (Response Num))
  | purgeExpiredKeys (batchSize maxBatches : ℕ)
  | elapse (d : ℕ)
  | foresee (db : Except String Unit)

def KeyOp.body (config : Config Num) : KeyOp Num → Handler Num
  | .intercept idempotencyKey outcome => Idempotency.intercept config idempotencyKey outcome
  | .purgeExpiredKeys batchSize maxBatches => Idempotency.purgeExpiredKeys batchSize maxBatches
  | .elapse d => .ask (.elapse d) fun _ => .done (.ok .done)
  | .foresee db => .ask (.foresee db) fun _ => .done (.ok .done)

variable (Num) in
abbrev KeyPool := Pool (Store Num) (Query Num) Query.Reply Failure (Outcome Num) (KeyOp Num)

variable (Num) in
abbrev KeyTransition := Transition (KeyPool Num) (Turn (KeyOp Num))

def KeyStep (config : Config Num) : KeyPool Num → Turn (KeyOp Num) → KeyPool Num → Prop :=
  Pool.Step perform (KeyOp.body config)

end Soter.Idempotency
