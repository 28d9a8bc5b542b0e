import Mathlib.Data.Int.Notation
import Soter.Lib.Task

/-! `ApiKeysService` (`api-keys.service.ts`) and `ApiKeyGuard` (`api-key.guard.ts`). Every Prisma call and
every look at the clock is one request; a rotation writes its two rows in one transaction. -/
namespace Soter.ApiKeys
open Soter.Tasks Soter.Runs

/-- Milliseconds, as `Date.getTime` counts them. -/
abbrev Time := ℤ

inductive AppRole
  | admin
  | operator
  | client
  | ngo
  deriving DecidableEq

inductive ApiKeyScope
  | read
  | write
  | admin
  | webhook
  deriving DecidableEq

/-- A row of `ApiKey`. For the record, the key that was rotated when the row was created. -/
structure ApiKey where
  id : String
  key : Option String := none
  keyHash : Option String
  role : AppRole
  scopes : List ApiKeyScope
  ngoId : Option String
  description : Option String
  createdBy : String
  lastUsedAt : Option Time := none
  revokedAt : Option Time := none
  revokedBy : Option String := none
  revokedReason : Option String := none
  replacedById : Option String := none
  expiresAt : Option Time
  graceExpiresAt : Option Time := none
  rotatedFrom : Option String := none

structure Actor where
  apiKeyId : Option String := none
  authType : Option String := none
  role : Option AppRole := none

def roleName : AppRole → String
  | .admin => "admin"
  | .operator => "operator"
  | .client => "client"
  | .ngo => "ngo"

def actorId (actor : Option Actor) : String :=
  match actor with
  | none => "unknown"
  | some actor =>
    match actor.apiKeyId.filter (· ≠ "") with
    | some apiKeyId => apiKeyId
    | none =>
      if actor.authType = some "envApiKey" then "env:API_KEY"
      else
        match actor.role with
        | some role => "role:" ++ roleName role
        | none => "unknown"

/-- `new Date(text)` of a request: no time if the text is not a date. -/
structure ExpiryDto where
  expiresAt : Option (Option Time) := none
  expiresInDays : Option ℤ := none

structure CreateApiKeyDto extends ExpiryDto where
  role : AppRole
  scopes : Option (List ApiKeyScope) := none
  ngoId : Option String := none
  description : Option String := none

structure RotateApiKeyDto extends ExpiryDto where
  gracePeriodHours : Option ℤ := none

/-- `AppException`, or what Prisma throws. -/
inductive Failure
  | app (status : ℕ) (message : String)
  | prisma (message : String)

structure Store where
  now : Time := 0
  rows : List ApiKey := []
  /-- How the database's next calls fare. -/
  db : Except String Unit := .ok ()

inductive Query
  | clock
  /-- Nothing but time goes by. -/
  | elapse (d : ℕ)
  | findUnique (id : String)
  | create (row : ApiKey)
  | revoke (id : String) (revokedAt : Time) (revokedBy revokedReason : String)
  /-- The replacement is created and the key is marked, both or neither. -/
  | commitRotation (id : String) (replacement : ApiKey) (graceExpiresAt : Time)
  /-- A row with the hash or the key itself, and the time it is looked at. -/
  | authenticate (apiKeyHash apiKey : String)
  | touch (id : String) (lastUsedAt : Time)
  /-- `audit.record`, with its outcome. -/
  | record (outcome : Except String Unit)
  /-- How the database's next calls fare is decided elsewhere. -/
  | foresee (db : Except String Unit)

def Query.Reply : Query → Type
  | .clock => Time
  | .elapse _ | .foresee _ => Unit
  | .findUnique _ => Except Failure (Option ApiKey)
  | .create _ | .commitRotation .. | .revoke .. => Except Failure ApiKey
  | .authenticate .. => Except Failure (Option ApiKey × Time)
  | .touch .. | .record _ => Except Failure Unit

def Store.find (s : Store) (id : String) : Option ApiKey := s.rows.find? (·.id = id)

def matchesCredential (apiKeyHash apiKey : String) (row : ApiKey) : Bool :=
  row.keyHash = some apiKeyHash ∨ row.key = some apiKey

def Store.findCredential (s : Store) (apiKeyHash apiKey : String) : Option ApiKey :=
  s.rows.find? (matchesCredential apiKeyHash apiKey)

def updateRow (id : String) (f : ApiKey → ApiKey) (row : ApiKey) : ApiKey :=
  if row.id = id then f row else row

def Store.ask {α : Type} (s : Store) (answer : α) : Except Failure α :=
  match s.db with
  | .error e => .error (.prisma e)
  | .ok () => .ok answer

/-- `prisma.apiKey.update`. -/
def Store.update (s : Store) (id : String) (f : ApiKey → ApiKey) : Except Failure (ApiKey × Store) :=
  match s.db, s.find id with
  | .error e, _ => .error (.prisma e)
  | .ok (), none => .error (.prisma "Record to update not found.")
  | .ok (), some row => .ok (f row, { s with rows := s.rows.map (updateRow id f) })

def ApiKey.Clashes (new row : ApiKey) : Prop := row.id = new.id ∨ row.keyHash = new.keyHash

instance (new row : ApiKey) : Decidable (new.Clashes row) :=
  inferInstanceAs (Decidable (row.id = new.id ∨ row.keyHash = new.keyHash))

/-- `prisma.apiKey.create`. -/
def Store.create (s : Store) (new : ApiKey) : Except Failure (ApiKey × Store) :=
  match s.db with
  | .error e => .error (.prisma e)
  | .ok () =>
    if s.rows.any (new.Clashes ·) then .error (.prisma "Unique constraint failed")
    else .ok (new, { s with rows := s.rows ++ [new] })

def revoked (revokedAt : Time) (revokedBy revokedReason : String) (row : ApiKey) : ApiKey :=
  { row with
    revokedAt := some revokedAt
    revokedBy := some revokedBy
    revokedReason := some revokedReason
    graceExpiresAt := none }

def rotated (replacementId : String) (graceExpiresAt : Time) (row : ApiKey) : ApiKey :=
  { row with
    revokedReason := some "rotated"
    replacedById := some replacementId
    graceExpiresAt := some graceExpiresAt }

def Store.commitRotation (s : Store) (id : String) (replacement : ApiKey) (graceExpiresAt : Time) :
    Except Failure (ApiKey × Store) := do
  let created ← s.create replacement
  let updated ← created.2.update id (rotated created.1.id graceExpiresAt)
  return (created.1, updated.2)

def perform : (q : Query) → Store → q.Reply × Store
  | .clock, s => (s.now, s)
  | .elapse d, s => ((), { s with now := s.now + d })
  | .findUnique id, s => (s.ask (s.find id), s)
  | .create row, s => commit (s.create row) s
  | .revoke id revokedAt revokedBy revokedReason, s =>
    commit (s.update id (revoked revokedAt revokedBy revokedReason)) s
  | .commitRotation id replacement graceExpiresAt, s =>
    commit (s.commitRotation id replacement graceExpiresAt) s
  | .authenticate apiKeyHash apiKey, s => (s.ask (s.findCredential apiKeyHash apiKey, s.now), s)
  | .touch id lastUsedAt, s =>
    commit ((s.update id fun row => { row with lastUsedAt := some lastUsedAt }).map fun res => ((), res.2)) s
  | .record outcome, s => (outcome.mapError .prisma, s)
  | .foresee db, s => ((), { s with db := db })

abbrev Handler := Task Query Query.Reply Failure

def clock : Handler Time := .ask .clock fun now => .done (.ok now)

def record (outcome : Except String Unit) : Handler Unit := .ask (.record outcome) fun reply => .done reply

def throw {α : Type} (status : ℕ) (message : String) : Handler α := .done (.error (.app status message))

section Service

def msPerDay : ℤ := 24 * 60 * 60 * 1000

def resolveExpiresAt (input : ExpiryDto) : Handler (Option Time) :=
  match input.expiresAt, input.expiresInDays with
  | some _, some _ => throw 400 "Provide either expiresAt or expiresInDays, not both"
  | some none, none => throw 400 "expiresAt must be a valid ISO datetime"
  | some (some expiresAt), none => do
    let now ← clock
    if expiresAt ≤ now then throw 400 "expiresAt must be in the future" else return some expiresAt
  | none, some expiresInDays => do
    let now ← clock
    return some (now + expiresInDays * msPerDay)
  | none, none => return none

structure Drawn where
  rawKey : String
  id : String
  id_ne : id ≠ ""

variable (sha256 : String → String)

def create (dto : CreateApiKeyDto) (actor : Option Actor) (drawn : Drawn) : Handler (ApiKey × String) := do
  if dto.role = .ngo ∧ (dto.ngoId = none ∨ dto.ngoId = some "") then
    throw 400 "ngoId is required for NGO API keys"
  else
    let expiresAt ← resolveExpiresAt dto.toExpiryDto
    let row ← .ask (.create
      { id := drawn.id, keyHash := some (sha256 drawn.rawKey), role := dto.role
        scopes := dto.scopes.getD [.admin], ngoId := dto.ngoId, description := dto.description
        createdBy := actorId actor, expiresAt := expiresAt }) fun reply => .done reply
    return (row, drawn.rawKey)

def revoke (id : String) (reason : Option String) (actor : Option Actor) (audited : Except String Unit) :
    Handler ApiKey := do
  match ← .ask (.findUnique id) fun reply => .done reply with
  | none => throw 404 "API key not found"
  | some existing =>
    if existing.revokedAt.isSome then
      match ← .ask (.findUnique id) fun reply => .done reply with
      | none => throw 404 "API key not found"
      | some row => return row
    else
      let now ← clock
      let row ← .ask (.revoke id now (actorId actor) (reason.getD "revoked")) fun reply => .done reply
      let _ ← record audited
      return row

def replacementExpiry (dto : RotateApiKeyDto) (existing : ApiKey) : Handler (Option Time) :=
  if dto.expiresAt.isSome ∨ dto.expiresInDays.isSome then resolveExpiresAt dto.toExpiryDto
  else return existing.expiresAt

def hourMs : ℤ := 60 * 60 * 1000

def rotate (rotationGraceHours : ℤ) (id : String) (actor : Option Actor) (dto : RotateApiKeyDto)
    (drawn : Drawn) (audited : Except String Unit) : Handler (ApiKey × String) := do
  let gracePeriodHours := dto.gracePeriodHours.getD rotationGraceHours
  match ← .ask (.findUnique id) fun reply => .done reply with
  | none => throw 404 "API key not found"
  | some existing =>
    if existing.revokedAt.isSome then throw 400 "Cannot rotate a revoked API key"
    else
      let expiresAt ← replacementExpiry dto existing
      let now ← clock
      let replacement ← .ask (.commitRotation existing.id
        { id := drawn.id, keyHash := some (sha256 drawn.rawKey), role := existing.role
          scopes := existing.scopes, ngoId := existing.ngoId, description := existing.description
          createdBy := actorId actor, expiresAt := expiresAt, rotatedFrom := some existing.id }
        (now + gracePeriodHours * hourMs)) fun reply => .done reply
      let _ ← record audited
      return (replacement, drawn.rawKey)

end Service
section Guard

structure User where
  role : AppRole
  ngoId : Option String := none
  apiKeyId : Option String := none
  authType : String
  scopes : List ApiKeyScope

def lifecycleError (now : Time) (row : ApiKey) : Option String :=
  if row.revokedAt.any (· ≤ now) then some "API key has been revoked"
  else if row.expiresAt.any (· ≤ now) then some "API key has expired"
  else if row.graceExpiresAt.any (· ≤ now) ∧ (row.replacedById.filter (· ≠ "")).isSome then
    some "API key has been rotated and its grace period has ended"
  else none

variable (sha256 : String → String)

def canActivate (envKey : Option String) (isPublic : Bool) (apiKeyHeader : Option String) :
    Handler (Option User) := do
  if isPublic then return none
  else
    match apiKeyHeader.filter (· ≠ "") with
    | none => throw 401 "Invalid or missing API key"
    | some apiKey =>
      let found ← .ask (.authenticate (sha256 apiKey) apiKey) fun reply => .done reply
      match found with
      | (some row, now) =>
        match lifecycleError now row with
        | some message => throw 401 message
        | none =>
          let used ← clock
          let _ ← .ask (.touch row.id used) fun reply => .done reply
          return some ⟨row.role, row.ngoId, some row.id, "apiKey", row.scopes⟩
      | (none, _) =>
        if some apiKey = envKey then return some { role := .admin, authType := "envApiKey", scopes := [.admin] }
        else throw 401 "Invalid or missing API key"

end Guard

inductive KeyOp
  | create (dto : CreateApiKeyDto) (actor : Option Actor) (drawn : Drawn)
  | revoke (id : String) (reason : Option String) (actor : Option Actor) (audited : Except String Unit)
  | rotate (id : String) (actor : Option Actor) (dto : RotateApiKeyDto) (drawn : Drawn)
    (audited : Except String Unit)
  | canActivate (isPublic : Bool) (apiKeyHeader : Option String)
  | elapse (d : ℕ)
  | foresee (db : Except String Unit)

structure Config where
  sha256 : String → String
  rotationGraceHours : ℤ := 24
  envKey : Option String := none

def KeyOp.body (config : Config) : KeyOp → Handler Unit
  | .create dto actor drawn => do
    let _ ← ApiKeys.create config.sha256 dto actor drawn
    return ()
  | .revoke id reason actor audited => do
    let _ ← ApiKeys.revoke id reason actor audited
    return ()
  | .rotate id actor dto drawn audited => do
    let _ ← ApiKeys.rotate config.sha256 config.rotationGraceHours id actor dto drawn audited
    return ()
  | .canActivate isPublic apiKeyHeader => do
    let _ ← ApiKeys.canActivate config.sha256 config.envKey isPublic apiKeyHeader
    return ()
  | .elapse d => .ask (.elapse d) fun _ => .done (.ok ())
  | .foresee db => .ask (.foresee db) fun _ => .done (.ok ())

abbrev KeyPool := Pool Store Query Query.Reply Failure Unit KeyOp

abbrev KeyTransition := Transition KeyPool (Turn KeyOp)

def KeyStep (config : Config) : KeyPool → Turn KeyOp → KeyPool → Prop :=
  Pool.Step perform (KeyOp.body config)

end Soter.ApiKeys
