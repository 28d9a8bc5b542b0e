import Soter.Lib.Buffer
import Soter.Lib.JsonText
import Soter.Lib.Served

/-! `ArtifactOwnershipTokenService` (`artifact-ownership-token.service.ts`). Every Prisma call, every look at
the clock and every audit record is one request. -/
namespace Soter.Evidence
open Soter.Buffers Soter.Json Soter.Tasks Soter.Runs

variable {Num : Type}

section Data
variable (Num)

/-- What the service does with numbers; `Num` are the finite ones. -/
structure Numbers extends Numerals Num where
  ofInt : ℤ → Num
  add : Num → Num → Num
  /-- `<=` -/
  atMost : Num → Num → Bool
  /-- What a comparison makes of a value that is no number. -/
  coerce : Value Num → Option Num
  /-- The time of `new Date(n * 1000)`, if the date is valid. -/
  date : Num → Option ℤ

/-- No lifetime given is `none`, `NaN` is `some none`. -/
structure CreateTokenOptions where
  artifactId : Text
  orgId : Text
  userId : Text
  role : Text
  ttlSeconds : Option (Option Num) := none

structure ArtifactAccessTokenPayload where
  artifactId : Text
  orgId : Text
  userId : Text
  role : Text
  iat : Num
  exp : Option Num

/-- What the service is configured with; `hmac` is HMAC-SHA256 with its secret. -/
structure Services where
  numbers : Numbers Num
  sha256 : Text → Text
  hmac : Text → List Byte
  defaultTtlSeconds : Option Num

inductive VerifyTokenResult
  | valid (payload : Value Num)
  | invalid (error : String)

inductive Outcome
  | token (token : Text)
  | verdict (result : VerifyTokenResult Num)
  | revoked
  | deleted (count : ℕ)
  | done

end Data

/-- A row of `ArtifactAccessToken`. -/
structure ArtifactAccessToken where
  artifactId : Text
  orgId : Text
  userId : Text
  role : Text
  tokenHash : Text
  expiresAt : ℤ
  revokedAt : Option ℤ := none
  revokedReason : Option String := none

structure Store where
  /-- Milliseconds, as `Date.now` counts them. -/
  now : ℤ := 0
  tokens : List ArtifactAccessToken := []
  /-- How the database's next calls fare. -/
  db : Except String Unit := .ok ()

/-- `AppException`, `Error`, or what Prisma throws. -/
inductive Failure
  | app (status : ℕ) (message : String)
  | error (message : String)
  | prisma (message : String)

inductive Query
  | clock
  /-- Nothing but time goes by. -/
  | elapse (d : ℕ)
  /-- A row to insert, unless its date is invalid. -/
  | create (row : Option ArtifactAccessToken)
  | findUnique (tokenHash : Text)
  | revoke (tokenHash : Text) (revokedAt : ℤ) (revokedReason : String)
  | deleteExpired (now : ℤ)
  /-- `auditService.record`, with its outcome. -/
  | record (outcome : Except String Unit)
  /-- How the database's next calls fare is decided elsewhere. -/
  | foresee (db : Except String Unit)

def Query.Reply : Query → Type
  | .clock => ℤ
  | .elapse _ | .foresee _ => Unit
  | .create _ | .revoke .. | .record _ => Except Failure Unit
  | .findUnique _ => Except Failure (Option ArtifactAccessToken)
  | .deleteExpired _ => Except Failure ℕ

def Store.find (s : Store) (tokenHash : Text) : Option ArtifactAccessToken :=
  s.tokens.find? (·.tokenHash = tokenHash)

/-- `prisma.artifactAccessToken.create`. -/
def Store.create (s : Store) (row : Option ArtifactAccessToken) : Except Failure (Unit × Store) :=
  match s.db, row with
  | .error e, _ => .error (.prisma e)
  | .ok (), none => .error (.prisma "Invalid value for argument: Provided Date object is invalid")
  | .ok (), some row =>
    if (s.find row.tokenHash).isSome then .error (.prisma "Unique constraint failed")
    else .ok ((), { s with tokens := s.tokens ++ [row] })

def revoked (revokedAt : ℤ) (revokedReason : String) (row : ArtifactAccessToken) : ArtifactAccessToken :=
  { row with revokedAt := some revokedAt, revokedReason := some revokedReason }

/-- `prisma.artifactAccessToken.update`. -/
def Store.revoke (s : Store) (tokenHash : Text) (revokedAt : ℤ) (revokedReason : String) :
    Except Failure (Unit × Store) :=
  match s.db, s.find tokenHash with
  | .error e, _ => .error (.prisma e)
  | .ok (), none => .error (.prisma "Record to update not found.")
  | .ok (), some _ => .ok ((), { s with tokens := s.tokens.map fun row =>
      if row.tokenHash = tokenHash then revoked revokedAt revokedReason row else row })

def isStale (now : ℤ) (row : ArtifactAccessToken) : Bool := row.expiresAt < now ∧ row.revokedAt = none

/-- `prisma.artifactAccessToken.deleteMany`. -/
def Store.deleteExpired (s : Store) (now : ℤ) : Except Failure (ℕ × Store) :=
  match s.db with
  | .error e => .error (.prisma e)
  | .ok () => .ok (s.tokens.countP (isStale now), { s with tokens := s.tokens.filter (!isStale now ·) })

def perform : (q : Query) → Store → q.Reply × Store
  | .clock, s => (s.now, s)
  | .elapse d, s => ((), { s with now := s.now + d })
  | .create row, s => commit (s.create row) s
  | .findUnique tokenHash, s =>
    (match s.db with
      | .error e => .error (.prisma e)
      | .ok () => .ok (s.find tokenHash), s)
  | .revoke tokenHash revokedAt revokedReason, s => commit (s.revoke tokenHash revokedAt revokedReason) s
  | .deleteExpired now, s => commit (s.deleteExpired now) s
  | .record outcome, s => (outcome.mapError .prisma, s)
  | .foresee db, s => ((), { s with db := db })

variable (Num) in
abbrev Handler := Task Query Query.Reply Failure (Outcome Num)

section Service
variable (services : Services Num)

def ArtifactAccessTokenPayload.toValue (payload : ArtifactAccessTokenPayload Num) : Value Num :=
  .obj [("artifactId".toList, .str payload.artifactId), ("orgId".toList, .str payload.orgId),
    ("userId".toList, .str payload.userId), ("role".toList, .str payload.role),
    ("iat".toList, .num payload.iat), ("exp".toList, payload.exp.elim .null .num)]

def payloadText (payload : ArtifactAccessTokenPayload Num) : Text :=
  toBase64url (toUtf8 (stringify services.numbers.toNumerals 0 payload.toValue))

def tokenOf (payload : ArtifactAccessTokenPayload Num) : Text :=
  payloadText services payload ++ '.' :: toBase64url (services.hmac (payloadText services payload))

/-- `effectiveTtl <= 0 || effectiveTtl > 3600`, which holds of no `NaN`. -/
def ttlOutOfRange (effectiveTtl : Option Num) : Bool :=
  effectiveTtl.any fun ttl => services.numbers.atMost ttl (services.numbers.ofInt 0) ||
    !services.numbers.atMost ttl (services.numbers.ofInt 3600)

def payloadAt (options : CreateTokenOptions Num) (now : ℤ) : ArtifactAccessTokenPayload Num where
  artifactId := options.artifactId
  orgId := options.orgId
  userId := options.userId
  role := options.role
  iat := services.numbers.ofInt now
  exp := (options.ttlSeconds.getD services.defaultTtlSeconds).map
    (services.numbers.add (services.numbers.ofInt now))

def rowOf (payload : ArtifactAccessTokenPayload Num) : Option ArtifactAccessToken :=
  (payload.exp.bind services.numbers.date).map fun expiresAt =>
    { artifactId := payload.artifactId, orgId := payload.orgId, userId := payload.userId
      role := payload.role, tokenHash := services.sha256 (tokenOf services payload), expiresAt := expiresAt }

def createToken (options : CreateTokenOptions Num) (audited : Except String Unit) : Handler Num :=
  if ttlOutOfRange services (options.ttlSeconds.getD services.defaultTtlSeconds) then
    .done (.error (.error "TTL must be between 1 and 3600 seconds"))
  else .ask .clock fun (ms : ℤ) =>
    let payload := payloadAt services options (ms / 1000)
    .ask (.create (rowOf services payload)) fun
      | .error e => .done (.error e)
      | .ok () => .ask (.record audited) fun
        | .error e => .done (.error e)
        | .ok () => .done (.ok (.token (tokenOf services payload)))

def invalid (error : String) : Handler Num := .done (.ok (.verdict (.invalid error)))

/-- `payload.exp <= now`; nothing is read of `null`. -/
def isExpired (payload : Value Num) (now : ℤ) : Option Bool :=
  match payload with
  | .null => none
  | .obj members => some <| (members.lookup "exp".toList).any fun
    | .num exp => services.numbers.atMost exp (services.numbers.ofInt now)
    | v => (services.numbers.coerce v).any (services.numbers.atMost · (services.numbers.ofInt now))
  | _ => some false

def decodePayload (payloadB64 : Text) : Option (Value Num) :=
  parse services.numbers.toNumerals (fromUtf8 (fromBase64url payloadB64))

/-- `verifyToken` from its look at the table on. -/
def checkRevocation (token : Text) (payload : Value Num) : Handler Num :=
  .ask (.findUnique (services.sha256 token)) fun
    | .error _ => invalid "token_verification_failed"
    | .ok row =>
      if (row.bind (·.revokedAt)).isSome then invalid "token_revoked"
      else .done (.ok (.verdict (.valid payload)))

/-- `verifyToken` from its look at the clock on. -/
def checkPayload (token : Text) (payload : Value Num) : Handler Num :=
  .ask .clock fun (ms : ℤ) =>
    match isExpired services payload (ms / 1000) with
    | none => invalid "token_verification_failed"
    | some true => invalid "token_expired"
    | some false => checkRevocation services token payload

def verifyToken (token : Text) : Handler Num :=
  match token.splitOn '.' with
  | [payloadB64, signatureB64] =>
    if services.hmac payloadB64 ≠ fromBase64url signatureB64 then invalid "invalid_signature"
    else
      match decodePayload services payloadB64 with
      | none => invalid "token_verification_failed"
      | some payload => checkPayload services token payload
  | _ => invalid "invalid_token_format"

def revokeToken (tokenHash : Text) (reason : Option String) (audited : Except String Unit) : Handler Num :=
  .ask (.findUnique tokenHash) fun
    | .error e => .done (.error e)
    | .ok none => .done (.error (.app 401 "Token not found"))
    | .ok (some row) =>
      if row.revokedAt.isSome then .done (.error (.app 403 "Token already revoked"))
      else .ask .clock fun (ms : ℤ) =>
        .ask (.revoke tokenHash ms (reason.getD "user_requested")) fun
          | .error e => .done (.error e)
          | .ok () => .ask (.record audited) fun
            | .error e => .done (.error e)
            | .ok () => .done (.ok .revoked)

def cleanupExpiredTokens : Handler Num :=
  .ask .clock fun (ms : ℤ) => .ask (.deleteExpired ms) fun
    | .error e => .done (.error e)
    | .ok count => .done (.ok (.deleted count))

end Service

variable (Num) in
inductive TokenOp
  | createToken (options : CreateTokenOptions Num) (audited : Except String Unit)
  | verifyToken (token : Text)
  | revokeToken (tokenHash : Text) (reason : Option String) (audited : Except String Unit)
  | cleanupExpiredTokens
  | elapse (d : ℕ)
  | foresee (db : Except String Unit)

def TokenOp.body (services : Services Num) : TokenOp Num → Handler Num
  | .createToken options audited => Evidence.createToken services options audited
  | .verifyToken token => Evidence.verifyToken services token
  | .revokeToken tokenHash reason audited => Evidence.revokeToken tokenHash reason audited
  | .cleanupExpiredTokens => Evidence.cleanupExpiredTokens
  | .elapse d => .ask (.elapse d) fun _ => .done (.ok .done)
  | .foresee db => .ask (.foresee db) fun _ => .done (.ok .done)

variable (Num) in
abbrev TokenPool := Pool Store Query Query.Reply Failure (Outcome Num) (TokenOp Num)

variable (Num) in
abbrev TokenTransition := Transition (TokenPool Num) (Turn (TokenOp Num))

def TokenStep (services : Services Num) : TokenPool Num → Turn (TokenOp Num) → TokenPool Num → Prop :=
  Pool.Step perform (TokenOp.body services)

end Soter.Evidence
