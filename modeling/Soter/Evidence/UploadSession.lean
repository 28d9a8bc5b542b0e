import Soter.Lib.Expiring
import Soter.Lib.Run
import Soter.Evidence.FileValidation

/-! Uploads in chunks (`upload-session.service.ts`, `upload-session.store.ts`): one session, its rows, its keys in Redis
and the calls that are under way. Between any two calls of Redis, of the database and of the file system anybody else may
have a turn, and each of them may fail; what fails in Redis does so without a word (`redis.service.ts`). -/
namespace Soter.Evidence
open Soter.Expiring Soter.Runs

inductive UploadSessionStatus
  | active
  | completed
  | expired
  | aborted
  deriving DecidableEq

def UploadSessionStatus.text : UploadSessionStatus → String
  | .active => "active"
  | .completed => "completed"
  | .expired => "expired"
  | .aborted => "aborted"

/-- A row of `UploadSession`, and its copy in Redis. -/
structure UploadSession where
  id : String
  ownerId : String
  orgId : Option String
  fileName : String
  mimeType : String
  totalSize : ℕ
  chunkSize : ℕ
  totalChunks : ℕ
  status : UploadSessionStatus
  expiresAt : ℕ

/-- A row of `UploadChunk`. -/
structure UploadChunk where
  size : ℕ
  checksum : String
  filePath : String

/-- A row of `EvidenceQueueItem` that is queued. Its id is its place, and its file that of the call that wrote it. -/
structure EvidenceQueueItem where
  fileName : String
  filePath : ℕ
  fileHash : String
  mimeType : String
  size : ℕ
  ownerId : String
  orgId : Option String

structure UploadStore where
  now : ℕ
  session : UploadSession
  chunks : ℕ → Option UploadChunk := fun _ => none
  cached : Option (Entry UploadSession) := none
  buffers : ℕ → Option (Entry Buffer) := fun _ => none
  received : Option (Entry (List ℕ)) := none
  items : List EvidenceQueueItem := []
  files : ℕ → Option Buffer := fun _ => none

/-- `crypto`, `EncryptionService.encryptBuffer` with what it draws, and `toLowerCase`. -/
structure Platform where
  sha256 : Buffer → String
  encryptBuffer : Buffer → Buffer → Buffer
  lower : String → String

structure CreateUploadSessionDto where
  fileName : String
  mimeType : String
  totalSize : ℕ
  chunkSize : ℕ

def minChunkSize : ℕ := 64 * 1024
def maxChunkSize : ℕ := 5 * 1024 * 1024

structure CreateUploadSessionDto.IsValid (dto : CreateUploadSessionDto) : Prop where
  mimeType : dto.mimeType ∈ allowedMimeTypes
  minSize : 1 ≤ dto.totalSize
  maxSize : dto.totalSize ≤ maxFileSize
  minChunk : minChunkSize ≤ dto.chunkSize
  maxChunk : dto.chunkSize ≤ maxChunkSize

inductive UploadFailure
  | rejected (rejection : Rejection)
  | missingChunks (missing : List ℕ)
  | lostChunk (index : ℕ)
  /-- The database or the file system fails. -/
  | unavailable
  deriving DecidableEq

def UploadFailure.app (status : ℕ) (message : String) : UploadFailure := .rejected (.app status message)

def UploadFailure.message : UploadFailure → Option String
  | .rejected (.app _ message) | .rejected (.payloadTooLarge message) => some message
  | .missingChunks missing => some s!"Missing chunks: [{listed (missing.map Nat.repr)}]"
  | .lostChunk index => some s!"Chunk {index} missing from Redis"
  | .unavailable => none

def UploadFailure.Misses (index : ℕ) : UploadFailure → Prop
  | .missingChunks missing => index ∈ missing
  | .lostChunk lost => lost = index
  | _ => False

instance (index : ℕ) : ∀ failure : UploadFailure, Decidable (failure.Misses index)
  | .missingChunks missing => inferInstanceAs (Decidable (index ∈ missing))
  | .lostChunk lost => inferInstanceAs (Decidable (lost = index))
  | .rejected _ | .unavailable => inferInstanceAs (Decidable False)

def sessionTtlMs : ℕ := 24 * 60 * 60 * 1000

def UploadSession.expectedSize (session : UploadSession) (index : ℕ) : ℕ :=
  if index = session.totalChunks - 1 then session.totalSize - session.chunkSize * (session.totalChunks - 1)
  else session.chunkSize

/-- The session that `create` makes. -/
def UploadSession.create (lower : String → String) (now : ℕ) (id : String) (dto : CreateUploadSessionDto)
    (ownerId : String) (orgId : Option String) : Except Rejection UploadSession :=
  if isSafeFilename dto.fileName = false then .error (badRequest "Invalid fileName")
  else if dto.mimeType ∉ allowedMimeTypes then .error (badRequest s!"Disallowed mimeType: {dto.mimeType}")
  else do
    let _ ← validateExtensionForMime lower dto.fileName dto.mimeType
    if maxFileSize < dto.totalSize then .error (badRequest s!"totalSize exceeds maximum of {maxFileSize} bytes")
    else
      return { id, ownerId, orgId, fileName := dto.fileName, mimeType := dto.mimeType, totalSize := dto.totalSize
               chunkSize := dto.chunkSize, totalChunks := (dto.totalSize + dto.chunkSize - 1) / dto.chunkSize
               status := .active, expiresAt := now + sessionTtlMs }

/-- The store after `createSession`, when nobody has the session's id yet. -/
def UploadStore.created (now : ℕ) (session : UploadSession) (items : List EvidenceQueueItem) (files : ℕ → Option Buffer)
    (fails : Bool) : UploadStore :=
  { now, session, items, files, cached := if fails then none else set session (now + sessionTtlMs) }

namespace UploadStore
variable (s : UploadStore)

/-- A text of a date is not before any date: a session from the cache does not look expired. -/
def hasExpired (session : UploadSession) (fromCache : Bool) : Bool := !fromCache && session.expiresAt < s.now

/-- `ttlSeconds`, in milliseconds. -/
def ttl (expiresAt : ℕ) : ℕ := (expiresAt - s.now + 999) / 1000 * 1000

def setStatus (status : UploadSessionStatus) : UploadStore := { s with session := { s.session with status := status } }

def setBuffer (index : ℕ) (buffer : Buffer) : UploadStore :=
  { s with buffers := fun i => if i = index then set buffer (s.now + sessionTtlMs) else s.buffers i }

def addReceived (index : ℕ) : UploadStore := { s with received := sadd s.now index s.received }

def expireReceived : UploadStore := { s with received := expire s.now (s.now + sessionTtlMs) s.received }

def upsertChunk (index : ℕ) (chunk : UploadChunk) : UploadStore :=
  { s with chunks := fun i => if i = index then some chunk else s.chunks i }

def chunkIndices : List ℕ := (List.range s.session.totalChunks).filter fun i => (s.chunks i).isSome

def setFile (file : ℕ) (bytes : Option Buffer) : UploadStore :=
  { s with files := fun i => if i = file then bytes else s.files i }

def hasDuplicate (fileHash : String) (orgId : Option String) : Bool :=
  s.items.any fun item => item.fileHash = fileHash ∧ ∀ org ∈ orgId, org = "" ∨ item.orgId = some org

end UploadStore
section Calls

inductive Goal
  | uploadChunk (index : ℤ) (checksum : String) (buffer : Buffer)
  /-- The initialization vector is what `encryptBuffer` draws. -/
  | finalize (iv : Buffer)
  | getStatus

/-- `addReceivedChunk`, and how far it is. -/
inductive Registry
  | sadd
  | expire
  | upsert
  | done
  | threw
  deriving DecidableEq

inductive RedisKey
  | received
  | chunk (index : ℕ)

inductive FinalizeOutcome
  | item (id : ℕ)
  | duplicate
  | rejected (rejection : Rejection)

inductive UploadReply
  /-- `received: true`, and a duplicate. -/
  | duplicate (index : ℕ)
  | item (id : ℕ)
  | status (totalChunks : ℕ) (receivedChunks : List ℕ)
  | failed (failure : UploadFailure)

inductive UploadPhase
  /-- `getActiveSession` -/
  | getCached
  | findSession
  | cacheSession (session : UploadSession) (ttl : ℕ)
  | expiring
  | uncachingExpired
  /-- `uploadChunk`: the bytes and the record are written side by side. When both are, the call has returned. -/
  | lookup (session : UploadSession)
  | writing (index : ℕ) (buffered : Bool) (registry : Registry)
  /-- `getReceivedChunks` -/
  | getReceived (session : UploadSession)
  | findChunks (session : UploadSession)
  /-- `finalize` -/
  | getChunk (session : UploadSession) (parts : List Buffer)
  | writeFile (session : UploadSession) (assembled : Buffer)
  | findDuplicate (session : UploadSession) (assembled : Buffer)
  | unlinking (session : UploadSession)
  | creating (session : UploadSession) (assembled : Buffer)
  | closing (session : UploadSession) (outcome : FinalizeOutcome)
  | uncaching (session : UploadSession) (outcome : FinalizeOutcome)
  | cleaning (keys : List RedisKey) (outcome : FinalizeOutcome)
  | returned (reply : UploadReply)

structure UploadCall where
  ownerId : String
  goal : Goal
  phase : UploadPhase := .getCached

def FinalizeOutcome.status : FinalizeOutcome → UploadSessionStatus
  | .item _ | .duplicate => .completed
  | .rejected _ => .aborted

def FinalizeOutcome.reply : FinalizeOutcome → UploadReply
  | .item id => .item id
  | .duplicate => .failed (.app 409 "File already exists in evidence queue")
  | .rejected rejection => .failed (.rejected rejection)

namespace UploadPhase

def fail (failure : UploadFailure) : UploadPhase := .returned (.failed failure)

/-- The checks of `getActiveSession`, and of the index. -/
def enter (call : UploadCall) (s : UploadStore) (session : UploadSession) (fromCache : Bool) : UploadPhase :=
  if session.ownerId ≠ call.ownerId then fail (.app 403 "You do not have access to this upload session")
  else if session.status ≠ .active then fail (.app 400 s!"Session is {session.status.text}")
  else if s.hasExpired session fromCache then .expiring
  else
    match call.goal with
    | .uploadChunk index _ _ =>
      if index < 0 ∨ session.totalChunks ≤ index then
        fail (.app 400 s!"Chunk index {index} out of range [0, {(session.totalChunks : ℤ) - 1}]")
      else .lookup session
    | .finalize _ | .getStatus => .getReceived session

def check (p : Platform) (session : UploadSession) (index : ℕ) (checksum : String) (buffer : Buffer) :
    Option UploadChunk → UploadPhase
  | some existing =>
    if existing.checksum ≠ checksum then fail (.app 409 s!"Chunk {index} already uploaded with a different checksum")
    else .returned (.duplicate index)
  | none =>
    if buffer.length ≠ session.expectedSize index then
      fail (.app 400
        s!"Chunk {index} size mismatch: expected {session.expectedSize index}, got {buffer.length}")
    else if p.sha256 buffer ≠ checksum then fail (.app 400 s!"Chunk {index} checksum mismatch")
    else .writing index false .sadd

def assemble (p : Platform) (session : UploadSession) (parts : List Buffer) : UploadPhase :=
  let assembled := parts.flatten
  match validateFileContent p.lower session.fileName session.mimeType assembled.length assembled with
  | .error rejection => .closing session (.rejected rejection)
  | .ok _ => .writeFile session assembled

def gather (p : Platform) (session : UploadSession) (parts : List Buffer) : UploadPhase :=
  if parts.length < session.totalChunks then .getChunk session parts else assemble p session parts

/-- What follows `getReceivedChunks`. -/
def list (p : Platform) (goal : Goal) (session : UploadSession) (indices : List ℕ) : UploadPhase :=
  match goal with
  | .finalize _ =>
    if indices.length ≠ session.totalChunks then
      fail (.missingChunks ((List.range session.totalChunks).filter (· ∉ indices)))
    else gather p session []
  | _ => .returned (.status session.totalChunks indices)

def clean (outcome : FinalizeOutcome) : List RedisKey → UploadPhase
  | [] => .returned outcome.reply
  | keys => .cleaning keys outcome

end UploadPhase

def UploadStore.del (s : UploadStore) : RedisKey → UploadStore
  | .received => { s with received := none }
  | .chunk index => { s with buffers := fun i => if i = index then none else s.buffers i }

def sessionKeys (totalChunks : ℕ) : List RedisKey := .received :: (List.range totalChunks).map .chunk

variable (p : Platform)

/-- `addReceivedChunk` goes on. -/
def UploadCall.register (call : UploadCall) (fails : Bool) (index : ℕ) (s : UploadStore) :
    Registry → Registry × UploadStore
  | .sadd => (.expire, if fails then s else s.addReceived index)
  | .expire => (.upsert, if fails then s else s.expireReceived)
  | .upsert =>
    match call.goal with
    | .uploadChunk _ checksum buffer =>
      if fails then (.threw, s)
      else (.done, s.upsertChunk index ⟨buffer.length, checksum, s!"redis:chunk:{s.session.id}:{index}"⟩)
    | _ => (.threw, s)
  | .done => (.done, s)
  | .threw => (.threw, s)

/-- One call of Redis, of the database or of the file system, by the call at place `self`, and what it does then. -/
def UploadCall.act (self : ℕ) (call : UploadCall) (fails : Bool) (s : UploadStore) : UploadPhase × UploadStore :=
  match call.phase with
  | .getCached =>
    match if fails then none else get s.now s.cached with
    | some session => (.enter call s session true, s)
    | none => (.findSession, s)
  | .findSession =>
    if fails then (.fail .unavailable, s)
    else if 0 < s.ttl s.session.expiresAt then (.cacheSession s.session (s.ttl s.session.expiresAt), s)
    else (.enter call s s.session false, s)
  | .cacheSession session ttl =>
    (.enter call s session false, if fails then s else { s with cached := set session (s.now + ttl) })
  | .expiring => if fails then (.fail .unavailable, s) else (.uncachingExpired, s.setStatus .expired)
  | .uncachingExpired => (.fail (.app 400 "Session has expired"), if fails then s else { s with cached := none })
  | .lookup session =>
    match call.goal with
    | .uploadChunk index checksum buffer =>
      if fails then (.fail .unavailable, s) else (.check p session index.toNat checksum buffer (s.chunks index.toNat), s)
    | _ => (.fail .unavailable, s)
  | .writing index buffered registry =>
    (.writing index buffered (call.register fails index s registry).1, (call.register fails index s registry).2)
  | .getReceived session =>
    match if fails then [] else (get s.now s.received).getD [] with
    | [] => (.findChunks session, s)
    | members => (.list p call.goal session (members.insertionSort (· ≤ ·)), s)
  | .findChunks session => if fails then (.fail .unavailable, s) else (.list p call.goal session s.chunkIndices, s)
  | .getChunk session parts =>
    match if fails then none else get s.now (s.buffers parts.length) with
    | none => (.fail (.lostChunk parts.length), s)
    | some buffer => (.gather p session (parts ++ [buffer]), s)
  | .writeFile session assembled =>
    match call.goal with
    | .finalize iv =>
      if fails then (.fail .unavailable, s)
      else (.findDuplicate session assembled, s.setFile self (some (p.encryptBuffer iv assembled)))
    | _ => (.fail .unavailable, s)
  | .findDuplicate session assembled =>
    if fails then (.fail .unavailable, s)
    else if s.hasDuplicate (p.sha256 assembled) session.orgId then (.unlinking session, s)
    else (.creating session assembled, s)
  | .unlinking session => if fails then (.fail .unavailable, s) else (.closing session .duplicate, s.setFile self none)
  | .creating session assembled =>
    -- the hash of a file is unique
    if fails ∨ s.items.any (·.fileHash = p.sha256 assembled) then (.fail .unavailable, s)
    else
      (.closing session (.item s.items.length),
        { s with items := s.items ++
          [{ fileName := session.fileName, filePath := self, fileHash := p.sha256 assembled
             mimeType := session.mimeType, size := assembled.length, ownerId := call.ownerId, orgId := session.orgId }] })
  | .closing session outcome =>
    if fails then (.fail .unavailable, s) else (.uncaching session outcome, s.setStatus outcome.status)
  | .uncaching session outcome =>
    (.clean outcome (sessionKeys session.totalChunks), if fails then s else { s with cached := none })
  | .cleaning keys outcome =>
    match keys with
    | [] => (.returned outcome.reply, s)
    | key :: rest => (.clean outcome rest, if fails then s else s.del key)
  | .returned reply => (.returned reply, s)

/-- `storeChunk`: the other half of the writes of a chunk. -/
def UploadCall.storeChunk (call : UploadCall) (fails : Bool) (s : UploadStore) : UploadPhase × UploadStore :=
  match call.phase, call.goal with
  | .writing index false registry, .uploadChunk _ _ buffer =>
    (.writing index true registry, if fails then s else s.setBuffer index buffer)
  | phase, _ => (phase, s)

structure UploadWorld where
  store : UploadStore
  calls : List UploadCall := []

inductive UploadEvent
  | start (ownerId : String) (goal : Goal)
  | advance (call : ℕ) (fails : Bool)
  | storeChunk (call : ℕ) (fails : Bool)
  | elapse (d : ℕ)
  /-- Other uploads queue their files, too. -/
  | queueItem (item : EvidenceQueueItem)

namespace UploadWorld

def put (w : UploadWorld) (i : ℕ) (call : UploadCall) (result : UploadPhase × UploadStore) : UploadWorld where
  store := result.2
  calls := w.calls.set i { call with phase := result.1 }

def take (w : UploadWorld) : UploadEvent → Option UploadWorld
  | .start ownerId goal => some { w with calls := w.calls ++ [{ ownerId, goal }] }
  | .advance i fails => w.calls[i]?.map fun call => w.put i call (call.act p i fails w.store)
  | .storeChunk i fails => w.calls[i]?.map fun call => w.put i call (call.storeChunk fails w.store)
  | .elapse d => some { w with store := { w.store with now := w.store.now + d } }
  | .queueItem item => some { w with store := { w.store with items := w.store.items ++ [item] } }

def Step (w : UploadWorld) (event : UploadEvent) (w' : UploadWorld) : Prop := w.take p event = some w'

end UploadWorld

abbrev UploadTransition := Transition UploadWorld UploadEvent

end Calls
end Soter.Evidence
