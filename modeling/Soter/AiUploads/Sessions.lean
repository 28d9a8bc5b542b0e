import Mathlib.Algebra.BigOperators.Group.Finset.Basic
import Mathlib.Algebra.GroupWithZero.Nat
import Mathlib.Algebra.Order.Ring.Rat
import Mathlib.Data.List.AList
import Soter.Lib.Run

/-! `UploadSessionService` (`upload_sessions.py`): the resumable uploads of the AI service. The calls run one after the
other under the lock, and the calls of the file system succeed. -/
namespace Soter.AiUploads
open Soter.Runs

abbrev Bytes := List UInt8

inductive UploadSessionError
  | session_not_found
  | session_expired
  | forbidden_owner
  | missing_owner
  | invalid_content_type
  | invalid_request
  | file_too_large
  | session_already_finalized
  | invalid_chunk_index
  | empty_chunk
  | incomplete_upload
  | size_mismatch
  /-- Not the service's own: `open` finds no chunk file. -/
  | FileNotFoundError
  deriving DecidableEq

structure UploadSession where
  sessionId : ℕ
  ownerId : String
  filename : String
  contentType : String
  totalSize : ℤ
  totalChunks : ℤ
  createdAt : ℚ
  expiresAt : ℚ
  receivedChunks : Finset ℤ := ∅
  receivedBytes : ℕ := 0
  completed : Bool := false
  artifactId : Option ℕ := none
  deriving DecidableEq

structure Settings where
  allowedContentTypes : List String
  maxUploadBytes : ℤ
  sessionTtlSeconds : ℤ

/-- A file directly under `storage_dir`. Which session it was assembled for is not on it. -/
structure Artifact where
  artifactId : ℕ
  safeName : String
  sessionId : ℕ
  data : Bytes
  deriving DecidableEq

structure Chunk where
  sessionId : ℕ
  index : ℤ
  data : Bytes
  deriving DecidableEq

abbrev Directory := AList fun _ : ℤ => Bytes

/-- The table of sessions, numbered in the order of their creation, and what is on disk. `accepted` is not the service's:
the chunks that `save_chunk` has returned from, the last one first. -/
structure Store where
  now : ℚ
  created : ℕ
  sessions : ℕ → Option UploadSession
  sessionDir : ℕ → Directory
  artifacts : List Artifact
  accepted : List Chunk

def Store.fresh (now : ℚ) : Store where
  now
  created := 0
  sessions := fun _ => none
  sessionDir := fun _ => ∅
  artifacts := []
  accepted := []

def UploadSession.IsExpired (session : UploadSession) (now : ℚ) : Prop := session.expiresAt < now

instance (session : UploadSession) (now : ℚ) : Decidable (session.IsExpired now) :=
  inferInstanceAs (Decidable (_ < _))

def Store.purge (s : Store) (sessionId : ℕ) : Store :=
  { s with
    sessions := Function.update s.sessions sessionId none
    sessionDir := Function.update s.sessionDir sessionId ∅ }

abbrev Outcome (α : Type) := Except UploadSessionError α × Store

def requireActiveSession (s : Store) (now : ℚ) (sessionId : ℕ) (ownerId : String) : Outcome UploadSession :=
  match s.sessions sessionId with
  | none => (.error .session_not_found, s)
  | some session =>
    if session.IsExpired now then (.error .session_expired, s.purge sessionId)
    else if ownerId = "" ∨ session.ownerId ≠ ownerId then (.error .forbidden_owner, s)
    else (.ok session, s)

/-- `os.path.getsize`, of a file that exists. -/
def sizeOf (dir : Directory) (index : ℤ) : ℕ := ((dir.lookup index).map List.length).getD 0

def recalculateReceivedBytes (dir : Directory) (session : UploadSession) : ℕ :=
  ∑ index ∈ session.receivedChunks, sizeOf dir index

def Store.put (s : Store) (sessionId : ℕ) (session : UploadSession) (dir : Directory) : Store :=
  { s with
    sessions := Function.update s.sessions sessionId (some session)
    sessionDir := Function.update s.sessionDir sessionId dir }

def createSession (settings : Settings) (s : Store) (now : ℚ) (ownerId filename contentType : String)
    (totalSize totalChunks : ℤ) : Outcome UploadSession :=
  if ownerId = "" then (.error .missing_owner, s)
  else if contentType ∉ settings.allowedContentTypes then (.error .invalid_content_type, s)
  else if totalSize ≤ 0 ∨ totalChunks ≤ 0 then (.error .invalid_request, s)
  else if settings.maxUploadBytes < totalSize then (.error .file_too_large, s)
  else
    let session : UploadSession :=
      { sessionId := s.created
        ownerId, filename, contentType, totalSize, totalChunks
        createdAt := now
        expiresAt := now + settings.sessionTtlSeconds }
    (.ok session, { s.put s.created session ∅ with created := s.created + 1 })

def UploadSession.recount (session : UploadSession) (dir : Directory) : UploadSession :=
  { session with receivedBytes := recalculateReceivedBytes dir session }

def UploadSession.add (session : UploadSession) (index : ℤ) : UploadSession :=
  { session with receivedChunks := insert index session.receivedChunks }

def UploadSession.discard (session : UploadSession) (index : ℤ) : UploadSession :=
  { session with receivedChunks := session.receivedChunks.erase index }

def saveChunk (settings : Settings) (s : Store) (now : ℚ) (sessionId : ℕ) (ownerId : String) (chunkIndex : ℤ)
    (data : Bytes) : Outcome UploadSession :=
  match requireActiveSession s now sessionId ownerId with
  | (.error e, s) => (.error e, s)
  | (.ok session, s) =>
    if session.completed = true then (.error .session_already_finalized, s)
    else if chunkIndex < 0 ∨ session.totalChunks ≤ chunkIndex then (.error .invalid_chunk_index, s)
    else if data = [] then (.error .empty_chunk, s)
    else
      let written := (s.sessionDir sessionId).insert chunkIndex data
      let counted := (session.add chunkIndex).recount written
      if settings.maxUploadBytes < counted.receivedBytes then
        -- The file is removed, whatever stood in it before.
        let removed := written.erase chunkIndex
        (.error .file_too_large, s.put sessionId ((counted.discard chunkIndex).recount removed) removed)
      else
        (.ok counted, { s.put sessionId counted written with accepted := ⟨sessionId, chunkIndex, data⟩ :: s.accepted })

/-- `os.path.basename`. -/
def basename (path : String) : String :=
  String.ofList (path.toList.reverse.takeWhile (· ≠ '/')).reverse

/-- `range(total_chunks)`. -/
def UploadSession.indices (session : UploadSession) : List ℤ :=
  (List.range session.totalChunks.toNat).map Int.ofNat

/-- What copying the chunk files one after the other comes to: the parts until a file is missing. -/
def UploadSession.parts (session : UploadSession) (dir : Directory) : List Bytes :=
  ((session.indices.map dir.lookup).takeWhile Option.isSome).reduceOption

def UploadSession.safeName (session : UploadSession) : String :=
  if basename session.filename = "" then "artifact" else basename session.filename

def finalize (s : Store) (now : ℚ) (sessionId : ℕ) (ownerId : String) : Outcome UploadSession :=
  match requireActiveSession s now sessionId ownerId with
  | (.error e, s) => (.error e, s)
  | (.ok session, s) =>
    if session.completed = true then (.ok session, s)
    else if session.indices.filter (· ∉ session.receivedChunks) ≠ [] then (.error .incomplete_upload, s)
    else if (session.receivedBytes : ℤ) ≠ session.totalSize then (.error .size_mismatch, s)
    else
      let parts := session.parts (s.sessionDir sessionId)
      let artifact : Artifact :=
        { artifactId := s.artifacts.length, safeName := session.safeName, sessionId, data := parts.flatten }
      if parts.length < session.indices.length then
        (.error .FileNotFoundError, { s with artifacts := s.artifacts ++ [artifact] })
      else
        let done := { session with completed := true, artifactId := some artifact.artifactId }
        (.ok done, { s.put sessionId done ∅ with artifacts := s.artifacts ++ [artifact] })

structure PurgeResult where
  dryRun : Bool
  itemsPurged : ℕ := 0
  bytesReclaimed : ℕ := 0
  deriving DecidableEq

def dirSize (dir : Directory) : ℕ := (dir.entries.map (·.2.length)).sum

def Store.IsAbandoned (s : Store) (now : ℚ) (sessionId : ℕ) : Prop :=
  ∃ session ∈ s.sessions sessionId, session.completed = false ∧ session.expiresAt < now

instance (s : Store) (now : ℚ) (sessionId : ℕ) : Decidable (s.IsAbandoned now sessionId) :=
  match h : s.sessions sessionId with
  | none => isFalse (by simp [Store.IsAbandoned, h])
  | some session =>
    decidable_of_iff (session.completed = false ∧ session.expiresAt < now) (by simp [Store.IsAbandoned, h])

def purgeAbandonedSessions (s : Store) (now : ℚ) (dryRun : Bool) : PurgeResult × Store :=
  let abandonedIds := (List.range s.created).filter (s.IsAbandoned now ·)
  let result : PurgeResult :=
    { dryRun
      itemsPurged := abandonedIds.length
      bytesReclaimed := (abandonedIds.map fun sessionId => dirSize (s.sessionDir sessionId)).sum }
  (result, if dryRun then s else abandonedIds.foldl Store.purge s)

inductive Call
  | createSession (ownerId filename contentType : String) (totalSize totalChunks : ℤ)
  | getSession (sessionId : ℕ) (ownerId : String)
  | saveChunk (sessionId : ℕ) (ownerId : String) (chunkIndex : ℤ) (data : Bytes)
  | finalize (sessionId : ℕ) (ownerId : String)
  | purgeAbandonedSessions (dryRun : Bool)

inductive Answer
  | session (session : UploadSession)
  | purged (result : PurgeResult)
  deriving DecidableEq

structure TimedCall where
  time : ℚ
  call : Call

def perform (settings : Settings) (s : Store) (now : ℚ) : Call → Outcome Answer
  | .createSession ownerId filename contentType totalSize totalChunks =>
    (createSession settings s now ownerId filename contentType totalSize totalChunks).map (·.map .session) id
  | .getSession sessionId ownerId => (requireActiveSession s now sessionId ownerId).map (·.map .session) id
  | .saveChunk sessionId ownerId chunkIndex data =>
    (saveChunk settings s now sessionId ownerId chunkIndex data).map (·.map .session) id
  | .finalize sessionId ownerId => (finalize s now sessionId ownerId).map (·.map .session) id
  | .purgeAbandonedSessions dryRun => (purgeAbandonedSessions s now dryRun).map (.ok <| .purged ·) id

def step (settings : Settings) (s : Store) (l : TimedCall) : Option Store :=
  if s.now ≤ l.time then some { (perform settings s l.time l.call).2 with now := l.time } else none

def Step (settings : Settings) (s : Store) (l : TimedCall) (s' : Store) : Prop := step settings s l = some s'

/-- The data that `save_chunk` took last for this index. -/
def lastAccepted (accepted : List Chunk) (sessionId : ℕ) (index : ℤ) : Option Bytes :=
  (accepted.find? fun chunk => chunk.sessionId = sessionId ∧ chunk.index = index).map Chunk.data

/-- The sum of the sizes of the chunks that a session has stored: its chunk files, or what they were assembled to. -/
def Store.IsStored (s : Store) (sessionId : ℕ) (session : UploadSession) (bytes : ℕ) : Prop :=
  if session.completed = true then
    ∃ artifact ∈ s.artifacts, session.artifactId = some artifact.artifactId ∧ artifact.sessionId = sessionId ∧
      artifact.data.length = bytes
  else ∑ index ∈ (s.sessionDir sessionId).keys.toFinset, sizeOf (s.sessionDir sessionId) index = bytes

/-- Session, chunk files and all artifacts are as they were, unless the session was over time and has been purged. -/
def LeavesAsWas (s s' : Store) (now : ℚ) : Prop :=
  s'.artifacts = s.artifacts ∧
    ∀ sessionId,
      (s'.sessions sessionId = s.sessions sessionId ∧
        ∀ index, (s'.sessionDir sessionId).lookup index = (s.sessionDir sessionId).lookup index) ∨
      ((∃ session ∈ s.sessions sessionId, session.IsExpired now) ∧ s'.sessions sessionId = none)

def IsAssembled (accepted : List Chunk) (session : UploadSession) (artifact : Artifact) : Prop :=
  artifact.sessionId = session.sessionId ∧
    ∃ parts : List Bytes, session.indices.map (lastAccepted accepted session.sessionId) = parts.map some ∧
      artifact.data = parts.flatten ∧ (artifact.data.length : ℤ) = session.totalSize

structure IsExact (settings : Settings) (t : Transition Store TimedCall) : Prop where
  failsCleanly : ∀ e, (perform settings t.pre t.label.time t.label.call).1 = .error e →
    LeavesAsWas t.pre t.post t.label.time
  counted : ∀ sessionId, ∀ session ∈ t.post.sessions sessionId,
    t.post.IsStored sessionId session session.receivedBytes ∧ (session.receivedBytes : ℤ) ≤ settings.maxUploadBytes
  finalizes : ∀ sessionId ownerId session',
    t.label.call = .finalize sessionId ownerId →
    (perform settings t.pre t.label.time t.label.call).1 = .ok (.session session') →
    ∃ session ∈ t.pre.sessions sessionId,
      (session.completed = true ∧ t.post.artifacts = t.pre.artifacts) ∨
      (session.completed = false ∧ ∃ artifact, IsAssembled t.pre.accepted session artifact ∧
        t.post.artifacts = t.pre.artifacts ++ [artifact] ∧ session'.artifactId = some artifact.artifactId)
  onlyFinalize : (∀ sessionId ownerId, t.label.call ≠ .finalize sessionId ownerId) →
    t.post.artifacts = t.pre.artifacts
  once : (t.post.artifacts.map Artifact.sessionId).Nodup

def FitsAgain (settings : Settings) (s : Store) (now : ℚ) (sessionId : ℕ) (ownerId : String) (chunkIndex : ℤ)
    (data : Bytes) : Prop :=
  ∀ session ∈ s.sessions sessionId, ¬ session.IsExpired now → ownerId ≠ "" → session.ownerId = ownerId →
    session.completed = false → chunkIndex ∈ session.receivedChunks →
    (session.receivedBytes : ℤ) - sizeOf (s.sessionDir sessionId) chunkIndex + data.length ≤ settings.maxUploadBytes

instance (settings : Settings) (s : Store) (now : ℚ) (sessionId : ℕ) (ownerId : String) (chunkIndex : ℤ)
    (data : Bytes) : Decidable (FitsAgain settings s now sessionId ownerId chunkIndex data) :=
  inferInstanceAs (Decidable (∀ session ∈ s.sessions sessionId, _))

/-- No chunk that was received before is sent again with data that does not fit in its place. -/
def Fits (settings : Settings) (t : Transition Store TimedCall) : Prop :=
  match t.label.call with
  | .saveChunk sessionId ownerId chunkIndex data =>
    FitsAgain settings t.pre t.label.time sessionId ownerId chunkIndex data
  | _ => True

instance (settings : Settings) : ∀ t : Transition Store TimedCall, Decidable (Fits settings t)
  | ⟨s, ⟨now, .saveChunk sessionId ownerId chunkIndex data⟩, _⟩ =>
    inferInstanceAs (Decidable (FitsAgain settings s now sessionId ownerId chunkIndex data))
  | ⟨_, ⟨_, .createSession ..⟩, _⟩ => .isTrue trivial
  | ⟨_, ⟨_, .getSession ..⟩, _⟩ => .isTrue trivial
  | ⟨_, ⟨_, .finalize ..⟩, _⟩ => .isTrue trivial
  | ⟨_, ⟨_, .purgeAbandonedSessions _⟩, _⟩ => .isTrue trivial

end Soter.AiUploads
