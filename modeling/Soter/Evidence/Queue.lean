import Soter.Lib.Party
import Soter.Evidence.FileValidation

/-! The upload of a queued piece of evidence to the storage (`processUpload` and `retry` of `evidence.service.ts`). The
encrypted bytes are staged in a file first. Between any two calls of the database, of the file system and of the storage
anybody else may have a turn; each of them may fail, and a call may stop anywhere for good. -/
namespace Soter.Evidence
open Soter.Parties Soter.Runs

inductive EvidenceStatus
  | pending
  | uploading
  | completed
  | failed
  deriving DecidableEq

/-- `generateKey`: the name at the end is drawn, and that of the call that draws it. -/
structure StorageKey where
  scope : String
  name : ℕ
  deriving DecidableEq

def generateKey (orgId : Option String) (name : ℕ) : StorageKey where
  scope :=
    match orgId.filter (· ≠ "") with
    | some org => s!"evidence/org-{org}/"
    | none => "evidence/global/"
  name := name

/-- A row of `EvidenceQueueItem`, as far as its upload goes. -/
structure EvidenceItem where
  ownerId : String
  orgId : Option String
  filePath : Option String
  storageKey : Option StorageKey := none
  status : EvidenceStatus := .pending
  retryCount : ℕ := 0
  lastError : Option String := none

structure EvidenceStore where
  item : EvidenceItem
  staged : Option Buffer
  objects : List (StorageKey × Buffer) := []

inductive EvidenceFailure
  | app (status : ℕ) (message : String)
  | error (message : String)
  deriving DecidableEq

inductive EvidencePhase
  /-- `retry`, which goes on as an upload once it has answered. -/
  | retrying (ownerId : String)
  | requeueing
  /-- `processUpload` -/
  | finding
  | marking (item : EvidenceItem)
  | reading (item : EvidenceItem)
  | uploading (item : EvidenceItem) (encryptedBuffer : Buffer)
  | completing (storageKey : StorageKey)
  | unlinking
  /-- The message that is recorded, and the one that is thrown. -/
  | failing (message thrown : String)
  | ended (failure : Option EvidenceFailure)

namespace EvidenceStore

def setStatus (s : EvidenceStore) (status : EvidenceStatus) : EvidenceStore := { s with item := { s.item with status } }

def complete (s : EvidenceStore) (storageKey : StorageKey) : EvidenceStore :=
  { s with item := { s.item with status := .completed, storageKey := some storageKey } }

def fail (s : EvidenceStore) (message : String) : EvidenceStore :=
  { s with item :=
      { s.item with status := .failed, retryCount := s.item.retryCount + 1, lastError := some message } }

def upload (s : EvidenceStore) (key : StorageKey) (data : Buffer) : EvidenceStore :=
  { s with objects := (key, data) :: s.objects.filter (·.1 ≠ key) }

end EvidenceStore

def EvidencePhase.fail (message : String) : EvidencePhase := .failing message s!"Evidence upload failed: {message}"

/-- One call of the database, of the file system or of the storage, by the call at place `self`, and what it does then. -/
def EvidencePhase.act (self : ℕ) (fails : Option String) (s : EvidenceStore) : EvidencePhase → EvidencePhase × EvidenceStore
  | .retrying ownerId =>
    match fails with
    | some e => (.ended (some (.error e)), s)
    | none =>
      if s.item.ownerId ≠ ownerId then (.ended (some (.app 404 "Queue item not found")), s)
      else if s.item.status = .completed then (.ended (some (.app 400 "Item already uploaded")), s)
      else (.requeueing, s)
  | .requeueing =>
    match fails with
    | some e => (.ended (some (.error e)), s)
    | none => (.finding, s.setStatus .pending)
  | .finding =>
    match fails with
    | some e => (.ended (some (.error e)), s)
    | none => if s.item.status = .completed ∨ s.item.storageKey ≠ none then (.ended none, s) else (.marking s.item, s)
  | .marking item =>
    match fails with
    | some e => (.ended (some (.error e)), s)
    | none =>
      (if item.filePath.filter (· ≠ "") = none then .fail "Missing staging file path for evidence upload"
        else .reading item, s.setStatus .uploading)
  | .reading item =>
    match fails, s.staged with
    | some e, _ => (.fail e, s)
    | none, none => (.fail "ENOENT: no such file or directory", s)
    | none, some encryptedBuffer => (.uploading item encryptedBuffer, s)
  | .uploading item encryptedBuffer =>
    match fails with
    | some e => (.failing e e, s)
    | none => (.completing (generateKey item.orgId self), s.upload (generateKey item.orgId self) encryptedBuffer)
  | .completing storageKey =>
    match fails with
    | some e => (.fail e, s)
    | none => (.unlinking, s.complete storageKey)
  | .unlinking => (.ended none, if fails.isSome then s else { s with staged := none })
  | .failing message thrown =>
    match fails with
    | some e => (.ended (some (.error e)), s)
    | none => (.ended (some (.error thrown)), s.fail message)
  | .ended failure => (.ended failure, s)

abbrev EvidenceWorld := Party EvidenceStore EvidencePhase

inductive EvidenceEvent
  | processUpload
  | retry (ownerId : String)
  | advance (call : ℕ) (fails : Option String)

def EvidenceWorld.take (w : EvidenceWorld) : EvidenceEvent → Option EvidenceWorld
  | .processUpload => some (w.join .finding)
  | .retry ownerId => some (w.join (.retrying ownerId))
  | .advance i fails => w.calls[i]?.map fun phase => w.put i (phase.act i fails w.store)

def EvidenceWorld.Step (w : EvidenceWorld) (event : EvidenceEvent) (w' : EvidenceWorld) : Prop := w.take event = some w'

abbrev EvidenceTransition := Transition EvidenceWorld EvidenceEvent

/-- What `queueEvidence` leaves of a file that is not known yet, before its upload has begun. -/
def EvidenceStore.queued (ownerId : String) (orgId : Option String) (stagingPath : String) (encryptedBuffer : Buffer) :
    EvidenceStore where
  item := { ownerId, orgId, filePath := some stagingPath }
  staged := some encryptedBuffer

end Soter.Evidence
