import Soter.Evidence.UploadSession
import Soter.SyncQueue.Actions

/-! The upload of one piece of evidence from the phone (`runAction` of `services/syncQueue.ts`) to the server of the upload sessions
(`evidence/upload-session.controller.ts`, `upload-session.service.ts`). The server takes the requests one after the other, and
nothing of its own fails; the network may lose each request and each answer, and whatever stands before the handlers may refuse it. -/
namespace Soter.SyncQueue
open Soter.Evidence Soter.Runs

structure EvidenceFile where
  filename : String
  contentType : String
  bytes : Buffer

def chunkSize : ℕ := 512 * 1024

def EvidenceFile.chunk (file : EvidenceFile) (index : ℕ) : Buffer := (file.bytes.drop (index * chunkSize)).take chunkSize

inductive UploadStage
  | idle
  | creating
  | asking
  | sending (index : ℕ)
  | finalizing
  deriving DecidableEq

/-- The queued action with what its payload has of the upload. A completed action is not in the queue any more. -/
structure EvidencePhone where
  action : QueuedSyncAction Unit
  sessionId : Option ℕ := none
  uploadedChunks : List ℕ := []
  totalChunks : ℕ := 0
  stage : UploadStage := .idle
  completed : Bool := false

inductive UploadAnswer
  | created (session totalChunks : ℕ)
  | status (totalChunks : ℕ) (receivedChunks : List ℕ)
  | received
  | item
  /-- Any status but those of success; the message is the one of the body, if it has one. -/
  | failed (status : ℕ) (message : Option String) (retryAfterMs : Option ℤ)

def throwHttpError (label : String) (status : ℕ) (retryAfterMs : Option ℤ) : SyncError where
  message := label ++ ": HTTP error! status: " ++ toString status
  rateLimited := if status = 429 then some retryAfterMs else none

def requestError (label : String) (status : ℕ) (message : Option String) (retryAfterMs : Option ℤ) : SyncError :=
  if status = 429 then throwHttpError label status retryAfterMs
  else { message := label ++ ": " ++ message.getD ("HTTP error " ++ toString status) }

namespace EvidencePhone
variable (phone : EvidencePhone)

def fail (error : SyncError) : EvidencePhone :=
  { phone with
    action := { phone.action with state := phone.action.nextState error, retryCount := phone.action.retryCount + 1 }
    stage := .idle }

def attempt : EvidencePhone := { phone with stage := if phone.sessionId.isNone then .creating else .asking }

def uploadFrom (index : ℕ) : EvidencePhone :=
  { phone with
    stage := match (List.range phone.totalChunks).find? fun i => index ≤ i && i ∉ phone.uploadedChunks with
      | some next => .sending next
      | none => .finalizing }

def receive (answer : UploadAnswer) : EvidencePhone :=
  match phone.stage, answer with
  | .creating, .created session totalChunks =>
    ({ phone with sessionId := some session, totalChunks, uploadedChunks := [] } : EvidencePhone).uploadFrom 0
  | .creating, .failed status message retryAfterMs =>
    phone.fail (requestError "Failed to create upload session" status message retryAfterMs)
  | .asking, .status totalChunks receivedChunks =>
    ({ phone with totalChunks, uploadedChunks := receivedChunks } : EvidencePhone).uploadFrom 0
  | .asking, .failed status _ retryAfterMs =>
    if status = 404 then { phone with sessionId := none, uploadedChunks := [], totalChunks := 0, stage := .creating }
    else phone.fail (throwHttpError "Failed to query session status" status retryAfterMs)
  | .sending index, .received =>
    ({ phone with uploadedChunks := phone.uploadedChunks ++ [index] } : EvidencePhone).uploadFrom (index + 1)
  | .sending index, .failed status message retryAfterMs =>
    phone.fail (requestError ("Chunk " ++ toString index ++ " upload failed") status message retryAfterMs)
  | .finalizing, .item => { phone with stage := .idle, completed := true }
  | .finalizing, .failed status message retryAfterMs =>
    phone.fail (requestError "Failed to finalize upload" status message retryAfterMs)
  | _, _ => phone

end EvidencePhone
section Server
variable (p : Platform) (file : EvidenceFile) (ownerId : String)

/-- The sessions of the action, with what all sessions share; `served` counts the requests. -/
structure EvidenceServer where
  now : ℕ := 0
  sessions : List UploadStore := []
  items : List EvidenceQueueItem := []
  files : ℕ → Option Buffer := fun _ => none
  served : ℕ := 0

/-- The response to a failure (`http-exception.filter.ts`). What fails here in the database fails because a hash is not unique. -/
def failureAnswer : UploadFailure → UploadAnswer
  | .rejected (.app status message) => .failed status (some message) none
  | .rejected (.payloadTooLarge message) => .failed 413 (some message) none
  | .missingChunks missing => .failed 400 (UploadFailure.missingChunks missing).message none
  | .lostChunk index => .failed 500 (UploadFailure.lostChunk index).message none
  | .unavailable => .failed 409 (some "Unique constraint violation") none

def phaseAnswer : UploadPhase → Option UploadAnswer
  | .writing _ true .done | .returned (.duplicate _) => some .received
  | .returned (.item _) => some .item
  | .returned (.status totalChunks receivedChunks) => some (.status totalChunks receivedChunks)
  | .returned (.failed failure) => some (failureAnswer failure)
  | _ => none

/-- What the call does next when it is alone and nothing fails: the bytes of a chunk come before its record. -/
def serveStep (self : ℕ) (call : UploadCall) (store : UploadStore) : UploadPhase × UploadStore :=
  match call.phase with
  | .writing _ false _ => call.storeChunk false store
  | _ => call.act p self false store

def serve (self : ℕ) : ℕ → UploadCall → UploadStore → UploadCall × UploadStore
  | 0, call, store => (call, store)
  | turns + 1, call, store =>
    serve self turns { call with phase := (serveStep p self call store).1 } (serveStep p self call store).2

namespace EvidenceServer
variable (server : EvidenceServer)

def view (store : UploadStore) : UploadStore := { store with now := server.now, items := server.items, files := server.files }

def callSession (turns session : ℕ) (goal : Goal) : Option (UploadAnswer × EvidenceServer) :=
  server.sessions[session]?.bind fun store =>
    let served := serve p server.served turns { ownerId, goal } (server.view store)
    (phaseAnswer served.1.phase).map fun answer =>
      (answer, { server with
        sessions := server.sessions.set session served.2
        items := served.2.items
        files := served.2.files
        served := server.served + 1 })

def uploadDto : CreateUploadSessionDto where
  fileName := file.filename
  mimeType := file.contentType
  totalSize := file.bytes.length
  chunkSize := chunkSize

instance (dto : CreateUploadSessionDto) : Decidable dto.IsValid :=
  decidable_of_iff
    (dto.mimeType ∈ allowedMimeTypes ∧ 1 ≤ dto.totalSize ∧ dto.totalSize ≤ maxFileSize ∧ minChunkSize ≤ dto.chunkSize ∧
      dto.chunkSize ≤ maxChunkSize)
    ⟨fun h => ⟨h.1, h.2.1, h.2.2.1, h.2.2.2.1, h.2.2.2.2⟩, fun h => ⟨h.mimeType, h.minSize, h.maxSize, h.minChunk, h.maxChunk⟩⟩

def createSession : Option (UploadAnswer × EvidenceServer) :=
  if (uploadDto file).IsValid then
    match UploadSession.create p.lower server.now (toString server.sessions.length) (uploadDto file) ownerId none with
    | .error rejection => some (failureAnswer (.rejected rejection), server)
    | .ok session =>
      some (.created server.sessions.length session.totalChunks,
        { server with
          sessions := server.sessions ++ [.created server.now session [] (fun _ => none) false]
          served := server.served + 1 })
  else none

/-- The server takes the request that the phone has sent. The initialization vector is what `encryptBuffer` draws. -/
def handle (turns : ℕ) (iv : Buffer) (phone : EvidencePhone) : Option (UploadAnswer × EvidenceServer) :=
  match phone.stage, phone.sessionId with
  | .creating, _ => server.createSession p file ownerId
  | .asking, some session => server.callSession p ownerId turns session .getStatus
  | .sending index, some session =>
    if file.chunk index = [] then some (.failed 400 (some "No chunk data uploaded") none, server)
    else server.callSession p ownerId turns session (.uploadChunk index (p.sha256 (file.chunk index)) (file.chunk index))
  | .finalizing, some session => server.callSession p ownerId turns session (.finalize iv)
  | _, _ => none

end EvidenceServer
end Server
section World
variable (p : Platform) (file : EvidenceFile) (ownerId : String)

structure EvidenceWorld where
  phone : EvidencePhone
  server : EvidenceServer := {}
  /-- The items that the server has queued on requests of the phone. -/
  queued : List ℕ := []

inductive EvidenceEvent
  | attempt
  /-- The request is lost, and `fetch` rejects with this message. -/
  | lost (message : String)
  /-- The request is served, and the answer is lost. -/
  | unanswered (turns : ℕ) (iv : Buffer) (message : String)
  | answered (turns : ℕ) (iv : Buffer)
  /-- Something before the handlers answers. -/
  | refused (status : ℕ) (message : Option String) (retryAfterMs : Option ℤ)
  | elapse (d : ℕ)
  /-- Other uploads queue their files, too. -/
  | queueItem (item : EvidenceQueueItem)

namespace EvidenceWorld
variable (w : EvidenceWorld)

def serve (phone : EvidencePhone) (server : EvidenceServer) : EvidenceWorld where
  phone
  server
  queued := w.queued ++ List.range' w.server.items.length (server.items.length - w.server.items.length)

def take : EvidenceEvent → Option EvidenceWorld
  | .attempt => if w.phone.stage = .idle ∧ w.phone.completed = false then some { w with phone := w.phone.attempt } else none
  | .lost message => if w.phone.stage = .idle then none else some { w with phone := w.phone.fail { message } }
  | .unanswered turns iv message =>
    (w.server.handle p file ownerId turns iv w.phone).map fun served => w.serve (w.phone.fail { message }) served.2
  | .answered turns iv =>
    (w.server.handle p file ownerId turns iv w.phone).map fun served => w.serve (w.phone.receive served.1) served.2
  | .refused status message retryAfterMs =>
    if w.phone.stage = .idle ∨ 200 ≤ status ∧ status < 300 then none
    else some { w with phone := w.phone.receive (.failed status message retryAfterMs) }
  | .elapse d => some { w with server := { w.server with now := w.server.now + d } }
  | .queueItem item =>
    if w.server.items.any (·.fileHash = item.fileHash) then none
    else some { w with server := { w.server with items := w.server.items ++ [item] } }

def Step (w : EvidenceWorld) (event : EvidenceEvent) (w' : EvidenceWorld) : Prop := w.take p file ownerId event = some w'

end EvidenceWorld

abbrev EvidenceTransition := Transition EvidenceWorld EvidenceEvent

def EvidenceWorld.initial (request : SyncActionRequest Unit) : EvidenceWorld where
  phone := { action := request.action 0 0 }

end World
end Soter.SyncQueue
