import Mathlib.Data.List.Infix
import Mathlib.Data.Rat.Init
import Soter.Lib.Protocol

/-! `EntityLinkingService` (`entity-linking.service.ts`). Every Prisma call, every audit record, every look at the
clock and every change of the queue depth is one request. -/
namespace Soter.EntityLinking
open Soter.Tasks Soter.Runs

inductive RegistryEntityType
  | organization
  | location
  | asset
  | project
  deriving DecidableEq

def RegistryEntityType.name : RegistryEntityType → String
  | .organization => "organization"
  | .location => "location"
  | .asset => "asset"
  | .project => "project"

def RegistryEntityType.title : RegistryEntityType → String
  | .organization => "Organization"
  | .location => "Location"
  | .asset => "Asset"
  | .project => "Project"

def RegistryEntityType.ofName? (name : String) : Option RegistryEntityType :=
  [.organization, .location, .asset, .project].find? (·.name = name)

inductive EntityLinkSourceType
  | campaign
  | claim
  | verification
  deriving DecidableEq

def EntityLinkSourceType.name : EntityLinkSourceType → String
  | .campaign => "campaign"
  | .claim => "claim"
  | .verification => "verification"

def EntityLinkSourceType.ofName? (name : String) : Option EntityLinkSourceType :=
  [.campaign, .claim, .verification].find? (·.name = name)

inductive EntityLinkReviewStatus
  | auto_accepted
  | pending_review
  | accepted
  | rejected
  | remapped
  deriving DecidableEq

def EntityLinkReviewStatus.name : EntityLinkReviewStatus → String
  | .auto_accepted => "auto_accepted"
  | .pending_review => "pending_review"
  | .accepted => "accepted"
  | .rejected => "rejected"
  | .remapped => "remapped"

inductive EntityLinkReviewAction
  | accept
  | reject
  | remap
  deriving DecidableEq

def EntityLinkReviewAction.name : EntityLinkReviewAction → String
  | .accept => "accept"
  | .reject => "reject"
  | .remap => "remap"

def EntityLinkReviewAction.ofName? (name : String) : Option EntityLinkReviewAction :=
  [.accept, .reject, .remap].find? (·.name = name)

/-- A record of one of the four registries. `aliases` is the column that a name is looked for in besides `name`:
the aliases of an organization or a location, the category of an asset, the description of a project. -/
structure RegistryRecord where
  id : String
  registryId : String
  name : String
  aliases : Option String := none

structure RegistryIds where
  organizationId : Option String := none
  locationId : Option String := none
  assetId : Option String := none
  projectId : Option String := none
  deriving DecidableEq

def RegistryIds.get (ids : RegistryIds) : RegistryEntityType → Option String
  | .organization => ids.organizationId
  | .location => ids.locationId
  | .asset => ids.assetId
  | .project => ids.projectId

/-- `switch (entityType)`: the foreign key of this type is set. -/
def RegistryIds.set (ids : RegistryIds) (entityType : String) (id : String) : RegistryIds :=
  match RegistryEntityType.ofName? entityType with
  | some .organization => { ids with organizationId := some id }
  | some .location => { ids with locationId := some id }
  | some .asset => { ids with assetId := some id }
  | some .project => { ids with projectId := some id }
  | none => ids

structure EntityLink where
  id : ℕ
  createdAt : ℤ
  sourceType : EntityLinkSourceType
  sourceId : String
  extractedName : String
  extractedType : Option String
  entityType : RegistryEntityType
  registry : RegistryIds
  confidenceScore : ℚ
  matchMethod : Option String
  reviewStatus : EntityLinkReviewStatus
  queuedAt : Option ℤ
  reviewedBy : Option String := none
  reviewedAt : Option ℤ := none
  reviewNotes : Option String := none
  isActive : Bool
  deriving DecidableEq

structure CreateEntityLinkDto where
  sourceType : String
  sourceId : String
  extractedName : String
  extractedType : Option String := none
  entityType : String
  registryId : Option String := none
  confidenceScore : ℚ
  matchMethod : Option String := none

structure ReviewEntityLinkDto where
  action : String
  reviewNotes : Option String := none
  remapEntityType : Option String := none
  remapRegistryId : Option String := none

/-- The columns of a link that `linkEntity` sets. -/
structure LinkData where
  sourceType : String
  sourceId : String
  extractedName : String
  extractedType : Option String
  entityType : String
  registry : RegistryIds
  confidenceScore : ℚ
  matchMethod : String
  reviewStatus : EntityLinkReviewStatus
  queuedAt : Option ℤ
  isActive : Bool

/-- The columns of a link that a decision sets; what is `none` is not mentioned. -/
structure UpdateData where
  reviewedBy : String
  reviewedAt : ℤ
  reviewNotes : Option String
  reviewStatus : EntityLinkReviewStatus
  isActive : Bool
  registry : Option RegistryIds := none
  entityType : Option String := none
  matchMethod : Option String := none
  confidenceScore : Option ℚ := none

structure LinkView where
  entityType : RegistryEntityType
  registry : RegistryIds
  confidenceScore : ℚ
  matchMethod : Option String
  deriving DecidableEq

def EntityLink.view (link : EntityLink) : LinkView where
  entityType := link.entityType
  registry := link.registry
  confidenceScore := link.confidenceScore
  matchMethod := link.matchMethod

inductive AuditMetadata
  | link (sourceType : EntityLinkSourceType) (sourceId : String) (entityType : RegistryEntityType)
      (confidenceScore : ℚ) (matchMethod : Option String) (threshold : ℚ)
  | review (decision : String) (reviewNotes : Option String) (decisionLatencySeconds : ℚ) (previous current : LinkView)
  deriving DecidableEq

structure AuditRecord where
  actorId : String
  entity : String := "EntityLink"
  entityId : ℕ
  action : String
  metadata : AuditMetadata
  deriving DecidableEq

inductive Failure
  | app (status : ℕ) (message : String)
  | prisma (message : String)

structure Store where
  now : ℤ := 0
  /-- The links, each at its id. -/
  links : List EntityLink := []
  registry : RegistryEntityType → List RegistryRecord := fun _ => []
  /-- `entityLinkReviewQueueDepthGauge`. -/
  depth : String → ℤ := fun _ => 0
  audits : List AuditRecord := []
  /-- How the database's next calls fare. -/
  db : Except String Unit := .ok ()
  /-- For the record, the links that decisions were applied to, the latest first. -/
  decided : List ℕ := []

inductive Query
  | clock
  /-- Nothing but time goes by. -/
  | elapse (d : ℕ)
  /-- How the database's next calls fare is decided elsewhere. -/
  | foresee (db : Except String Unit)
  /-- The registries are kept by others. -/
  | keepRegistry (entityType : RegistryEntityType) (records : List RegistryRecord)
  | findUniqueRecord (entityType : RegistryEntityType) (registryId : String)
  | findFirstRecord (entityType : RegistryEntityType) (name : String)
  | create (data : LinkData)
  | findUnique (id : ℕ)
  | update (id : ℕ) (data : UpdateData)
  | adjustEntityLinkReviewQueueDepth (entityType : String) (delta : ℤ)
  | record (params : AuditRecord)

def Query.Reply : Query → Type
  | .clock => ℤ
  | .elapse _ | .foresee _ | .keepRegistry .. | .adjustEntityLinkReviewQueueDepth .. => Unit
  | .findUniqueRecord .. | .findFirstRecord .. => Except Failure (Option RegistryRecord)
  | .create _ | .update .. => Except Failure EntityLink
  | .findUnique _ => Except Failure (Option EntityLink)
  | .record _ => Except Failure Unit

def Store.ask {α : Type} (s : Store) (answer : α) : Except Failure α :=
  match s.db with
  | .error e => .error (.prisma e)
  | .ok () => .ok answer

def RegistryRecord.mentions (record : RegistryRecord) (name : String) : Bool :=
  record.name = name ∨ ∃ aliases ∈ record.aliases, name.toList <:+: aliases.toList

/-- `prisma.entityLink.create`. -/
def Store.create (s : Store) (data : LinkData) : Except Failure (EntityLink × Store) :=
  match s.db, EntityLinkSourceType.ofName? data.sourceType, RegistryEntityType.ofName? data.entityType with
  | .error e, _, _ => .error (.prisma e)
  | .ok (), some sourceType, some entityType =>
    let link : EntityLink :=
      { id := s.links.length
        createdAt := s.now
        sourceType := sourceType
        sourceId := data.sourceId
        extractedName := data.extractedName
        extractedType := data.extractedType
        entityType := entityType
        registry := data.registry
        confidenceScore := data.confidenceScore
        matchMethod := some data.matchMethod
        reviewStatus := data.reviewStatus
        queuedAt := data.queuedAt
        isActive := data.isActive }
    .ok (link, { s with links := s.links ++ [link] })
  | .ok (), _, _ => .error (.prisma "Invalid value for an enum argument.")

def EntityLink.apply (link : EntityLink) (data : UpdateData) (entityType : RegistryEntityType) : EntityLink :=
  { link with
    entityType := entityType
    registry := data.registry.getD link.registry
    confidenceScore := data.confidenceScore.getD link.confidenceScore
    matchMethod := data.matchMethod <|> link.matchMethod
    reviewStatus := data.reviewStatus
    reviewedBy := some data.reviewedBy
    reviewedAt := some data.reviewedAt
    reviewNotes := data.reviewNotes <|> link.reviewNotes
    isActive := data.isActive }

def UpdateData.newType (data : UpdateData) (link : EntityLink) : Option RegistryEntityType :=
  match data.entityType with
  | none => some link.entityType
  | some name => RegistryEntityType.ofName? name

/-- `prisma.entityLink.update`. -/
def Store.update (s : Store) (id : ℕ) (data : UpdateData) : Except Failure (EntityLink × Store) :=
  match s.db, s.links[id]? with
  | .error e, _ => .error (.prisma e)
  | .ok (), none => .error (.prisma "Record to update not found.")
  | .ok (), some link =>
    match data.newType link with
    | none => .error (.prisma "Invalid value for an enum argument.")
    | some entityType => .ok (link.apply data entityType,
        { s with links := s.links.set id (link.apply data entityType), decided := id :: s.decided })

/-- `AuditService.record`. -/
def Store.record (s : Store) (params : AuditRecord) : Except Failure (Unit × Store) :=
  s.ask ((), { s with audits := s.audits ++ [params] })

/-- `MetricsService.adjustEntityLinkReviewQueueDepth`. -/
def Store.adjust (s : Store) (entityType : String) (delta : ℤ) : Store :=
  { s with depth := Function.update s.depth entityType (s.depth entityType + delta) }

def perform : (q : Query) → Store → q.Reply × Store
  | .clock, s => (s.now, s)
  | .elapse d, s => ((), { s with now := s.now + d })
  | .foresee db, s => ((), { s with db := db })
  | .keepRegistry entityType records, s => ((), { s with registry := Function.update s.registry entityType records })
  | .findUniqueRecord entityType registryId, s =>
    (s.ask ((s.registry entityType).find? (·.registryId = registryId)), s)
  | .findFirstRecord entityType name, s => (s.ask ((s.registry entityType).find? (·.mentions name)), s)
  | .create data, s => commit (s.create data) s
  | .findUnique id, s => (s.ask s.links[id]?, s)
  | .update id data, s => commit (s.update id data) s
  | .adjustEntityLinkReviewQueueDepth entityType delta, s => ((), s.adjust entityType delta)
  | .record params, s => commit (s.record params) s

section Service

abbrev Call := Task Query Query.Reply Failure

inductive Outcome
  | result (link : EntityLink)
  | done

abbrev Handler := Call Outcome

/-- `ENTITY_LINK_CONFIDENCE_CONFIG`, and `String.prototype.toLowerCase`. -/
structure Config where
  threshold : ℚ
  toLowerCase : String → String

variable (config : Config)

/-- `getConfidenceBand(confidenceScore) === 'needs_review'`. -/
def needsReview (confidenceScore : ℚ) : Bool := confidenceScore < config.threshold

def findRegistryRecordById (entityType registryId : String) : Call String :=
  match RegistryEntityType.ofName? entityType with
  | none => .done (.error (.app 400 s!"Invalid entity type: {entityType}"))
  | some entityType => .ask (.findUniqueRecord entityType registryId) fun
    | .error e => .done (.error e)
    | .ok none => .done (.error (.app 404 s!"{entityType.title} with registry ID {registryId} not found"))
    | .ok (some record) => .done (.ok record.id)

def findBestRegistryMatch (entityType name : String) : Call (Option (String × ℚ)) :=
  match RegistryEntityType.ofName? entityType with
  | none => .done (.ok none)
  | some entityType => .ask (.findFirstRecord entityType name) fun
    | .error e => .done (.error e)
    | .ok none => .done (.ok none)
    | .ok (some record) => .done (.ok (some (record.id,
        if config.toLowerCase record.name = config.toLowerCase name then 1 else mkRat 85 100)))

def findRecord (dto : CreateEntityLinkDto) : Call (Option String × String) :=
  let matchMethod := (dto.matchMethod.filter (· ≠ "")).getD "manual"
  match dto.registryId.filter (· ≠ "") with
  | some registryId => (findRegistryRecordById dto.entityType registryId).bind fun id =>
    .done (.ok (some id, if matchMethod = "manual" then "manual" else "exact"))
  | none => (findBestRegistryMatch config dto.entityType dto.extractedName).bind fun
    | none => .done (.ok (none, matchMethod))
    | some (id, score) => .done (.ok (some id, if mkRat 95 100 ≤ score then "exact" else "fuzzy"))

def linkData (dto : CreateEntityLinkDto) (registryRecordId : Option String) (matchMethod : String) (now : ℤ) :
    LinkData where
  sourceType := dto.sourceType
  sourceId := dto.sourceId
  extractedName := dto.extractedName
  extractedType := dto.extractedType
  entityType := dto.entityType
  registry := (registryRecordId.filter (· ≠ "")).elim {} ((({} : RegistryIds).set dto.entityType) ·)
  confidenceScore := dto.confidenceScore
  matchMethod := matchMethod
  reviewStatus := if needsReview config dto.confidenceScore then .pending_review else .auto_accepted
  queuedAt := if needsReview config dto.confidenceScore then some now else none
  isActive := !needsReview config dto.confidenceScore

def linkAudit (needsReview : Bool) (link : EntityLink) : AuditRecord where
  actorId := "system"
  entityId := link.id
  action := if needsReview then "queued_for_review" else "auto_accepted"
  metadata := .link link.sourceType link.sourceId link.entityType link.confidenceScore link.matchMethod config.threshold

def recordAudit (params : AuditRecord) (link : EntityLink) : Handler :=
  .ask (.record params) fun
    | .error e => .done (.error e)
    | .ok () => .done (.ok (.result link))

def linkEntity (dto : CreateEntityLinkDto) : Handler :=
  if dto.confidenceScore < 0 ∨ 1 < dto.confidenceScore then
    .done (.error (.app 400 "Confidence score must be between 0 and 1"))
  else (findRecord config dto).bind fun (registryRecordId, matchMethod) => .ask .clock fun (now : ℤ) =>
    .ask (.create (linkData config dto registryRecordId matchMethod now)) fun
      | .error e => .done (.error e)
      | .ok link =>
        if needsReview config dto.confidenceScore then
          .ask (.adjustEntityLinkReviewQueueDepth dto.entityType 1) fun _ =>
            recordAudit (linkAudit config true link) link
        else recordAudit (linkAudit config false link) link

def decisionData (dto : ReviewEntityLinkDto) (reviewerId : String) (now : ℤ)
    (reviewStatus : EntityLinkReviewStatus) (isActive : Bool) : UpdateData where
  reviewedBy := reviewerId
  reviewedAt := now
  reviewNotes := dto.reviewNotes
  reviewStatus := reviewStatus
  isActive := isActive

/-- `switch (dto.action)`: the action, and the columns that it sets. -/
def updateData (dto : ReviewEntityLinkDto) (reviewerId : String) (now : ℤ) : Call UpdateData :=
  match EntityLinkReviewAction.ofName? dto.action with
  | some .accept => .done (.ok (decisionData dto reviewerId now .accepted true))
  | some .reject => .done (.ok (decisionData dto reviewerId now .rejected false))
  | some .remap =>
    match dto.remapEntityType.filter (· ≠ ""), dto.remapRegistryId.filter (· ≠ "") with
    | some remapEntityType, some remapRegistryId =>
      (findRegistryRecordById remapEntityType remapRegistryId).bind fun newRegistryRecordId => .done (.ok
        { decisionData dto reviewerId now .remapped true with
          registry := some (({} : RegistryIds).set remapEntityType newRegistryRecordId)
          entityType := some remapEntityType
          matchMethod := some "manual"
          confidenceScore := some 1 })
    | _, _ => .done (.error (.app 400 "remapEntityType and remapRegistryId are required for a remap decision"))
  | none => .done (.error (.app 400 s!"Unknown review action: {dto.action}"))

def reviewAudit (linkId : ℕ) (dto : ReviewEntityLinkDto) (reviewerId : String) (now : ℤ) (link updated : EntityLink) :
    AuditRecord where
  actorId := reviewerId
  entityId := linkId
  action := "review_" ++ dto.action
  metadata := .review dto.action dto.reviewNotes (mkRat (now - link.queuedAt.getD link.createdAt) 1000) link.view updated.view

def decideReview (linkId : ℕ) (dto : ReviewEntityLinkDto) (reviewerId : String) : Handler :=
  .ask (.findUnique linkId) fun
    | .error e => .done (.error e)
    | .ok none => .done (.error (.app 404 s!"Entity link {linkId} not found"))
    | .ok (some link) =>
      if link.reviewStatus ≠ .pending_review then
        .done (.error (.app 400 s!"Entity link {linkId} is not awaiting review (status: {link.reviewStatus.name})"))
      else .ask .clock fun (now : ℤ) => (updateData dto reviewerId now).bind fun data =>
        .ask (.update linkId data) fun
          | .error e => .done (.error e)
          | .ok updated => .ask (.adjustEntityLinkReviewQueueDepth link.entityType.name (-1)) fun _ =>
            recordAudit (reviewAudit linkId dto reviewerId now link updated) updated

end Service

inductive LinkOp
  | linkEntity (dto : CreateEntityLinkDto)
  | decideReview (linkId : ℕ) (dto : ReviewEntityLinkDto) (reviewerId : String)
  | keepRegistry (entityType : RegistryEntityType) (records : List RegistryRecord)
  | elapse (d : ℕ)
  | foresee (db : Except String Unit)

def LinkOp.body (config : Config) : LinkOp → Handler
  | .linkEntity dto => EntityLinking.linkEntity config dto
  | .decideReview linkId dto reviewerId => EntityLinking.decideReview linkId dto reviewerId
  | .keepRegistry entityType records => .ask (.keepRegistry entityType records) fun _ => .done (.ok .done)
  | .elapse d => .ask (.elapse d) fun _ => .done (.ok .done)
  | .foresee db => .ask (.foresee db) fun _ => .done (.ok .done)

abbrev LinkPool := Pool Store Query Query.Reply Failure Outcome LinkOp

abbrev LinkTransition := Transition LinkPool (Turn LinkOp)

def LinkStep (config : Config) : LinkPool → Turn LinkOp → LinkPool → Prop :=
  Pool.Step perform (LinkOp.body config)

end Soter.EntityLinking
