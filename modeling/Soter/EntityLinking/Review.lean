import Mathlib.Algebra.Order.Ring.Int
import Soter.Lib.Exclusive
import Soter.EntityLinking.Service

/-! When the review of an entity link is decided once. -/
namespace Soter.EntityLinking
open Soter.Tasks Soter.Runs List RegistryEntityType

def EntityLinkReviewAction.status : EntityLinkReviewAction → EntityLinkReviewStatus
  | .accept => .accepted
  | .reject => .rejected
  | .remap => .remapped

def EntityLinkReviewStatus.IsApplied : EntityLinkReviewStatus → Prop
  | .auto_accepted | .accepted | .remapped => True
  | .pending_review | .rejected => False

/-- What the audit record of a new link tells still holds of it, as far as no reviewer has mapped it elsewhere. -/
structure EntityLink.WasLinked (link : EntityLink) (sourceType : EntityLinkSourceType) (sourceId : String)
    (entityType : RegistryEntityType) (confidenceScore : ℚ) (matchMethod : Option String) : Prop where
  source : link.sourceType = sourceType ∧ link.sourceId = sourceId
  target : link.reviewStatus ≠ .remapped →
    link.entityType = entityType ∧ link.confidenceScore = confidenceScore ∧ link.matchMethod = matchMethod

structure EntityLink.WasDecided (link : EntityLink) (action : EntityLinkReviewAction) (reviewerId : String)
    (reviewNotes : Option String) (previous current : LinkView) : Prop where
  status : link.reviewStatus = action.status
  reviewer : link.reviewedBy = some reviewerId ∧ link.reviewNotes = reviewNotes
  current : current = link.view
  previous : action ≠ .remap → previous = link.view

def AuditRecord.Agrees (params : AuditRecord) (link : EntityLink) : Prop :=
  match params.metadata with
  | .link sourceType sourceId entityType confidenceScore matchMethod _ =>
    (params.action = if link.reviewStatus = .auto_accepted then "auto_accepted" else "queued_for_review") ∧
      link.WasLinked sourceType sourceId entityType confidenceScore matchMethod
  | .review decision reviewNotes _ previous current => ∃ action : EntityLinkReviewAction,
    decision = action.name ∧ params.action = "review_" ++ action.name ∧
      link.WasDecided action params.actorId reviewNotes previous current

def Store.pending (s : Store) (entityType : RegistryEntityType) : ℕ :=
  s.links.countP fun link => link.reviewStatus = .pending_review ∧ link.entityType = entityType

/-- At most one decision is applied to a link, and the audit records agree with the links; the links that are active
are the accepted ones, and each of them has at most the foreign key of its type; when no call is half done, the depth of
the queue is how many links await review. -/
structure ReviewedOnce (tr : List LinkTransition) : Prop where
  once : ∀ t ∈ tr, t.post.store.decided.Nodup
  audited : ∀ t ∈ tr, ∀ params ∈ t.post.store.audits,
    ∃ link, t.post.store.links[params.entityId]? = some link ∧ params.Agrees link
  active : ∀ t ∈ tr, ∀ link ∈ t.post.store.links, link.isActive = true ↔ link.reviewStatus.IsApplied
  registered : ∀ t ∈ tr, ∀ link ∈ t.post.store.links, ∀ entityType, entityType ≠ link.entityType →
    link.registry.get entityType = none
  counted : ∀ t ∈ tr, t.post.Quiet → ∀ entityType,
    t.post.store.depth (name entityType) = t.post.store.pending entityType

def Query.InTime (s : Store) : Query → Prop
  | .update id data => (s.update id data).isOk = true →
      ∀ link ∈ s.links[id]?, link.reviewStatus = .pending_review
  | _ => True

def InTime (t : LinkTransition) : Prop := ∀ q ∈ t.pre.asked t.label, q.InTime t.pre.store

instance (s : Store) (q : Query) : Decidable (q.InTime s) :=
  match q with
  | .update id data => inferInstanceAs (Decidable ((s.update id data).isOk = true →
      ∀ link ∈ s.links[id]?, link.reviewStatus = .pending_review))
  | .clock | .elapse _ | .foresee _ | .keepRegistry .. | .findUniqueRecord .. | .findFirstRecord .. | .create _
  | .findUnique _ | .adjustEntityLinkReviewQueueDepth .. | .record _ => .isTrue trivial

instance (t : LinkTransition) : Decidable (InTime t) :=
  inferInstanceAs (Decidable (∀ q ∈ t.pre.asked t.label, q.InTime t.pre.store))

section Stages

structure LinkData.Sound (data : LinkData) : Prop where
  active : data.reviewStatus = .pending_review ∧ data.isActive = false ∨
    data.reviewStatus = .auto_accepted ∧ data.isActive = true
  registered : ∀ entityType : RegistryEntityType, entityType.name ≠ data.entityType →
    data.registry.get entityType = none

/-- What an update sets that carries out the action: only a remap touches more than the review itself. -/
structure UpdateData.Carries (data : UpdateData) (action : EntityLinkReviewAction) : Prop where
  status : data.reviewStatus = action.status
  active : data.isActive = true ↔ action ≠ .reject
  keeps : action ≠ .remap →
    data.entityType = none ∧ data.registry = none ∧ data.matchMethod = none ∧ data.confidenceScore = none
  maps : action = .remap →
    ∃ name id, data.entityType = some name ∧ data.registry = some (({} : RegistryIds).set name id)

/-- The audit record of a decision whose update took the link to `updated`. -/
structure AuditRecord.Reviews (params : AuditRecord) (linkId : ℕ) (link : EntityLink) (data : UpdateData)
    (updated : EntityLink) (action : EntityLinkReviewAction) : Prop where
  entityId : params.entityId = linkId
  actorId : params.actorId = data.reviewedBy
  verdict : params.action = "review_" ++ action.name
  metadata : ∃ latency, params.metadata = .review action.name data.reviewNotes latency link.view updated.view

inductive Stage
  | fresh
  /-- The link was read, and it was pending. -/
  | deciding (linkId : ℕ) (link : EntityLink)
  /-- A link was created that awaits review, and the depth does not count it yet. -/
  | queued (data : LinkData) (link : EntityLink)
  | linked (data : LinkData) (link : EntityLink)
  /-- A decision was applied, and the depth still counts its link. -/
  | decided (linkId : ℕ) (link : EntityLink) (data : UpdateData) (updated : EntityLink)
  | reviewed (linkId : ℕ) (link : EntityLink) (data : UpdateData) (updated : EntityLink)
  | ended

variable (config : Config)

def Stage.allowed : Stage → Query → Prop
  | .fresh, .create data => data.Sound
  | .fresh, .update .. | .fresh, .adjustEntityLinkReviewQueueDepth .. | .fresh, .record _ => False
  | .fresh, _ => True
  | .deciding .., .clock | .deciding .., .findUniqueRecord .. => True
  | .deciding linkId _, .update id data => id = linkId ∧ ∃ action, data.Carries action
  | .queued data _, .adjustEntityLinkReviewQueueDepth entityType delta => entityType = data.entityType ∧ delta = 1
  | .linked data link, .record params => params = linkAudit config (data.reviewStatus = .pending_review) link
  | .decided _ link _ _, .adjustEntityLinkReviewQueueDepth entityType delta =>
    entityType = link.entityType.name ∧ delta = -1
  | .reviewed linkId link data updated, .record params =>
    ∃ action, data.Carries action ∧ params.Reviews linkId link data updated action
  | _, _ => False

def Stage.next : Stage → (q : Query) → q.Reply → Stage
  | .fresh, .findUnique linkId, .ok (some link) =>
    if link.reviewStatus = .pending_review then .deciding linkId link else .ended
  | .fresh, .create data, .ok link =>
    if data.reviewStatus = .pending_review then .queued data link else .linked data link
  | .fresh, .findUnique _, .ok none | .fresh, .findUnique _, .error _ | .fresh, .create _, .error _ => .ended
  | .fresh, _, _ => .fresh
  | .deciding linkId link, .update _ data, .ok updated => .decided linkId link data updated
  | .deciding .., .update .., .error _ => .ended
  | .deciding linkId link, _, _ => .deciding linkId link
  | .queued data link, _, _ => .linked data link
  | .decided linkId link data updated, _, _ => .reviewed linkId link data updated
  | _, _, _ => .ended

def Stage.IsSettled : Stage → Prop
  | .queued .. | .decided .. => False
  | _ => True

def protocol : Protocol Query Query.Reply Stage where
  allowed := Stage.allowed config
  next := Stage.next

abbrev Proceeds {α : Type} (σ : Stage) (t : Call α) : Prop :=
  t.Follows (protocol config) (fun σ _ => σ.IsSettled) σ

end Stages
variable {entityType : RegistryEntityType}
section Handlers
variable {config : Config}

variable {name : String}

theorem RegistryEntityType.ofName?_eq_some (h : ofName? name = some entityType) : entityType.name = name := by
  have hname := find?_some h
  exact of_decide_eq_true hname

theorem RegistryEntityType.ofName?_name (entityType : RegistryEntityType) : ofName? entityType.name = some entityType := by
  cases entityType with
  | organization | location | asset | project => rfl

theorem RegistryEntityType.name_injective {entityType' : RegistryEntityType}
    (h : entityType.name = entityType'.name) : entityType = entityType' := by
  have hname := ofName?_name entityType
  rw [h, ofName?_name] at hname
  exact (Option.some.inj hname).symm

theorem EntityLinkReviewAction.ofName?_eq_some {action : EntityLinkReviewAction}
    (h : EntityLinkReviewAction.ofName? name = some action) : action.name = name := by
  have hname := find?_some h
  exact of_decide_eq_true hname

theorem RegistryIds.get_set_of_ne {id : String}
    (h : entityType.name ≠ name) : (({} : RegistryIds).set name id).get entityType = none := by
  rw [RegistryIds.set]
  cases hname : ofName? name with
  | none =>
    cases entityType with
    | organization | location | asset | project => rfl
  | some named =>
    have hne : entityType ≠ named := by
      intro heq
      rw [heq] at h
      exact h (ofName?_eq_some hname)
    cases named with
    | organization | location | asset | project =>
      cases entityType with
      | organization | location | asset | project =>
        first
        | rfl
        | exact absurd rfl hne

theorem linkData_sound (dto : CreateEntityLinkDto) (registryRecordId : Option String) (matchMethod : String) (now : ℤ) :
    (linkData config dto registryRecordId matchMethod now).Sound where
  active := by
    rw [linkData]
    cases needsReview config dto.confidenceScore with
    | true => exact .inl ⟨rfl, rfl⟩
    | false => exact .inr ⟨rfl, rfl⟩
  registered entityType hne := by
    change ((registryRecordId.filter (· ≠ "")).elim {} ((({} : RegistryIds).set dto.entityType) ·)).get entityType = none
    cases registryRecordId.filter (· ≠ "") with
    | none =>
      cases entityType with
      | organization | location | asset | project => rfl
    | some id => exact RegistryIds.get_set_of_ne hne

theorem findRegistryRecordById_asks (entityType registryId : String) :
    (findRegistryRecordById entityType registryId).Asks fun q => ∃ entityType registryId,
      q = .findUniqueRecord entityType registryId := by
  rw [findRegistryRecordById]
  cases ofName? entityType with
  | none => trivial
  | some entityType =>
    refine ⟨⟨entityType, registryId, rfl⟩, fun reply => ?_⟩
    rcases reply with e | _ | record
    · trivial
    · trivial
    · trivial

theorem findRecord_asks (dto : CreateEntityLinkDto) :
    (findRecord config dto).Asks fun q => (∃ entityType registryId, q = .findUniqueRecord entityType registryId) ∨
      ∃ entityType name, q = .findFirstRecord entityType name := by
  rw [findRecord]
  cases dto.registryId.filter (· ≠ "") with
  | some registryId =>
    exact Task.Asks.bind (fun id => Task.asks_done _)
      (Task.Asks.mono (fun _ h => .inl h) (findRegistryRecordById_asks dto.entityType registryId))
  | none =>
    refine Task.Asks.bind (fun found => ?_) ?_
    · cases found with
      | none | some found => trivial
    · rw [findBestRegistryMatch]
      cases ofName? dto.entityType with
      | none => trivial
      | some entityType =>
        refine ⟨.inr ⟨entityType, dto.extractedName, rfl⟩, fun reply => ?_⟩
        rcases reply with e | _ | record
        · trivial
        · trivial
        · trivial

theorem recordAudit_follows {σ : Stage} {params : AuditRecord} {link : EntityLink}
    (hallowed : σ.allowed config (.record params)) (hnext : ∀ reply, σ.next (.record params) reply = .ended) :
    Proceeds config σ (recordAudit params link) := by
  refine ⟨hallowed, fun reply => ?_⟩
  change Task.Follows _ _ (σ.next (.record params) reply) _
  rw [hnext reply]
  rcases reply with e | _
  · trivial
  · trivial

theorem linkEntity_follows (dto : CreateEntityLinkDto) : Proceeds config .fresh (linkEntity config dto) := by
  rw [linkEntity]
  apply Task.follows_ite
  · exact fun _ => trivial
  intro _
  have hfind : (findRecord config dto).Follows (protocol config) (fun σ _ => σ = .fresh) .fresh := by
    refine Task.Asks.follows (fun q hq => ?_) (fun q reply hq => ?_) (findRecord_asks dto)
    · rcases hq with ⟨_, _, rfl⟩ | ⟨_, _, rfl⟩
      · trivial
      · trivial
    · rcases hq with ⟨_, _, rfl⟩ | ⟨_, _, rfl⟩
      · rfl
      · rfl
  refine Task.Follows.bind (fun σ found hσ => ?_) (fun σ e hσ => ?_) hfind
  · subst hσ
    refine ⟨trivial, fun now => ⟨linkData_sound dto found.1 found.2 now, fun created => ?_⟩⟩
    cases created with
    | error e => trivial
    | ok link =>
      change Proceeds config (if (linkData config dto found.1 found.2 now).reviewStatus = .pending_review
        then .queued _ link else .linked _ link) _
      have hstatus : (linkData config dto found.1 found.2 now).reviewStatus =
          if needsReview config dto.confidenceScore then .pending_review else .auto_accepted := rfl
      -- the link is queued exactly if it needs review
      cases hneeds : needsReview config dto.confidenceScore with
      | true =>
        rw [hneeds, if_pos rfl] at hstatus
        rw [if_pos hstatus]
        refine ⟨⟨rfl, rfl⟩, fun _ => recordAudit_follows ?_ fun _ => rfl⟩
        change linkAudit config true link = linkAudit config (decide _) link
        rw [decide_eq_true hstatus]
      | false =>
        rw [hneeds, if_neg Bool.false_ne_true] at hstatus
        have hne : (linkData config dto found.1 found.2 now).reviewStatus ≠ .pending_review := by
          rw [hstatus]
          exact fun h => by cases h
        rw [if_neg hne]
        refine recordAudit_follows ?_ fun _ => rfl
        change linkAudit config false link = linkAudit config (decide _) link
        rw [decide_eq_false hne]
  · rw [hσ]
    trivial

structure UpdateData.Answers (data : UpdateData) (dto : ReviewEntityLinkDto) (reviewerId : String)
    (action : EntityLinkReviewAction) : Prop where
  named : action.name = dto.action
  carries : data.Carries action
  reviewedBy : data.reviewedBy = reviewerId
  reviewNotes : data.reviewNotes = dto.reviewNotes

/-- What `updateData` comes to: the call stands where it stood, and the columns are those of the action. -/
def Prepared (dto : ReviewEntityLinkDto) (reviewerId : String) (here σ : Stage) : Except Failure UpdateData → Prop
  | .ok data => σ = here ∧ ∃ action, data.Answers dto reviewerId action
  | .error _ => σ = here

theorem updateData_follows (dto : ReviewEntityLinkDto) (reviewerId : String) (now : ℤ) (linkId : ℕ) (link : EntityLink) :
    (updateData dto reviewerId now).Follows (protocol config) (Prepared dto reviewerId (.deciding linkId link))
      (.deciding linkId link) := by
  rw [updateData]
  cases haction : EntityLinkReviewAction.ofName? dto.action with
  | none => exact rfl
  | some action =>
    have hname := EntityLinkReviewAction.ofName?_eq_some haction
    cases action with
    | accept =>
      refine ⟨rfl, .accept, hname, ⟨rfl, ?_, fun _ => ⟨rfl, rfl, rfl, rfl⟩, fun h => by cases h⟩, rfl, rfl⟩
      exact ⟨fun _ h => (by cases h), fun _ => rfl⟩
    | reject =>
      refine ⟨rfl, .reject, hname, ⟨rfl, ?_, fun _ => ⟨rfl, rfl, rfl, rfl⟩, fun h => by cases h⟩, rfl, rfl⟩
      exact ⟨fun h => (by cases h), fun h => absurd rfl h⟩
    | remap =>
      cases dto.remapEntityType.filter (· ≠ "") with
      | none => exact rfl
      | some remapEntityType =>
        cases dto.remapRegistryId.filter (· ≠ "") with
        | none => exact rfl
        | some remapRegistryId =>
          have hfind : (findRegistryRecordById remapEntityType remapRegistryId).Follows (protocol config)
              (fun σ _ => σ = .deciding linkId link) (.deciding linkId link) := by
            refine Task.Asks.follows (fun q hq => ?_) (fun q reply hq => ?_) (findRegistryRecordById_asks _ _)
            · obtain ⟨_, _, rfl⟩ := hq
              trivial
            · obtain ⟨_, _, rfl⟩ := hq
              rfl
          refine Task.Follows.bind (fun σ id hσ => ?_) (fun σ e hσ => ?_) hfind
          · refine ⟨hσ, .remap, hname, ⟨rfl, ?_, fun h => absurd rfl h, fun _ => ⟨_, id, rfl, rfl⟩⟩, rfl, rfl⟩
            exact ⟨fun _ h => (by cases h), fun _ => rfl⟩
          · exact hσ

theorem decideReview_follows (linkId : ℕ) (dto : ReviewEntityLinkDto) (reviewerId : String) :
    Proceeds config .fresh (decideReview linkId dto reviewerId) := by
  refine ⟨trivial, fun found => ?_⟩
  rcases found with e | _ | link
  · trivial
  · trivial
  · change Proceeds config (if link.reviewStatus = .pending_review then .deciding linkId link else .ended) _
    by_cases hpending : link.reviewStatus = .pending_review
    · rw [if_pos hpending]
      have hnot : ¬ link.reviewStatus ≠ .pending_review := fun h => h hpending
      simp only [if_neg hnot]
      refine ⟨trivial, fun (now : ℤ) => ?_⟩
      refine Task.Follows.bind (fun σ data hdata => ?_) (fun σ e hσ => ?_)
        (updateData_follows dto reviewerId now linkId link)
      · obtain ⟨rfl, action, hanswers⟩ := hdata
        refine ⟨⟨rfl, action, hanswers.carries⟩, fun updated => ?_⟩
        rcases updated with e | updated
        · trivial
        · refine ⟨⟨rfl, rfl⟩, fun _ => recordAudit_follows ⟨action, hanswers.carries, ?_⟩ fun _ => rfl⟩
          refine ⟨rfl, hanswers.reviewedBy.symm, ?_, mkRat (now - link.queuedAt.getD link.createdAt) 1000, ?_⟩
          · change "review_" ++ dto.action = "review_" ++ action.name
            rw [hanswers.named]
          · change AuditMetadata.review dto.action dto.reviewNotes _ _ _ = _
            rw [← hanswers.named, ← hanswers.reviewNotes]
      · rw [show σ = .deciding linkId link from hσ]
        trivial
    · rw [if_neg hpending]
      simp only [if_pos hpending]
      trivial

theorem body_follows (op : LinkOp) : Proceeds config .fresh (op.body config) := by
  cases op with
  | linkEntity dto => exact linkEntity_follows dto
  | decideReview linkId dto reviewerId => exact decideReview_follows linkId dto reviewerId
  | keepRegistry entityType records | elapse d | foresee db => exact ⟨trivial, fun _ => trivial⟩

end Handlers
variable {s' s : Store} {link : EntityLink} {params : AuditRecord}
section Links
variable {data : UpdateData} {action : EntityLinkReviewAction}

structure EntityLink.Sound (link : EntityLink) : Prop where
  active : link.isActive = true ↔ link.reviewStatus.IsApplied
  registered : ∀ entityType, entityType ≠ link.entityType → link.registry.get entityType = none
  unreviewed : link.reviewStatus = .pending_review → link.reviewNotes = none

def Store.Attests (s : Store) (params : AuditRecord) : Prop :=
  ∃ link, s.links[params.entityId]? = some link ∧ params.Agrees link

theorem EntityLinkReviewAction.status_ne (action : EntityLinkReviewAction) :
    action.status ≠ .pending_review ∧ action.status ≠ .auto_accepted := by
  cases action with
  | accept | reject | remap => exact ⟨fun h => (by cases h), fun h => (by cases h)⟩

theorem EntityLinkReviewAction.status_isApplied (action : EntityLinkReviewAction) :
    action.status.IsApplied ↔ action ≠ .reject := by
  cases action with
  | accept => exact ⟨fun _ h => (by cases h), fun _ => trivial⟩
  | reject => exact ⟨fun h => h.elim, fun h => absurd rfl h⟩
  | remap => exact ⟨fun _ h => (by cases h), fun _ => trivial⟩

theorem apply_view (hcarries : data.Carries action) (hremap : action ≠ .remap)
    (htype : data.newType link = some entityType) : (link.apply data entityType).view = link.view := by
  obtain ⟨hnone, hregistry, hmatch, hscore⟩ := hcarries.keeps hremap
  have hsame : link.entityType = entityType := by
    rw [UpdateData.newType, hnone] at htype
    exact Option.some.inj htype
  simp only [EntityLink.view, EntityLink.apply, hregistry, hmatch, hscore, hsame, Option.getD_none, Option.orElse_eq_orElse,
    Option.orElse_none]

theorem apply_sound (h : link.Sound) (hcarries : data.Carries action) (htype : data.newType link = some entityType) :
    (link.apply data entityType).Sound where
  active := by
    change data.isActive = true ↔ data.reviewStatus.IsApplied
    rw [hcarries.active, hcarries.status, EntityLinkReviewAction.status_isApplied]
  registered other hne := by
    by_cases hremap : action = .remap
    · -- a remap sets the one key of the type that it names
      obtain ⟨name, id, hname, hregistry⟩ := hcarries.maps hremap
      change (data.registry.getD link.registry).get other = none
      rw [hregistry, Option.getD_some]
      apply RegistryIds.get_set_of_ne
      intro heq
      rw [UpdateData.newType, hname] at htype
      have hentity := ofName?_eq_some htype
      exact hne (name_injective (heq.trans hentity.symm))
    · have hview := apply_view hcarries hremap htype
      have hregistry : (link.apply data entityType).registry = link.registry := congrArg LinkView.registry hview
      have hentity : (link.apply data entityType).entityType = link.entityType := congrArg LinkView.entityType hview
      rw [hregistry]
      rw [hentity] at hne
      exact h.registered other hne
  unreviewed hpending := by
    change data.reviewStatus = .pending_review at hpending
    rw [hcarries.status] at hpending
    exact absurd hpending action.status_ne.1

theorem apply_agrees (h : params.Agrees link) (hpending : link.reviewStatus = .pending_review)
    (hcarries : data.Carries action) (htype : data.newType link = some entityType) :
    params.Agrees (link.apply data entityType) := by
  have hstatus : (link.apply data entityType).reviewStatus = action.status := hcarries.status
  rw [AuditRecord.Agrees] at h ⊢
  split at h
  · obtain ⟨haction, hlinked⟩ := h
    have hauto : link.reviewStatus ≠ .auto_accepted := by
      rw [hpending]
      exact fun h => by cases h
    rw [if_neg hauto] at haction
    refine ⟨?_, ⟨hlinked.source, fun hne => ?_⟩⟩
    · rw [hstatus, if_neg action.status_ne.2]
      exact haction
    · have hremap : action ≠ .remap := by
        intro heq
        rw [hstatus, heq] at hne
        exact hne rfl
      have hview := apply_view hcarries hremap htype
      have htold : link.reviewStatus ≠ .remapped := by
        rw [hpending]
        exact fun h => by cases h
      obtain ⟨htarget, hscore, hmatch⟩ := hlinked.target htold
      exact ⟨(congrArg LinkView.entityType hview).trans htarget,
        (congrArg LinkView.confidenceScore hview).trans hscore, (congrArg LinkView.matchMethod hview).trans hmatch⟩
  · -- no decision has been told of a pending link
    obtain ⟨told, -, -, hdecided⟩ := h
    have hsame := hdecided.status
    rw [hpending] at hsame
    exact absurd hsame.symm told.status_ne.1

theorem reviews_agrees {linkId : ℕ} (hsound : link.Sound)
    (hpending : link.reviewStatus = .pending_review) (hcarries : data.Carries action)
    (htype : data.newType link = some entityType)
    (h : params.Reviews linkId link data (link.apply data entityType) action) :
    params.Agrees (link.apply data entityType) := by
  obtain ⟨latency, hmetadata⟩ := h.metadata
  rw [AuditRecord.Agrees, hmetadata]
  refine ⟨action, rfl, h.verdict, ⟨hcarries.status, ⟨?_, ?_⟩, rfl, fun hremap => ?_⟩⟩
  · rw [h.actorId]
    rfl
  · change (data.reviewNotes <|> link.reviewNotes) = data.reviewNotes
    rw [hsound.unreviewed hpending]
    cases data.reviewNotes with
    | none | some notes => rfl
  · exact (apply_view hcarries hremap htype).symm

structure LinkData.Makes (data : LinkData) (link : EntityLink) : Prop where
  entityType : ofName? data.entityType = some link.entityType
  registry : link.registry = data.registry
  reviewStatus : link.reviewStatus = data.reviewStatus
  isActive : link.isActive = data.isActive
  reviewNotes : link.reviewNotes = none

theorem create_ok {data : LinkData} (h : s.create data = .ok (link, s')) :
    data.Makes link ∧ link.id = s.links.length ∧ s' = { s with links := s.links ++ [link] } := by
  rw [Store.create] at h
  split at h
  · cases h
  · rename_i htype
    cases h
    exact ⟨⟨htype, rfl, rfl, rfl, rfl⟩, rfl, rfl⟩
  · cases h

theorem makes_sound {data : LinkData} (h : data.Makes link) (hdata : data.Sound) : link.Sound where
  active := by
    rw [h.isActive, h.reviewStatus]
    rcases hdata.active with ⟨hstatus, hactive⟩ | ⟨hstatus, hactive⟩
    · rw [hstatus, hactive]
      exact ⟨fun h => (by cases h), fun h => h.elim⟩
    · rw [hstatus, hactive]
      exact ⟨fun _ => trivial, fun _ => rfl⟩
  registered other hne := by
    rw [h.registry]
    apply hdata.registered
    intro hname
    have hentity := ofName?_eq_some h.entityType
    exact hne (name_injective (hname.trans hentity.symm))
  unreviewed _ := h.reviewNotes

theorem linkAudit_agrees (config : Config) {data : LinkData} (h : data.Makes link) (hdata : data.Sound) :
    (linkAudit config (data.reviewStatus = .pending_review) link).Agrees link := by
  rw [AuditRecord.Agrees]
  refine ⟨?_, ⟨⟨rfl, rfl⟩, fun _ => ⟨rfl, rfl, rfl⟩⟩⟩
  change (if decide (data.reviewStatus = .pending_review) = true then _ else _) = _
  rw [h.reviewStatus]
  rcases hdata.active with ⟨hstatus, -⟩ | ⟨hstatus, -⟩
  · rw [hstatus]
    rfl
  · rw [hstatus]
    rfl

theorem update_ok {id : ℕ} {updated : EntityLink} (h : s.update id data = .ok (updated, s')) :
    ∃ link entityType, s.links[id]? = some link ∧ data.newType link = some entityType ∧
      updated = link.apply data entityType ∧
      s' = { s with links := s.links.set id updated, decided := id :: s.decided } := by
  rw [Store.update] at h
  split at h
  · cases h
  · cases h
  · rename_i link _ hlink
    split at h
    · cases h
    · rename_i entityType htype
      cases h
      exact ⟨link, entityType, hlink, htype, rfl, rfl⟩

theorem record_ok {a : Unit} (h : s.record params = .ok (a, s')) :
    s' = { s with audits := s.audits ++ [params] } := by
  rw [Store.record, Store.ask] at h
  split at h
  · cases h
  · cases h
    rfl

end Links
variable {σ : Stage}
section Stands
variable {config : Config} {stages : List Stage} {σ' : Stage} {i : ℕ} {q : Query}

/-- The links stay, with the audit records that are right about them; one that is still pending is as it was. -/
def Store.Advances (s s' : Store) : Prop :=
  ∀ (id : ℕ) link, s.links[id]? = some link → ∃ link', s'.links[id]? = some link' ∧
    (∀ params : AuditRecord, params.Agrees link → params.Agrees link') ∧
    (link'.reviewStatus = .pending_review → link' = link)

theorem advances_of_links (h : s'.links = s.links) : s.Advances s' := by
  intro id link hlink
  refine ⟨link, ?_, fun _ h => h, fun _ => rfl⟩
  rw [h]
  exact hlink

theorem Store.Advances.attests (h : s.Advances s') (hparams : s.Attests params) : s'.Attests params := by
  obtain ⟨link, hlink, hagrees⟩ := hparams
  obtain ⟨link', hlink', hkept, -⟩ := h _ link hlink
  exact ⟨link', hlink', hkept params hagrees⟩

def Stage.Knows (config : Config) (s : Store) : Stage → Prop
  | .deciding linkId link =>
    ∃ current, s.links[linkId]? = some current ∧ (current.reviewStatus = .pending_review → current = link)
  | .queued data link | .linked data link =>
    s.Attests (linkAudit config (data.reviewStatus = .pending_review) link)
  | .decided linkId link data updated | .reviewed linkId link data updated => ∀ params action,
    data.Carries action → AuditRecord.Reviews params linkId link data updated action → s.Attests params
  | .fresh | .ended => True

theorem Store.Advances.knows (h : s.Advances s') (hknows : σ.Knows config s) : σ.Knows config s' := by
  cases σ with
  | deciding linkId link =>
    obtain ⟨current, hcurrent, hpending⟩ := hknows
    obtain ⟨current', hcurrent', -, hsame⟩ := h _ current hcurrent
    refine ⟨current', hcurrent', fun hstatus => ?_⟩
    have heq := hsame hstatus
    rw [heq] at hstatus ⊢
    exact hpending hstatus
  | queued data link | linked data link => exact h.attests hknows
  | decided linkId link data updated | reviewed linkId link data updated =>
    exact fun params action hcarries hreviews => h.attests (hknows params action hcarries hreviews)
  | fresh | ended => trivial

def Stage.owed (entityType : RegistryEntityType) : Stage → ℤ
  | .queued data _ => if data.entityType = entityType.name then 1 else 0
  | .decided _ link _ _ => if link.entityType = entityType then -1 else 0
  | _ => 0

theorem Stage.IsSettled.owed (h : σ.IsSettled) (entityType : RegistryEntityType) : σ.owed entityType = 0 := by
  cases σ with
  | queued | decided => exact h.elim
  | fresh | deciding | linked | reviewed | ended => rfl

/-- What the stages of the calls tell about the links, their audit records and the depth of the queue. -/
structure Good (config : Config) (stages : List Stage) (s : Store) : Prop where
  sound : ∀ link ∈ s.links, link.Sound
  once : s.decided.Nodup
  final : ∀ id ∈ s.decided, ∃ link, s.links[id]? = some link ∧ link.reviewStatus ≠ .pending_review
  audits : ∀ params ∈ s.audits, s.Attests params
  knows : ∀ σ ∈ stages, σ.Knows config s
  depth : ∀ entityType, s.depth entityType.name + (stages.map (Stage.owed entityType)).sum = s.pending entityType

theorem good_start (h : Good config stages s) : Good config (stages ++ [.fresh]) s where
  sound := h.sound
  once := h.once
  final := h.final
  audits := h.audits
  knows σ hσ := by
    rcases mem_append.mp hσ with hσ | hσ
    · exact h.knows σ hσ
    · rw [mem_singleton.mp hσ]
      trivial
  depth entityType := by
    have hnew : ([Stage.fresh].map (Stage.owed entityType)).sum = 0 := rfl
    rw [map_append, sum_append, hnew, add_zero]
    exact h.depth entityType

/-- One call goes on: what the request does to the store, and what the call knows and owes then. -/
theorem good_goes (h : Good config stages s) (hi : stages[i]? = some σ) (hadvances : s.Advances s')
    (hsound : ∀ link ∈ s'.links, link.Sound) (honce : s'.decided.Nodup)
    (hfinal : ∀ id ∈ s'.decided, id ∈ s.decided ∨ ∃ link, s'.links[id]? = some link ∧ link.reviewStatus ≠ .pending_review)
    (haudits : ∀ params ∈ s'.audits, params ∈ s.audits ∨ s'.Attests params) (hknows : σ'.Knows config s')
    (hdepth : ∀ entityType, s'.depth entityType.name + σ'.owed entityType - s'.pending entityType =
      s.depth entityType.name + σ.owed entityType - s.pending entityType) :
    Good config (stages.set i σ') s' where
  sound := hsound
  once := honce
  final id hid := by
    rcases hfinal id hid with hid | hid
    · obtain ⟨link, hlink, hstatus⟩ := h.final id hid
      obtain ⟨link', hlink', -, hsame⟩ := hadvances id link hlink
      refine ⟨link', hlink', fun hpending => hstatus ?_⟩
      rw [← hsame hpending]
      exact hpending
    · exact hid
  audits params hparams := by
    rcases haudits params hparams with hparams | hparams
    · exact hadvances.attests (h.audits params hparams)
    · exact hparams
  knows := forall_mem_set hknows fun j τ _ hj => hadvances.knows (h.knows τ (mem_of_getElem? hj))
  depth entityType := by
    have hbefore := h.depth entityType
    have hafter := hdepth entityType
    rw [sum_map_set _ hi]
    omega

theorem good_calm (h : Good config stages s) (hi : stages[i]? = some σ) (hσ : σ.IsSettled) (hσ' : σ'.IsSettled)
    (hknows : σ'.Knows config s') (hlinks : s'.links = s.links) (hdecided : s'.decided = s.decided)
    (hdepth : s'.depth = s.depth) (haudits : ∀ params ∈ s'.audits, params ∈ s.audits ∨ s'.Attests params) :
    Good config (stages.set i σ') s' := by
  refine good_goes h hi (advances_of_links hlinks) ?_ ?_ ?_ haudits hknows fun entityType => ?_
  · rw [hlinks]
    exact h.sound
  · rw [hdecided]
    exact h.once
  · rw [hdecided]
    exact fun id hid => .inl hid
  · have hpending : s'.pending entityType = s.pending entityType := by
      rw [Store.pending, Store.pending, hlinks]
    rw [hdepth, hpending, hσ.owed, hσ'.owed]

theorem good_create (h : Good config stages s) (hi : stages[i]? = some σ) (hσ : σ.IsSettled) {data : LinkData} (hdata : data.Sound) (hmakes : data.Makes link) (hid : link.id = s.links.length) :
    Good config (stages.set i (if data.reviewStatus = .pending_review then .queued data link else .linked data link))
      { s with links := s.links ++ [link] } := by
  have hadvances : s.Advances { s with links := s.links ++ [link] } := by
    intro id old hold
    refine ⟨old, ?_, fun _ h => h, fun _ => rfl⟩
    rw [List.getElem?_append_left (List.getElem?_eq_some_iff.mp hold).1]
    exact hold
  have hattests : Store.Attests { s with links := s.links ++ [link] }
      (linkAudit config (data.reviewStatus = .pending_review) link) := by
    refine ⟨link, ?_, linkAudit_agrees config hmakes hdata⟩
    change (s.links ++ [link])[link.id]? = some link
    rw [hid, getElem?_append_right (Nat.le_refl _), Nat.sub_self]
    rfl
  refine good_goes h hi hadvances ?_ h.once (fun id hid => .inl hid) (fun params hparams => .inl hparams) ?_
    fun entityType => ?_
  · intro l hl
    rcases mem_append.mp hl with hl | hl
    · exact h.sound l hl
    · rw [mem_singleton.mp hl]
      exact makes_sound hmakes hdata
  · split
    · exact hattests
    · exact hattests
  · have hname : data.entityType = entityType.name ↔ link.entityType = entityType := by
      have hentity := hmakes.entityType
      constructor
      · intro heq
        rw [heq] at hentity
        exact name_injective (ofName?_eq_some hentity)
      · intro heq
        rw [← heq, ofName?_eq_some hentity]
    have hpending : Store.pending { s with links := s.links ++ [link] } entityType = s.pending entityType +
        if link.reviewStatus = .pending_review ∧ link.entityType = entityType then 1 else 0 := by
      rw [Store.pending, countP_append, countP_singleton]
      simp only [decide_eq_true_eq]
      rfl
    rw [hpending, hmakes.reviewStatus, hσ.owed]
    -- the queue grows by the link exactly if its depth is still to be raised for it
    by_cases hstatus : data.reviewStatus = .pending_review
    · rw [if_pos hstatus]
      by_cases htype : link.entityType = entityType
      · rw [if_pos ⟨hstatus, htype⟩, Stage.owed, if_pos (hname.mpr htype)]
        push_cast
        omega
      · rw [if_neg fun h => htype h.2, Stage.owed, if_neg fun h => htype (hname.mp h)]
        push_cast
        omega
    · rw [if_neg hstatus, if_neg fun h => hstatus h.1]
      rfl

theorem good_update (h : Good config stages s) {linkId : ℕ} {current : EntityLink} {data : UpdateData}
    {action : EntityLinkReviewAction} {entityType : RegistryEntityType}
    (hi : stages[i]? = some (.deciding linkId link)) (hcurrent : s.links[linkId]? = some current)
    (hpending : current.reviewStatus = .pending_review) (hcarries : data.Carries action)
    (htype : data.newType current = some entityType) :
    Good config (stages.set i (.decided linkId link data (current.apply data entityType)))
      { s with links := s.links.set linkId (current.apply data entityType), decided := linkId :: s.decided } := by
  have hlt : linkId < s.links.length := (List.getElem?_eq_some_iff.mp hcurrent).1
  have hknows := h.knows _ (List.mem_of_getElem? hi)
  -- what was read is what is there
  have hsame : current = link := by
    obtain ⟨found, hfound, hunchanged⟩ := hknows
    rw [hcurrent] at hfound
    cases hfound
    exact hunchanged hpending
  have hsound : current.Sound := h.sound current (mem_of_getElem? hcurrent)
  have hstatus : (current.apply data entityType).reviewStatus ≠ .pending_review := by
    change data.reviewStatus ≠ .pending_review
    rw [hcarries.status]
    exact action.status_ne.1
  have hnew : (s.links.set linkId (current.apply data entityType))[linkId]? = some (current.apply data entityType) :=
    getElem?_set_self hlt
  refine good_goes h hi ?_ ?_ ?_ ?_ (fun params hparams => .inl hparams) ?_ fun other => ?_
  · intro id old hold
    by_cases hid : linkId = id
    · subst hid
      rw [hcurrent] at hold
      cases hold
      exact ⟨_, hnew, fun params hparams => apply_agrees hparams hpending hcarries htype, fun h => absurd h hstatus⟩
    · refine ⟨old, ?_, fun _ h => h, fun _ => rfl⟩
      rw [← hold]
      exact getElem?_set_ne hid
  · intro l hl
    rcases mem_or_eq_of_mem_set hl with hl | rfl
    · exact h.sound l hl
    · exact apply_sound hsound hcarries htype
  · refine nodup_cons.mpr ⟨fun hmem => ?_, h.once⟩
    obtain ⟨found, hfound, hdone⟩ := h.final linkId hmem
    rw [hcurrent] at hfound
    cases hfound
    exact hdone hpending
  · intro id hid
    rcases mem_cons.mp hid with rfl | hid
    · exact .inr ⟨_, hnew, hstatus⟩
    · exact .inl hid
  · intro params action' hcarries' hreviews
    refine ⟨current.apply data entityType, ?_, ?_⟩
    · rw [hreviews.entityId]
      exact hnew
    · rw [← hsame] at hreviews
      exact reviews_agrees hsound hpending hcarries' htype hreviews
  · have hcount : Store.pending
        { s with
          links := s.links.set linkId (current.apply data entityType)
          decided := linkId :: s.decided } other + (if current.entityType = other then 1 else 0) =
        s.pending other := by
      have hpos := boole_getElem_le_countP (p := fun l : EntityLink =>
        decide (l.reviewStatus = .pending_review ∧ l.entityType = other)) hlt
      have helem : s.links[linkId] = current := (List.getElem?_eq_some_iff.mp hcurrent).2
      rw [helem] at hpos
      rw [Store.pending, Store.pending, countP_set hlt, helem]
      simp only [decide_eq_true_eq, hstatus, hpending, false_and, true_and, if_false] at hpos ⊢
      omega
    have hread : Stage.owed other (.deciding linkId link) = 0 := rfl
    rw [← hcount, hread, Stage.owed, ← hsame]
    by_cases htype : current.entityType = other
    · rw [if_pos htype, if_pos htype]
      push_cast
      omega
    · rw [if_neg htype, if_neg htype]
      push_cast
      omega

theorem good_adjust (h : Good config stages s) (hi : stages[i]? = some σ) {entityType : String} {delta : ℤ}
    (hσ' : σ'.IsSettled) (hknows : σ.Knows config s → σ'.Knows config s)
    (howed : ∀ other : RegistryEntityType, σ.owed other = if entityType = other.name then delta else 0) :
    Good config (stages.set i σ') (s.adjust entityType delta) := by
  have hadvances : s.Advances (s.adjust entityType delta) := advances_of_links rfl
  refine good_goes h hi hadvances h.sound h.once (fun id hid => .inl hid) (fun params hparams => .inl hparams)
    (hadvances.knows (hknows (h.knows σ (mem_of_getElem? hi)))) fun other => ?_
  have hpending : (s.adjust entityType delta).pending other = s.pending other := rfl
  rw [hpending, hσ'.owed, howed]
  change Function.update s.depth entityType _ other.name + 0 - _ = _
  by_cases hname : entityType = other.name
  · rw [← hname, Function.update_self, if_pos rfl]
    omega
  · rw [Function.update_of_ne (Ne.symm hname), if_neg hname]

theorem good_find (h : Good config stages s) (hi : stages[i]? = some .fresh) (linkId : ℕ) :
    Good config (stages.set i (Stage.fresh.next (.findUnique linkId) (s.ask s.links[linkId]?))) s := by
  have hcalm : ∀ σ' : Stage, σ'.IsSettled → σ'.Knows config s → Good config (stages.set i σ') s := by
    intro σ' hσ' hknows
    exact good_calm h hi trivial hσ' hknows rfl rfl rfl fun _ hparams => .inl hparams
  cases hdb : s.db with
  | error e =>
    rw [Store.ask, hdb]
    exact hcalm .ended trivial trivial
  | ok _ =>
    rw [Store.ask, hdb]
    cases hlink : s.links[linkId]? with
    | none => exact hcalm .ended trivial trivial
    | some link =>
      change Good config (stages.set i (if link.reviewStatus = .pending_review then .deciding linkId link else .ended)) s
      split
      · exact hcalm (.deciding linkId link) trivial ⟨link, hlink, fun _ => rfl⟩
      · exact hcalm .ended trivial trivial

theorem good_record (h : Good config stages s) (hi : stages[i]? = some σ) (hσ : σ.IsSettled)
    (hattests : s.Attests params) : Good config (stages.set i .ended) (perform (.record params) s).2 := by
  rcases commit_cases (s.record params) s with ⟨e, -, hserved⟩ | ⟨_, s', htx, hserved⟩
  · rw [perform, hserved]
    exact good_calm h hi hσ trivial trivial rfl rfl rfl fun _ hparams => .inl hparams
  · have hs' := record_ok htx
    subst hs'
    rw [perform, hserved]
    refine good_calm h hi hσ trivial trivial rfl rfl rfl fun other hother => ?_
    rcases mem_append.mp hother with hother | hother
    · exact .inl hother
    · rw [mem_singleton.mp hother]
      exact .inr hattests

theorem good_serve (h : Good config stages s) (hi : stages[i]? = some σ) (hallowed : σ.allowed config q)
    (hintime : q.InTime s) : Good config (stages.set i (σ.next q (perform q s).1)) (perform q s).2 := by
  have hσ := h.knows σ (mem_of_getElem? hi)
  cases σ with
  | fresh =>
    cases q with
    | create data =>
      rcases commit_cases (s.create data) s with ⟨e, -, hserved⟩ | ⟨link, s', htx, hserved⟩
      · rw [perform, hserved]
        exact good_calm h hi trivial trivial trivial rfl rfl rfl fun _ hparams => .inl hparams
      · obtain ⟨hmakes, hid, rfl⟩ := create_ok htx
        rw [perform, hserved]
        exact good_create h hi trivial hallowed hmakes hid
    | findUnique linkId => exact good_find h hi linkId
    | update | adjustEntityLinkReviewQueueDepth | record => exact hallowed.elim
    | clock | elapse d | foresee db | keepRegistry entityType records | findUniqueRecord entityType registryId
    | findFirstRecord entityType name =>
      exact good_calm h hi trivial trivial trivial rfl rfl rfl fun _ hparams => .inl hparams
  | deciding linkId link =>
    cases q with
    | clock | findUniqueRecord entityType registryId =>
      exact good_calm h hi trivial trivial hσ rfl rfl rfl fun _ hparams => .inl hparams
    | update id data =>
      obtain ⟨rfl, action, hcarries⟩ := hallowed
      rcases commit_cases (s.update id data) s with ⟨e, -, hserved⟩ | ⟨updated, s', htx, hserved⟩
      · rw [perform, hserved]
        exact good_calm h hi trivial trivial trivial rfl rfl rfl fun _ hparams => .inl hparams
      · obtain ⟨current, entityType, hcurrent, htype, rfl, rfl⟩ := update_ok htx
        rw [perform, hserved]
        have hok : (s.update id data).isOk = true := by
          rw [htx]
          rfl
        exact good_update h hi hcurrent (hintime hok current hcurrent) hcarries htype
    | elapse | foresee | keepRegistry | findFirstRecord | create | findUnique | adjustEntityLinkReviewQueueDepth
    | record => exact hallowed.elim
  | queued data link =>
    cases q with
    | adjustEntityLinkReviewQueueDepth entityType delta =>
      obtain ⟨rfl, rfl⟩ := hallowed
      exact good_adjust h hi trivial id fun other => rfl
    | clock | elapse | foresee | keepRegistry | findUniqueRecord | findFirstRecord | create | findUnique | update
    | record => exact hallowed.elim
  | linked data link =>
    cases q with
    | record params =>
      have hparams : params = linkAudit config (data.reviewStatus = .pending_review) link := hallowed
      subst hparams
      exact good_record h hi trivial hσ
    | clock | elapse | foresee | keepRegistry | findUniqueRecord | findFirstRecord | create | findUnique | update
    | adjustEntityLinkReviewQueueDepth => exact hallowed.elim
  | decided linkId link data updated =>
    cases q with
    | adjustEntityLinkReviewQueueDepth entityType delta =>
      obtain ⟨rfl, rfl⟩ := hallowed
      refine good_adjust h hi trivial id fun other => ?_
      change (if link.entityType = other then (-1 : ℤ) else 0) = _
      by_cases htype : link.entityType = other
      · rw [if_pos htype, htype, if_pos rfl]
      · rw [if_neg htype, if_neg fun hname => htype (name_injective hname)]
    | clock | elapse | foresee | keepRegistry | findUniqueRecord | findFirstRecord | create | findUnique | update
    | record => exact hallowed.elim
  | reviewed linkId link data updated =>
    cases q with
    | record params =>
      obtain ⟨action, hcarries, hreviews⟩ := hallowed
      exact good_record h hi trivial (hσ params action hcarries hreviews)
    | clock | elapse | foresee | keepRegistry | findUniqueRecord | findFirstRecord | create | findUnique | update
    | adjustEntityLinkReviewQueueDepth => exact hallowed.elim
  | ended => exact hallowed.elim

end Stands
section Runs
variable {config : Config} {p : LinkPool} {tr : List LinkTransition} {t : LinkTransition}

def Orderly (config : Config) (p : LinkPool) : Prop :=
  ∃ stages, p.At (protocol config) (fun σ _ => σ.IsSettled) stages ∧ Good config stages p.store

theorem good_initial (config : Config) : Good config [] {} where
  sound := fun _ h => absurd h not_mem_nil
  once := nodup_nil
  final := fun _ h => absurd h not_mem_nil
  audits := fun _ h => absurd h not_mem_nil
  knows := fun _ h => absurd h not_mem_nil
  depth := fun _ => rfl

theorem orderly_of_run (hrun : Run (LinkStep config) { store := {} } tr p) (hintime : ∀ t ∈ tr, InTime t) (ht : t ∈ tr) :
    Orderly config t.post := by
  have hidle : Orderly config ({ store := {} } : LinkPool) := ⟨[], List.Forall₂.nil, good_initial config⟩
  refine (hrun.invariant_at (I := Orderly config) (C := InTime) hidle hintime (fun t hstep hC hpre => ?_) ht).2
  obtain ⟨stages, hat, hgood⟩ := hpre
  rcases hat.step body_follows hstep with ⟨-, hstore, hat'⟩ | ⟨i, σ, q, -, hq, hσ, hallowed, hstore, hat'⟩
  · refine ⟨_, hat', ?_⟩
    rw [hstore]
    exact good_start hgood
  · refine ⟨_, hat', ?_⟩
    rw [hstore]
    exact good_serve hgood hσ hallowed (hC q hq)

theorem Orderly.depth_of_quiet (h : Orderly config p) (hquiet : p.Quiet) (entityType : RegistryEntityType) :
    p.store.depth entityType.name = p.store.pending entityType := by
  obtain ⟨stages, hat, hgood⟩ := h
  have hzero : (stages.map (Stage.owed entityType)).sum = 0 := by
    apply sum_eq_zero
    intro n hn
    obtain ⟨σ, hσ, rfl⟩ := mem_map.mp hn
    obtain ⟨i, hi⟩ := mem_iff_getElem?.mp hσ
    obtain ⟨⟨op, task⟩, hthread, hfollows⟩ := hat.stage hi
    have hdone := all_eq_true.mp hquiet _ (mem_of_getElem? hthread)
    cases task with
    | done result => exact Stage.IsSettled.owed hfollows entityType
    | ask q next => cases hdone
  have hdepth := hgood.depth entityType
  omega

def Stage.Pursues (s : Store) : Stage → Prop
  | .deciding linkId _ =>
    ∃ link, s.links[linkId]? = some link ∧ (link.reviewStatus = .pending_review ∨ linkId ∈ s.decided)
  | _ => True

theorem perform_pursues (h : σ.Pursues s) (q : Query) : σ.Pursues (perform q s).2 := by
  cases σ with
  | deciding linkId read =>
    obtain ⟨link, hlink, hstatus⟩ := h
    have hlt : linkId < s.links.length := (List.getElem?_eq_some_iff.mp hlink).1
    cases q with
    | create data =>
      rcases commit_cases (s.create data) s with ⟨e, -, hserved⟩ | ⟨new, s', htx, hserved⟩
      · rw [perform, hserved]
        exact ⟨link, hlink, hstatus⟩
      · obtain ⟨-, -, rfl⟩ := create_ok htx
        rw [perform, hserved]
        refine ⟨link, ?_, hstatus⟩
        change (s.links ++ [new])[linkId]? = some link
        rw [getElem?_append_left hlt]
        exact hlink
    | update id data =>
      rcases commit_cases (s.update id data) s with ⟨e, -, hserved⟩ | ⟨updated, s', htx, hserved⟩
      · rw [perform, hserved]
        exact ⟨link, hlink, hstatus⟩
      · obtain ⟨-, -, -, -, -, rfl⟩ := update_ok htx
        rw [perform, hserved]
        by_cases hid : id = linkId
        · subst hid
          exact ⟨updated, getElem?_set_self hlt, .inr mem_cons_self⟩
        · refine ⟨link, ?_, hstatus.imp_right fun hmem => mem_cons_of_mem _ hmem⟩
          rw [← hlink]
          exact getElem?_set_ne hid
    | record params =>
      rcases commit_cases (s.record params) s with ⟨e, -, hserved⟩ | ⟨_, s', htx, hserved⟩
      · rw [perform, hserved]
        exact ⟨link, hlink, hstatus⟩
      · have hs' := record_ok htx
        subst hs'
        rw [perform, hserved]
        exact ⟨link, hlink, hstatus⟩
    | clock | elapse | foresee | keepRegistry | findUniqueRecord | findFirstRecord | findUnique
    | adjustEntityLinkReviewQueueDepth => exact ⟨link, hlink, hstatus⟩
  | fresh | queued | linked | decided | reviewed | ended => trivial

theorem next_pursues {q : Query} (h : σ.Pursues s) : (σ.next q (perform q s).1).Pursues (perform q s).2 := by
  cases σ with
  | fresh =>
    cases q with
    | findUnique linkId =>
      change (Stage.fresh.next (.findUnique linkId) (s.ask s.links[linkId]?)).Pursues s
      rw [Store.ask]
      cases s.db with
      | error e => trivial
      | ok _ =>
        cases hlink : s.links[linkId]? with
        | none => trivial
        | some link =>
          change (if link.reviewStatus = .pending_review then Stage.deciding linkId link else .ended).Pursues s
          split
          · rename_i hpending
            exact ⟨link, hlink, .inl hpending⟩
          · trivial
    | create data =>
      cases (perform (.create data) s).1 with
      | error e => trivial
      | ok link =>
        change (if data.reviewStatus = .pending_review then Stage.queued data link else .linked data link).Pursues _
        split
        · trivial
        · trivial
    | clock | elapse | foresee | keepRegistry | findUniqueRecord | findFirstRecord | update
    | adjustEntityLinkReviewQueueDepth | record => trivial
  | deciding linkId read =>
    cases q with
    | update id data =>
      cases (perform (.update id data) s).1 with
      | error e | ok updated => trivial
    | clock | elapse | foresee | keepRegistry | findUniqueRecord | findFirstRecord | create | findUnique
    | adjustEntityLinkReviewQueueDepth | record => exact perform_pursues h _
  | queued | linked | decided | reviewed | ended => trivial

theorem pursues_of_run (hrun : Run (LinkStep config) { store := {} } tr p) (ht : t ∈ tr) :
    t.pre.Staged (protocol config) fun stages s => ∀ σ ∈ stages, σ.Pursues s := by
  have hbody : ∀ op, (LinkOp.body config op).Follows (protocol config) (fun _ _ => True) .fresh :=
    fun op => Task.Follows.mono (fun _ _ _ => trivial) (body_follows op)
  refine (Pool.Staged.run (C := fun _ _ => True) hbody (fun stages s hstages => ?_) ?_ hrun
    (Pool.Staged.idle fun _ h => absurd h not_mem_nil) (fun _ _ _ _ => trivial) ht).1
  · intro σ hσ
    rcases mem_append.mp hσ with hσ | hσ
    · exact hstages σ hσ
    · rw [mem_singleton.mp hσ]
      trivial
  · intro stages s i σ q hstages hi _ _
    refine forall_mem_set (next_pursues (hstages σ (mem_of_getElem? hi))) fun j τ _ hj => ?_
    exact perform_pursues (hstages τ (mem_of_getElem? hj)) q

theorem inTime_of_once (hrun : Run (LinkStep config) { store := {} } tr p)
    (honce : ∀ t ∈ tr, t.post.store.decided.Nodup) (ht : t ∈ tr) : InTime t := by
  intro q hq
  cases q with
  | update id data =>
    intro hok link hlink
    by_contra hstatus
    obtain ⟨stages, i, σ, hσ, hallowed, hpursues⟩ := (pursues_of_run hrun ht).request hq
    have hmem : id ∈ t.pre.store.decided := by
      cases σ with
      | deciding linkId read =>
        obtain ⟨rfl, -⟩ := hallowed
        obtain ⟨found, hfound, hdone⟩ := hpursues _ (mem_of_getElem? hσ)
        rw [hlink] at hfound
        cases hfound
        exact hdone.resolve_left hstatus
      | fresh | queued | linked | decided | reviewed | ended => exact hallowed.elim
    have hpost := (hrun.step_of_mem ht).store_of_asked hq
    rcases commit_cases (t.pre.store.update id data) t.pre.store with ⟨e, he, -⟩ | ⟨updated, s', htx, hserved⟩
    · rw [he] at hok
      cases hok
    · obtain ⟨-, -, -, -, -, rfl⟩ := update_ok htx
      have htwice := honce t ht
      rw [hpost, perform, hserved] at htwice
      exact (nodup_cons.mp htwice).1 hmem
  | clock | elapse | foresee | keepRegistry | findUniqueRecord | findFirstRecord | create | findUnique
  | adjustEntityLinkReviewQueueDepth | record => trivial

/-- The review of entity links: every link is decided once, and its audit records, its foreign key and the depth of the
queue agree with it, exactly if every update of a decision that goes through finds its link still pending. -/
theorem reviewedOnce_iff (hrun : Run (LinkStep config) { store := {} } tr p) :
    ReviewedOnce tr ↔ ∀ t ∈ tr, InTime t := by
  refine ⟨fun h t ht => inTime_of_once hrun h.once ht, fun hintime => ?_⟩
  have horderly : ∀ t ∈ tr, Orderly config t.post := fun t ht => orderly_of_run hrun hintime ht
  constructor
  case once =>
    intro t ht
    obtain ⟨stages, -, hgood⟩ := horderly t ht
    exact hgood.once
  case audited =>
    intro t ht
    obtain ⟨stages, -, hgood⟩ := horderly t ht
    exact hgood.audits
  case active =>
    intro t ht link hlink
    obtain ⟨stages, -, hgood⟩ := horderly t ht
    exact (hgood.sound link hlink).active
  case registered =>
    intro t ht link hlink
    obtain ⟨stages, -, hgood⟩ := horderly t ht
    exact (hgood.sound link hlink).registered
  case counted =>
    intro t ht hquiet entityType
    exact (horderly t ht).depth_of_quiet hquiet entityType

def bandingConfig : Config := { threshold := mkRat 9 10, toLowerCase := id }

def clinicLink : CreateEntityLinkDto where
  sourceType := "campaign"
  sourceId := "cmp-1"
  extractedName := "Northern Clinic"
  entityType := "organization"
  confidenceScore := mkRat 1 2

def reviews (turns : List ℕ) : List LinkTransition × LinkPool :=
  play (Pool.take perform (LinkOp.body bandingConfig)) { store := {} }
    ([.start (.linkEntity clinicLink), .advance 0, .advance 0, .advance 0, .advance 0, .advance 0,
      .start (.decideReview 0 { action := "accept" } "ana"), .start (.decideReview 0 { action := "reject" } "bo")] ++
      turns.map .advance)

theorem reviews_run (turns : List ℕ) :
    Run (LinkStep bandingConfig) { store := {} } (reviews turns).1 (reviews turns).2 :=
  play_run (fun _ _ _ h => h) _ _

theorem reviewedOnce_inTurn : ReviewedOnce (reviews [1, 1, 1, 1, 1, 2]).1 :=
  (reviewedOnce_iff (reviews_run _)).mpr (by decide +kernel)

/-- Both reviewers read the link before either has decided: it is accepted and then rejected, and the depth of the queue
ends below zero. -/
theorem overlapping_decidedTwice : ¬ ReviewedOnce (reviews [1, 1, 2, 2, 1, 1, 1, 2, 2, 2]).1 := by
  intro h
  have htwice : ¬ ∀ t ∈ (reviews [1, 1, 2, 2, 1, 1, 1, 2, 2, 2]).1, t.post.store.decided.Nodup := by
    decide +kernel
  exact htwice h.once

end Runs
end Soter.EntityLinking
