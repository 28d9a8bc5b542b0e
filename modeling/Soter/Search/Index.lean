import Soter.Lib.JsNumber
import Soter.Lib.Keyset

/-! What the search index is built from: the rows of the source, the records that they make, and the batches that they
are read in (`search-index.service.ts`). Of `toLowerCase` nothing is used. -/
namespace Soter.Search
open Soter.Keyset Soter.JsNumbers List

inductive SearchIndexEntityType
  | campaign
  | claim
  | recipient
  | verification
  deriving DecidableEq

def searchIndexEntityTypes : List SearchIndexEntityType := [.campaign, .claim, .recipient, .verification]

structure Campaign where
  id : String
  name : String
  status : String
  ngoId : Option String := none
  orgId : Option String := none
  deletedAt : Option ℤ := none
  deriving DecidableEq

structure Claim where
  id : String
  recipientRef : String
  status : String
  campaignId : String
  deletedAt : Option ℤ := none
  deriving DecidableEq

structure VerificationSession where
  id : String
  identifier : String
  status : String
  orgId : Option String := none
  deletedAt : Option ℤ := none
  deriving DecidableEq

/-- The tables that the index is built from, in the order of their ids. Ids of organisations are made of letters and
digits. -/
structure Source where
  campaigns : List Campaign
  claims : List Claim
  verificationSessions : List VerificationSession
  campaign_ids : (campaigns.map (·.id)).Nodup
  claim_ids : (claims.map (·.id)).Nodup
  session_ids : (verificationSessions.map (·.id)).Nodup
  org_ids : ∀ campaign ∈ campaigns, ∀ orgId ∈ campaign.orgId, '|' ∉ orgId.toList

structure IndexRecord where
  entityType : SearchIndexEntityType
  entityId : String
  orgId : String
  label : String
  status : String
  searchText : String
  deriving DecidableEq

def IndexRecord.key (record : IndexRecord) : SearchIndexEntityType × String × String :=
  (record.entityType, record.entityId, record.orgId)

section Records
variable (lower : String → String) (source : Source)

def normalize (values : List String) : String :=
  " ".intercalate ((values.filter (· ≠ "")).map fun v => lower (String.ofList (trim v.toList)))

def orgOf (orgId : Option String) : Option String := orgId.filter (· ≠ "")

def campaignRecord (row : Campaign) : Option IndexRecord :=
  (orgOf (row.orgId.or row.ngoId)).map fun orgId =>
    { entityType := .campaign, entityId := row.id, orgId, label := row.name, status := row.status
      searchText := normalize lower [row.name, row.id] }

/-- `claim.campaign.orgId` -/
def Source.claimOrg (row : Claim) : Option String :=
  (source.campaigns.find? (·.id = row.campaignId)).bind (·.orgId)

def claimRecord (row : Claim) : Option IndexRecord :=
  (orgOf (source.claimOrg row)).map fun orgId =>
    { entityType := .claim, entityId := row.id, orgId, label := "Claim " ++ row.id, status := row.status
      searchText := normalize lower [row.id, row.recipientRef] }

def recipientRecord (row : Claim) : Option IndexRecord :=
  if row.recipientRef = "" then none
  else (orgOf (source.claimOrg row)).map fun orgId =>
    { entityType := .recipient, entityId := row.recipientRef, orgId, label := row.recipientRef, status := "active"
      searchText := normalize lower [row.recipientRef] }

def verificationRecord (row : VerificationSession) : Option IndexRecord :=
  (orgOf row.orgId).map fun orgId =>
    { entityType := .verification, entityId := row.id, orgId, label := row.identifier, status := row.status
      searchText := normalize lower [row.identifier, row.id] }

/-- The rows that `scanCampaigns` selects, and so on. -/
def Source.campaignRows : List Campaign := source.campaigns.filter (·.deletedAt = none)

def Source.claimRows : List Claim :=
  source.claims.filter fun row => row.deletedAt = none ∧ source.claimOrg row ≠ none

def Source.recipientRows : List Claim :=
  source.claims.filter fun row => row.deletedAt = none ∧ row.recipientRef ≠ "" ∧ source.claimOrg row ≠ none

def Source.verificationRows : List VerificationSession :=
  source.verificationSessions.filter fun row => row.deletedAt = none ∧ row.orgId ≠ none

def Source.records : SearchIndexEntityType → List IndexRecord
  | .campaign => source.campaignRows.filterMap (campaignRecord lower)
  | .claim => source.claimRows.filterMap (claimRecord lower source)
  | .recipient => source.recipientRows.filterMap (recipientRecord lower source)
  | .verification => source.verificationRows.filterMap (verificationRecord lower)

end Records
section Batches
variable (lower : String → String) (source : Source)

structure EntityBatch where
  records : List IndexRecord
  nextCursor : Option String
  /-- The keys that were seen so far. -/
  seen : List String

/-- `findMany({ orderBy: { id: 'asc' }, take, cursor, skip: 1 })` -/
def findMany {α : Type} (id : α → String) (rows : List α) (cursor : Option String) (batchSize : ℕ) : List α :=
  (after id (cursor.filter (· ≠ "")) rows).take batchSize

def scan {α : Type} (id : α → String) (record : α → Option IndexRecord) (rows : List α) (cursor : Option String)
    (batchSize : ℕ) (seen : List String) : EntityBatch :=
  let rows := findMany id rows cursor batchSize
  { records := rows.filterMap record, nextCursor := rows.getLast?.map id, seen }

def scanCampaigns (cursor : Option String) (batchSize : ℕ) (seen : List String) : EntityBatch :=
  scan (·.id) (campaignRecord lower) source.campaignRows cursor batchSize seen

def scanClaims (cursor : Option String) (batchSize : ℕ) (seen : List String) : EntityBatch :=
  scan (·.id) (claimRecord lower source) source.claimRows cursor batchSize seen

def scanVerifications (cursor : Option String) (batchSize : ℕ) (seen : List String) : EntityBatch :=
  scan (·.id) (verificationRecord lower) source.verificationRows cursor batchSize seen

def recipientKey (record : IndexRecord) : String := record.orgId ++ "|" ++ record.entityId

def collectRecipients (record : Claim → Option IndexRecord) : List String → List Claim → List IndexRecord × List String
  | seen, [] => ([], seen)
  | seen, row :: rows =>
    match record row with
    | none => collectRecipients record seen rows
    | some r =>
      if recipientKey r ∈ seen then collectRecipients record seen rows
      else
        let rest := collectRecipients record (recipientKey r :: seen) rows
        (r :: rest.1, rest.2)

def scanRecipients (cursor : Option String) (batchSize : ℕ) (seen : List String) : EntityBatch :=
  let rows := findMany (·.id) source.recipientRows cursor batchSize
  let collected := collectRecipients (recipientRecord lower source) seen rows
  { records := collected.1, nextCursor := rows.getLast?.map (·.id), seen := collected.2 }

def scanEntityBatch (entityType : SearchIndexEntityType) (cursor : Option String) (batchSize : ℕ) (seen : List String) :
    EntityBatch :=
  match entityType with
  | .campaign => scanCampaigns lower source cursor batchSize seen
  | .claim => scanClaims lower source cursor batchSize seen
  | .recipient => scanRecipients lower source cursor batchSize seen
  | .verification => scanVerifications lower source cursor batchSize seen

end Batches
section Keys
variable {lower : String → String} {source : Source} {entityType : SearchIndexEntityType} {r r' : IndexRecord}

variable {α : Type} {rows : List α} {record : α → Option IndexRecord} {row : Claim} {id : α → String}

theorem orgOf_eq_some {orgId : Option String} {org : String} (h : orgOf orgId = some org) : orgId = some org :=
  (Option.filter_eq_some_iff.mp h).1

theorem record_of_row (h : r ∈ rows.filterMap record) : ∃ row ∈ rows, record row = some r :=
  mem_filterMap.mp h

theorem campaignRecord_fields {row : Campaign} (h : campaignRecord lower row = some r) :
    r.entityType = .campaign ∧ r.entityId = row.id := by
  obtain ⟨orgId, -, rfl⟩ := Option.map_eq_some_iff.mp h
  exact ⟨rfl, rfl⟩

theorem claimRecord_fields (h : claimRecord lower source row = some r) :
    r.entityType = .claim ∧ r.entityId = row.id := by
  obtain ⟨orgId, -, rfl⟩ := Option.map_eq_some_iff.mp h
  exact ⟨rfl, rfl⟩

theorem verificationRecord_fields {row : VerificationSession} (h : verificationRecord lower row = some r) :
    r.entityType = .verification ∧ r.entityId = row.id := by
  obtain ⟨orgId, -, rfl⟩ := Option.map_eq_some_iff.mp h
  exact ⟨rfl, rfl⟩

def recipientOf (lower : String → String) (recipientRef orgId : String) : IndexRecord where
  entityType := .recipient
  entityId := recipientRef
  orgId := orgId
  label := recipientRef
  status := "active"
  searchText := normalize lower [recipientRef]

theorem recipientRecord_eq (h : recipientRecord lower source row = some r) :
    source.claimOrg row = some r.orgId ∧ r = recipientOf lower r.entityId r.orgId := by
  rw [recipientRecord] at h
  split at h
  · cases h
  · obtain ⟨orgId, horg, rfl⟩ := Option.map_eq_some_iff.mp h
    exact ⟨orgOf_eq_some horg, rfl⟩

theorem records_entityType (h : r ∈ source.records lower entityType) : r.entityType = entityType := by
  cases entityType with
  | campaign =>
    obtain ⟨row, -, hrow⟩ := record_of_row h
    exact (campaignRecord_fields hrow).1
  | claim =>
    obtain ⟨row, -, hrow⟩ := record_of_row h
    exact (claimRecord_fields hrow).1
  | recipient =>
    obtain ⟨row, -, hrow⟩ := record_of_row h
    rw [(recipientRecord_eq hrow).2]
    rfl
  | verification =>
    obtain ⟨row, -, hrow⟩ := record_of_row h
    exact (verificationRecord_fields hrow).1

theorem records_inj (hnodup : (rows.map id).Nodup) (hid : ∀ row r, record row = some r → r.entityId = id row)
    (h : r ∈ rows.filterMap record) (h' : r' ∈ rows.filterMap record) (hkey : r.entityId = r'.entityId) : r = r' := by
  obtain ⟨row, hrow, hr⟩ := record_of_row h
  obtain ⟨row', hrow', hr'⟩ := record_of_row h'
  rw [hid row r hr, hid row' r' hr'] at hkey
  rw [inj_on_of_nodup_map hnodup hrow hrow' hkey] at hr
  exact Option.some.inj (hr.symm.trans hr')

theorem nodup_filter_map (p : α → Bool) (h : (rows.map id).Nodup) : ((rows.filter p).map id).Nodup :=
  h.sublist (filter_sublist.map id)

theorem records_key_inj (h : r ∈ source.records lower entityType) (h' : r' ∈ source.records lower entityType)
    (hkey : r.key = r'.key) : r = r' := by
  have hid : r.entityId = r'.entityId := congrArg (·.2.1) hkey
  have horg : r.orgId = r'.orgId := congrArg (·.2.2) hkey
  cases entityType with
  | campaign =>
    exact records_inj (nodup_filter_map _ source.campaign_ids) (fun _ _ hr => (campaignRecord_fields hr).2) h h' hid
  | claim =>
    exact records_inj (nodup_filter_map _ source.claim_ids) (fun _ _ hr => (claimRecord_fields hr).2) h h' hid
  | recipient =>
    obtain ⟨row, -, hr⟩ := record_of_row h
    obtain ⟨row', -, hr'⟩ := record_of_row h'
    rw [(recipientRecord_eq hr).2, (recipientRecord_eq hr').2, hid, horg]
  | verification =>
    exact records_inj (nodup_filter_map _ source.session_ids) (fun _ _ hr => (verificationRecord_fields hr).2) h h' hid

theorem bar_inj {a b c d : String} (ha : '|' ∉ a.toList) (hc : '|' ∉ c.toList) (h : a ++ "|" ++ b = c ++ "|" ++ d) :
    a = c ∧ b = d := by
  have hlists : a.toList ++ '|' :: b.toList = c.toList ++ '|' :: d.toList := by
    have := congrArg String.toList h
    simpa using this
  have htake : ∀ (x y : List Char), '|' ∉ x → (x ++ '|' :: y).takeWhile (· ≠ '|') = x := by
    intro x y hx
    have hbefore : ∀ ch ∈ x, decide (ch ≠ '|') = true := by
      intro ch hch
      refine decide_eq_true fun heq => hx ?_
      rw [← heq]
      exact hch
    rw [takeWhile_append_of_pos hbefore]
    simp
  have hfirst : a.toList = c.toList := by
    rw [← htake a.toList b.toList ha, hlists, htake c.toList d.toList hc]
  rw [hfirst] at hlists
  have hsecond : b.toList = d.toList := (cons.inj (append_cancel_left hlists)).2
  exact ⟨String.ext hfirst, String.ext hsecond⟩

theorem recipientKey_inj (h : r ∈ source.records lower .recipient) (h' : r' ∈ source.records lower .recipient)
    (hkey : recipientKey r = recipientKey r') : r = r' := by
  have hbar : ∀ r ∈ source.records lower .recipient, '|' ∉ r.orgId.toList := by
    intro r hr
    obtain ⟨row, -, hrow⟩ := record_of_row hr
    obtain ⟨campaign, hfound, horg⟩ := Option.bind_eq_some_iff.mp (recipientRecord_eq hrow).1
    exact source.org_ids campaign (mem_of_find?_eq_some hfound) _ horg
  obtain ⟨horg, hid⟩ := bar_inj (hbar r h) (hbar r' h') hkey
  obtain ⟨row, -, hr⟩ := record_of_row h
  obtain ⟨row', -, hr'⟩ := record_of_row h'
  rw [(recipientRecord_eq hr).2, (recipientRecord_eq hr').2, hid, horg]

end Keys
section Scan
variable (lower : String → String) (source : Source)

def leftOf {α : Type} (id : α → String) (record : α → Option IndexRecord) (rows : List α) (cursor : Option String) :
    List IndexRecord :=
  (after id (cursor.filter (· ≠ "")) rows).filterMap record

def Source.left (cursor : Option String) : SearchIndexEntityType → List IndexRecord
  | .campaign => leftOf (·.id) (campaignRecord lower) source.campaignRows cursor
  | .claim => leftOf (·.id) (claimRecord lower source) source.claimRows cursor
  | .recipient => leftOf (·.id) (recipientRecord lower source) source.recipientRows cursor
  | .verification => leftOf (·.id) (verificationRecord lower) source.verificationRows cursor

/-- What a batch after `cursor` gives: records of the source, and everything that is left but for what was seen and what
is after the next cursor. -/
structure Scanned (entityType : SearchIndexEntityType) (cursor : Option String) (seen : List String)
    (batch : EntityBatch) : Prop where
  genuine : ∀ r ∈ batch.records, r ∈ source.records lower entityType
  covers : ∀ r ∈ source.left lower cursor entityType, r ∈ batch.records ∨ recipientKey r ∈ seen ∨
    ∃ next, batch.nextCursor = some next ∧ r ∈ source.left lower (some next) entityType
  seen : ∀ r ∈ source.records lower entityType, recipientKey r ∈ batch.seen → recipientKey r ∈ seen ∨ r ∈ batch.records

variable {lower source} {α : Type} {id : α → String} {record : α → Option IndexRecord} {rows : List α}
  {cursor : Option String} {batchSize : ℕ} {r : IndexRecord}

theorem left_start (entityType : SearchIndexEntityType) :
    source.left lower none entityType = source.records lower entityType := by
  cases entityType with
  | _ => rfl

theorem findMany_mem {row : α} (h : row ∈ findMany id rows cursor batchSize) : row ∈ rows :=
  (after_suffix id _ rows).subset (mem_of_mem_take h)

theorem findMany_covers (hnodup : (rows.map id).Nodup) (hpos : 0 < batchSize) (h : r ∈ leftOf id record rows cursor) :
    r ∈ (findMany id rows cursor batchSize).filterMap record ∨
      ∃ next, (findMany id rows cursor batchSize).getLast?.map id = some next ∧
        r ∈ leftOf id record rows (some next) := by
  obtain ⟨row, hrow, hr⟩ := record_of_row h
  have hsplit : after id (cursor.filter (· ≠ "")) rows = findMany id rows cursor batchSize ++
      (after id (cursor.filter (· ≠ "")) rows).drop batchSize := (take_append_drop batchSize _).symm
  rw [hsplit] at hrow
  rcases mem_append.mp hrow with hpage | hrest
  · exact .inl (mem_filterMap.mpr ⟨row, hpage, hr⟩)
  · -- there is a row after the batch, so the batch is not empty
    have hlong : batchSize < (after id (cursor.filter (· ≠ "")) rows).length := by
      by_contra hshort
      rw [drop_eq_nil_of_le (not_lt.mp hshort)] at hrest
      cases hrest
    obtain ⟨last, hlast⟩ : ∃ last, (findMany id rows cursor batchSize).getLast? = some last := by
      have hne : findMany id rows cursor batchSize ≠ [] := by
        intro hnil
        have hlength := congrArg length hnil
        rw [findMany, length_take, length_nil] at hlength
        omega
      exact ⟨_, getLast?_eq_some_getLast hne⟩
    refine .inr ⟨id last, by rw [hlast]; rfl, mem_filterMap.mpr ⟨row, ?_, hr⟩⟩
    by_cases hempty : id last = ""
    · rw [hempty]
      exact (after_suffix id _ rows).subset (drop_subset batchSize _ hrest)
    · have hcursor : (some (id last)).filter (· ≠ "") = some (id last) :=
        Option.filter_eq_some_iff.mpr ⟨rfl, decide_eq_true hempty⟩
      rw [hcursor, after_last hnodup hsplit hlast]
      exact hrest

theorem scan_covers {seen : List String} (hnodup : (rows.map id).Nodup) (hpos : 0 < batchSize)
    (h : r ∈ leftOf id record rows cursor) : r ∈ (scan id record rows cursor batchSize seen).records ∨
      recipientKey r ∈ seen ∨ ∃ next, (scan id record rows cursor batchSize seen).nextCursor = some next ∧
        r ∈ leftOf id record rows (some next) := by
  rcases findMany_covers hnodup hpos h with hr | hnext
  · exact .inl hr
  · exact .inr (.inr hnext)

theorem scan_genuine {seen : List String} (h : r ∈ (scan id record rows cursor batchSize seen).records) :
    r ∈ rows.filterMap record := by
  obtain ⟨row, hrow, hr⟩ := record_of_row h
  exact mem_filterMap.mpr ⟨row, findMany_mem hrow, hr⟩

/-- What is collected comes from the rows; a record of theirs is collected unless its key was seen; and what is seen then
was seen before or is collected. -/
theorem collectRecipients_spec (record : Claim → Option IndexRecord) : ∀ (rows : List Claim) (seen : List String),
    (∀ r ∈ (collectRecipients record seen rows).1, r ∈ rows.filterMap record) ∧
    (∀ r ∈ rows.filterMap record, recipientKey r ∈ seen ∨
      ∃ r' ∈ (collectRecipients record seen rows).1, recipientKey r' = recipientKey r) ∧
    ∀ k ∈ (collectRecipients record seen rows).2, k ∈ seen ∨
      ∃ r' ∈ (collectRecipients record seen rows).1, recipientKey r' = k
  | [], seen => ⟨fun _ h => h, fun _ h => absurd h not_mem_nil, fun _ h => .inl h⟩
  | row :: rows, seen => by
    rw [collectRecipients]
    cases hrow : record row with
    | none =>
      rw [filterMap_cons_none hrow]
      exact collectRecipients_spec record rows seen
    | some r =>
      rw [filterMap_cons_some hrow]
      dsimp only
      by_cases hseen : recipientKey r ∈ seen
      · rw [if_pos hseen]
        obtain ⟨hfrom, hall, hkeys⟩ := collectRecipients_spec record rows seen
        refine ⟨fun r' hr' => mem_cons_of_mem r (hfrom r' hr'), fun r' hr' => ?_, hkeys⟩
        rcases mem_cons.mp hr' with rfl | hr'
        · exact .inl hseen
        · exact hall r' hr'
      · rw [if_neg hseen]
        obtain ⟨hfrom, hall, hkeys⟩ := collectRecipients_spec record rows (recipientKey r :: seen)
        have hfirst : r ∈ r :: (collectRecipients record (recipientKey r :: seen) rows).1 := mem_cons_self
        refine ⟨fun r' hr' => ?_, fun r' hr' => ?_, fun k hk => ?_⟩
        · rcases mem_cons.mp hr' with rfl | hr'
          · exact mem_cons_self
          · exact mem_cons_of_mem r (hfrom r' hr')
        · rcases mem_cons.mp hr' with rfl | hr'
          · exact .inr ⟨r', hfirst, rfl⟩
          · rcases hall r' hr' with hold | ⟨r'', hr'', hkey⟩
            · rcases mem_cons.mp hold with hsame | hold
              · exact .inr ⟨r, hfirst, hsame.symm⟩
              · exact .inl hold
            · exact .inr ⟨r'', mem_cons_of_mem r hr'', hkey⟩
        · rcases hkeys k hk with hold | ⟨r', hr', hkey⟩
          · rcases mem_cons.mp hold with rfl | hold
            · exact .inr ⟨r, hfirst, rfl⟩
            · exact .inl hold
          · exact .inr ⟨r', mem_cons_of_mem r hr', hkey⟩

theorem scanRecipients_scanned (hpos : 0 < batchSize) (seen : List String) :
    Scanned lower source .recipient cursor seen (scanRecipients lower source cursor batchSize seen) := by
  let rows := findMany (·.id) source.recipientRows cursor batchSize
  obtain ⟨hfrom, hall, hkeys⟩ := collectRecipients_spec (recipientRecord lower source) rows seen
  have hgenuine : ∀ r ∈ rows.filterMap (recipientRecord lower source), r ∈ source.records lower .recipient := by
    intro r hr
    obtain ⟨row, hrow, hrecord⟩ := record_of_row hr
    exact mem_filterMap.mpr ⟨row, findMany_mem hrow, hrecord⟩
  refine ⟨fun r hr => hgenuine r (hfrom r hr), fun r hr => ?_, fun r hr hseen => ?_⟩
  · rcases findMany_covers (nodup_filter_map _ source.claim_ids) hpos hr with hpage | hnext
    · rcases hall r hpage with hseen | ⟨r', hr', hkey⟩
      · exact .inr (.inl hseen)
      · rw [← recipientKey_inj (hgenuine r' (hfrom r' hr')) (hgenuine r hpage) hkey]
        exact .inl hr'
    · exact .inr (.inr hnext)
  · rcases hkeys _ hseen with hold | ⟨r', hr', hkey⟩
    · exact .inl hold
    · rw [← recipientKey_inj (hgenuine r' (hfrom r' hr')) hr hkey]
      exact .inr hr'

theorem scanEntityBatch_scanned (entityType : SearchIndexEntityType) (hpos : 0 < batchSize) (seen : List String) :
    Scanned lower source entityType cursor seen (scanEntityBatch lower source entityType cursor batchSize seen) := by
  cases entityType with
  | campaign =>
    exact ⟨fun _ => scan_genuine, fun _ => scan_covers (nodup_filter_map _ source.campaign_ids) hpos, fun _ _ => .inl⟩
  | claim =>
    exact ⟨fun _ => scan_genuine, fun _ => scan_covers (nodup_filter_map _ source.claim_ids) hpos, fun _ _ => .inl⟩
  | recipient => exact scanRecipients_scanned hpos seen
  | verification =>
    exact ⟨fun _ => scan_genuine, fun _ => scan_covers (nodup_filter_map _ source.session_ids) hpos, fun _ _ => .inl⟩

end Scan
end Soter.Search
