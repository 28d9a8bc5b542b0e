import Mathlib.Algebra.BigOperators.Group.Finset.Basic
import Soter.Search.Rebuild

/-! How many documents the scans of a rebuild come to (`search-index.service.ts`), and how many are counted before. -/
namespace Soter.Search
open Soter.Keyset List

section Remaining

def upTo {α : Type} (id : α → String) (rows : List α) (cursor : Option String) : List α :=
  rows.take (rows.length - (after id (cursor.filter (· ≠ "")) rows).length)

variable (lower : String → String) (source : Source)

/-- The keys of the recipients that an uninterrupted scan has come across when it is at the cursor. -/
def Source.seenBefore (cursor : Option String) : List String :=
  ((upTo (·.id) source.recipientRows cursor).filterMap (recipientRecord lower source)).map recipientKey

def Source.remaining (entityType : SearchIndexEntityType) (state : EntityCursorState) : ℕ :=
  if state.done then 0
  else
    match entityType with
    | .recipient => (collectRecipients (recipientRecord lower source) (source.seenBefore lower state.cursor)
        (after (·.id) (state.cursor.filter (· ≠ "")) source.recipientRows)).1.length
    | .campaign => (source.left lower state.cursor .campaign).length
    | .claim => (source.left lower state.cursor .claim).length
    | .verification => (source.left lower state.cursor .verification).length

def Source.remainingOf (entityTypes : List SearchIndexEntityType) (checkpoint : RebuildCheckpoint) : ℕ :=
  (entityTypes.map fun t => source.remaining lower t (checkpoint t)).sum

def Source.SeenRight (cursor : Option String) (seen : List String) : Prop :=
  ∀ r ∈ source.left lower cursor .recipient, recipientKey r ∈ seen ↔ recipientKey r ∈ source.seenBefore lower cursor

structure Source.Named : Prop where
  campaigns : ∀ row ∈ source.campaigns, row.id ≠ ""
  claims : ∀ row ∈ source.claims, row.id ≠ ""
  sessions : ∀ row ∈ source.verificationSessions, row.id ≠ ""

end Remaining
section Batch
variable {lower : String → String} {source : Source} {α : Type} {id : α → String} {record : α → Option IndexRecord}
  {rows : List α} {cursor : Option String} {batchSize : ℕ} {seen : List String} {entityType : SearchIndexEntityType}

theorem upTo_append (id : α → String) (rows : List α) (cursor : Option String) :
    upTo id rows cursor ++ after id (cursor.filter (· ≠ "")) rows = rows := by
  obtain ⟨before, hbefore⟩ := after_suffix id (cursor.filter (· ≠ "")) rows
  have hlength : rows.length - (after id (cursor.filter (· ≠ "")) rows).length = before.length := by
    have h := congrArg length hbefore
    rw [length_append] at h
    omega
  rw [upTo, hlength]
  generalize after id (cursor.filter (· ≠ "")) rows = rest at hbefore
  rw [← hbefore, take_left]

/-- A batch is empty where nothing is left; after any other, the rows after its last one are left. -/
theorem findMany_split (hnodup : (rows.map id).Nodup) (hids : ∀ row ∈ rows, id row ≠ "") (hpos : 0 < batchSize) :
    (findMany id rows cursor batchSize = [] ∧ after id (cursor.filter (· ≠ "")) rows = []) ∨
      ∃ last rest, (findMany id rows cursor batchSize).getLast? = some last ∧
        after id (cursor.filter (· ≠ "")) rows = findMany id rows cursor batchSize ++ rest ∧
        after id ((some (id last)).filter (· ≠ "")) rows = rest ∧
        upTo id rows (some (id last)) = upTo id rows cursor ++ findMany id rows cursor batchSize := by
  have hsplit : after id (cursor.filter (· ≠ "")) rows = findMany id rows cursor batchSize ++
      (after id (cursor.filter (· ≠ "")) rows).drop batchSize := (take_append_drop batchSize _).symm
  by_cases hempty : findMany id rows cursor batchSize = []
  · refine .inl ⟨hempty, ?_⟩
    have htake : (after id (cursor.filter (· ≠ "")) rows).take batchSize = [] := hempty
    rcases take_eq_nil_iff.mp htake with hzero | hnil
    · omega
    · exact hnil
  · have hlast := getLast?_eq_some_getLast hempty
    generalize (findMany id rows cursor batchSize).getLast hempty = last at hlast
    have hmem : last ∈ rows := findMany_mem (mem_of_getLast? hlast)
    have hcursor : (some (id last)).filter (· ≠ "") = some (id last) :=
      Option.filter_eq_some_iff.mpr ⟨rfl, decide_eq_true (hids last hmem)⟩
    have hafter : after id ((some (id last)).filter (· ≠ "")) rows =
        (after id (cursor.filter (· ≠ "")) rows).drop batchSize := by
      rw [hcursor]
      exact after_last hnodup hsplit hlast
    refine .inr ⟨last, _, hlast, hsplit, hafter, ?_⟩
    have hnow := upTo_append id rows cursor
    have hthen := upTo_append id rows (some (id last))
    rw [hafter] at hthen
    rw [hsplit, ← append_assoc] at hnow
    exact append_cancel_right (hthen.trans hnow.symm)

theorem collectRecipients_append {record : Claim → Option IndexRecord} : ∀ (xs ys : List Claim) (seen : List String),
    collectRecipients record seen (xs ++ ys) =
      ((collectRecipients record seen xs).1 ++ (collectRecipients record (collectRecipients record seen xs).2 ys).1,
        (collectRecipients record (collectRecipients record seen xs).2 ys).2)
  | [], ys, seen => rfl
  | row :: xs, ys, seen => by
    rw [cons_append, collectRecipients, collectRecipients]
    cases record row with
    | none => exact collectRecipients_append xs ys seen
    | some r =>
      dsimp only
      by_cases hseen : recipientKey r ∈ seen
      · rw [if_pos hseen, if_pos hseen]
        exact collectRecipients_append xs ys seen
      · rw [if_neg hseen, if_neg hseen, collectRecipients_append xs ys (recipientKey r :: seen)]
        rfl

theorem mem_collectRecipients_seen {record : Claim → Option IndexRecord} {k : String} :
    ∀ (rows : List Claim) (seen : List String), k ∈ (collectRecipients record seen rows).2 ↔
      k ∈ seen ∨ ∃ r ∈ rows.filterMap record, recipientKey r = k
  | [], seen => by simp [collectRecipients]
  | row :: rows, seen => by
    rw [collectRecipients]
    cases hrow : record row with
    | none =>
      rw [filterMap_cons_none hrow]
      exact mem_collectRecipients_seen rows seen
    | some r =>
      rw [filterMap_cons_some hrow]
      dsimp only
      by_cases hseen : recipientKey r ∈ seen
      · rw [if_pos hseen, mem_collectRecipients_seen rows seen]
        constructor
        · rintro (hk | ⟨r', hr', hkey⟩)
          · exact .inl hk
          · exact .inr ⟨r', mem_cons_of_mem r hr', hkey⟩
        · rintro (hk | ⟨r', hr', rfl⟩)
          · exact .inl hk
          · rcases mem_cons.mp hr' with rfl | hr'
            · exact .inl hseen
            · exact .inr ⟨r', hr', rfl⟩
      · rw [if_neg hseen]
        dsimp only
        rw [mem_collectRecipients_seen rows (recipientKey r :: seen), mem_cons, exists_mem_cons_iff, eq_comm, or_assoc]
        exact or_left_comm

theorem collectRecipients_congr {record : Claim → Option IndexRecord} : ∀ {rows : List Claim} {seen seen' : List String},
      (∀ r ∈ rows.filterMap record, recipientKey r ∈ seen ↔ recipientKey r ∈ seen') →
        (collectRecipients record seen rows).1 = (collectRecipients record seen' rows).1
  | [], _, _, _ => rfl
  | row :: rows, seen, seen', h => by
    rw [collectRecipients, collectRecipients]
    cases hrow : record row with
    | none =>
      rw [filterMap_cons_none hrow] at h
      exact collectRecipients_congr h
    | some r =>
      rw [filterMap_cons_some hrow] at h
      have hrest := fun r' hr' => h r' (mem_cons_of_mem r hr')
      dsimp only
      by_cases hseen : recipientKey r ∈ seen
      · rw [if_pos hseen, if_pos ((h r mem_cons_self).mp hseen)]
        exact collectRecipients_congr hrest
      · rw [if_neg hseen, if_neg fun hseen' => hseen ((h r mem_cons_self).mpr hseen')]
        have hmore : ∀ r' ∈ rows.filterMap record,
            recipientKey r' ∈ recipientKey r :: seen ↔ recipientKey r' ∈ recipientKey r :: seen' := by
          intro r' hr'
          rw [mem_cons, mem_cons, hrest r' hr']
        dsimp only
        rw [collectRecipients_congr hmore]

variable (lower source) in
/-- What a batch comes to and what remains after it make up what remained; and what was seen still tells. -/
structure Counted (entityType : SearchIndexEntityType) (cursor : Option String) (batch : EntityBatch) : Prop where
  last : batch.nextCursor = none → batch.records.length = source.remaining lower entityType { cursor := cursor }
  more : ∀ next, batch.nextCursor = some next →
    batch.records.length + source.remaining lower entityType { cursor := some next } =
      source.remaining lower entityType { cursor := cursor }
  seen : entityType = .recipient → ∀ next, batch.nextCursor = some next → source.SeenRight lower (some next) batch.seen

theorem remaining_left (h : entityType ≠ .recipient) :
    source.remaining lower entityType { cursor := cursor } = (source.left lower cursor entityType).length := by
  cases entityType with
  | recipient => exact absurd rfl h
  | _ => rfl

theorem scan_counted (h : entityType ≠ .recipient) (hnodup : (rows.map id).Nodup) (hids : ∀ row ∈ rows, id row ≠ "")
    (hpos : 0 < batchSize) (hleft : ∀ c, source.left lower c entityType = leftOf id record rows c) :
    Counted lower source entityType cursor (scan id record rows cursor batchSize seen) := by
  refine ⟨fun hnext => ?_, fun next hnext => ?_, fun hrecipient => absurd hrecipient h⟩
  · rw [remaining_left h, hleft, leftOf]
    rcases findMany_split hnodup hids hpos with ⟨hpage, hnone⟩ | ⟨last, rest, hlast, -⟩
    · change ((findMany id rows cursor batchSize).filterMap record).length = _
      rw [hpage, hnone]
    · change (findMany id rows cursor batchSize).getLast?.map id = none at hnext
      rw [hlast] at hnext
      cases hnext
  · rw [remaining_left h, remaining_left h, hleft, hleft, leftOf, leftOf]
    change (findMany id rows cursor batchSize).getLast?.map id = some next at hnext
    change ((findMany id rows cursor batchSize).filterMap record).length + _ = _
    rcases findMany_split hnodup hids hpos with ⟨hpage, -⟩ | ⟨last, rest, hlast, hsplit, hafter, -⟩
    · rw [hpage] at hnext
      cases hnext
    · rw [hlast] at hnext
      cases hnext
      rw [hafter, hsplit, filterMap_append, length_append]

theorem scanRecipients_counted (hnamed : source.Named) (hpos : 0 < batchSize) (hseen : source.SeenRight lower cursor seen) :
    Counted lower source .recipient cursor (scanRecipients lower source cursor batchSize seen) := by
  have hnodup : (source.recipientRows.map (·.id)).Nodup := nodup_filter_map _ source.claim_ids
  have hids : ∀ row ∈ source.recipientRows, row.id ≠ "" :=
    fun row hrow => hnamed.claims row (mem_of_mem_filter hrow)
  have hnext : (scanRecipients lower source cursor batchSize seen).nextCursor =
      (findMany (·.id) source.recipientRows cursor batchSize).getLast?.map (·.id) := rfl
  have hrecords : (scanRecipients lower source cursor batchSize seen).records =
      (collectRecipients (recipientRecord lower source) seen (findMany (·.id) source.recipientRows cursor batchSize)).1 :=
    rfl
  have hthen : (scanRecipients lower source cursor batchSize seen).seen =
      (collectRecipients (recipientRecord lower source) seen (findMany (·.id) source.recipientRows cursor batchSize)).2 :=
    rfl
  rcases findMany_split hnodup hids hpos with ⟨hpage, hnone⟩ | ⟨last, rest, hlast, hsplit, hafter, hupTo⟩
  · rw [hpage] at hnext hrecords
    refine ⟨fun _ => ?_, fun next h => ?_, fun _ next h => ?_⟩
    · change _ = (collectRecipients _ _ _).1.length
      rw [hrecords, hnone]
      rfl
    · rw [hnext] at h
      cases h
    · rw [hnext] at h
      cases h
  · have hleft : source.left lower cursor .recipient =
        (findMany (·.id) source.recipientRows cursor batchSize ++ rest).filterMap (recipientRecord lower source) :=
      congrArg (filterMap _) hsplit
    rw [hlast, Option.map_some] at hnext
    generalize findMany (·.id) source.recipientRows cursor batchSize = page at hrecords hthen hsplit hleft hupTo
    have hbefore : ∀ k, k ∈ source.seenBefore lower (some last.id) ↔ k ∈ source.seenBefore lower cursor ∨
        ∃ r ∈ page.filterMap (recipientRecord lower source), recipientKey r = k := by
      intro k
      rw [Source.seenBefore, hupTo, filterMap_append, map_append, mem_append]
      exact or_congr_right mem_map
    -- what is left of the page and after it was seen in the batch if it was seen before in an uninterrupted scan
    have hagree : ∀ r ∈ rest.filterMap (recipientRecord lower source),
        recipientKey r ∈ (collectRecipients (recipientRecord lower source) seen page).2 ↔
          recipientKey r ∈ source.seenBefore lower (some last.id) := by
      intro r hr
      have hmem : r ∈ source.left lower cursor .recipient := by
        rw [hleft, filterMap_append]
        exact mem_append_right _ hr
      rw [mem_collectRecipients_seen, hbefore, hseen r hmem]
    have hsame : (collectRecipients (recipientRecord lower source) seen page).1 =
        (collectRecipients (recipientRecord lower source) (source.seenBefore lower cursor) page).1 := by
      refine collectRecipients_congr fun r hr => hseen r ?_
      rw [hleft, filterMap_append]
      exact mem_append_left _ hr
    have hrest : (collectRecipients (recipientRecord lower source)
        (collectRecipients (recipientRecord lower source) (source.seenBefore lower cursor) page).2 rest).1 =
          (collectRecipients (recipientRecord lower source) (source.seenBefore lower (some last.id)) rest).1 := by
      refine collectRecipients_congr fun r _ => ?_
      rw [mem_collectRecipients_seen, hbefore]
    refine ⟨fun h => ?_, fun next h => ?_, fun _ next h r hr => ?_⟩
    · rw [hnext] at h
      cases h
    · rw [hnext] at h
      cases h
      change _ + (collectRecipients _ _ _).1.length = (collectRecipients _ _ _).1.length
      dsimp only
      rw [hsplit, hafter, collectRecipients_append, length_append, hrecords, hsame, hrest]
    · rw [hnext] at h
      cases h
      rw [hthen]
      refine hagree r ?_
      have hafterLeft : source.left lower (some last.id) .recipient = rest.filterMap (recipientRecord lower source) :=
        congrArg (filterMap _) hafter
      rw [← hafterLeft]
      exact hr

theorem scanEntityBatch_counted (entityType : SearchIndexEntityType) (hnamed : source.Named) (hpos : 0 < batchSize)
    (hseen : entityType = .recipient → source.SeenRight lower cursor seen) :
    Counted lower source entityType cursor (scanEntityBatch lower source entityType cursor batchSize seen) := by
  cases entityType with
  | campaign =>
    exact scan_counted (by decide) (nodup_filter_map _ source.campaign_ids)
      (fun row hrow => hnamed.campaigns row (mem_of_mem_filter hrow)) hpos fun _ => rfl
  | claim =>
    exact scan_counted (by decide) (nodup_filter_map _ source.claim_ids)
      (fun row hrow => hnamed.claims row (mem_of_mem_filter hrow)) hpos fun _ => rfl
  | recipient => exact scanRecipients_counted hnamed hpos (hseen rfl)
  | verification =>
    exact scan_counted (by decide) (nodup_filter_map _ source.session_ids)
      (fun row hrow => hnamed.sessions row (mem_of_mem_filter hrow)) hpos fun _ => rfl

end Batch
section Counts
variable {lower : String → String} {source : Source} {entityTypes : List SearchIndexEntityType}
  {t : SearchIndexEntityType} {f g : SearchIndexEntityType → ℕ}

def EntityCounts.of (counts : EntityCounts) : SearchIndexEntityType → ℕ
  | .campaign => counts.campaign
  | .claim => counts.claim
  | .recipient => counts.recipient
  | .verification => counts.verification

/-- What is counted is what the requested types come to: the other types have no documents, an organisation is named
where there is one, and every recipient belongs to one organisation. -/
structure Source.Fits (source : Source) (entityTypes : List SearchIndexEntityType) : Prop where
  requested : ∀ t, t ∉ entityTypes → source.countDocuments.of t = 0
  campaigns : .campaign ∈ entityTypes → ∀ row ∈ source.campaignRows, row.orgId.or row.ngoId ≠ some ""
  claims : .claim ∈ entityTypes → ∀ row ∈ source.claimRows, source.claimOrg row ≠ some ""
  recipients : .recipient ∈ entityTypes → ∀ row ∈ source.recipientRows, ∃! orgId, ∃ other ∈ source.recipientRows,
    other.recipientRef = row.recipientRef ∧ orgOf (source.claimOrg other) = some orgId
  verifications : .verification ∈ entityTypes → ∀ row ∈ source.verificationRows, row.orgId ≠ some ""

variable {α : Type} {row : Claim}

theorem nodup_eraseDups [DecidableEq α] (l : List α) : l.eraseDups.Nodup := by
  induction hn : l.length using Nat.strong_induction_on generalizing l with
  | _ n ih =>
    cases l with
    | nil => exact nodup_nil
    | cons a l =>
      rw [eraseDups_cons, nodup_cons, mem_eraseDups]
      have hshorter : (l.filter fun b => !b == a).length < n := by
        have hle := length_filter_le (fun b => !b == a) l
        rw [length_cons] at hn
        omega
      refine ⟨fun ha => ?_, ih _ hshorter _ rfl⟩
      have hne := (mem_filter.mp ha).2
      simp at hne

theorem nodup_resolveEntityTypes (entityTypes : List SearchIndexEntityType) : (resolveEntityTypes entityTypes).Nodup := by
  rw [resolveEntityTypes]
  split
  · decide
  · exact nodup_eraseDups entityTypes

theorem filterMap_length {rows : List α} {record : α → Option IndexRecord}
    (h : ∀ row ∈ rows, (record row).isSome = true) : (rows.filterMap record).length = rows.length := by
  induction rows with
  | nil => rfl
  | cons row rows ih =>
    obtain ⟨r, hr⟩ := Option.isSome_iff_exists.mp (h row mem_cons_self)
    rw [filterMap_cons_some hr, length_cons, length_cons, ih fun row' hrow' => h row' (mem_cons_of_mem row hrow')]

theorem orgOf_isSome {orgId : Option String} (hnone : orgId ≠ none) (hempty : orgId ≠ some "") :
    (orgOf orgId).isSome = true := by
  obtain ⟨org, rfl⟩ := Option.ne_none_iff_exists'.mp hnone
  have hne : org ≠ "" := fun h => hempty (by rw [h])
  simp [orgOf, Option.filter_some, hne]

theorem collectRecipients_nodup (record : Claim → Option IndexRecord) : ∀ (rows : List Claim) (seen : List String),
    ((collectRecipients record seen rows).1.map recipientKey).Nodup ∧
      ∀ r ∈ (collectRecipients record seen rows).1, recipientKey r ∉ seen
  | [], seen => ⟨nodup_nil, fun _ h => absurd h not_mem_nil⟩
  | row :: rows, seen => by
    rw [collectRecipients]
    cases record row with
    | none => exact collectRecipients_nodup record rows seen
    | some r =>
      dsimp only
      by_cases hseen : recipientKey r ∈ seen
      · rw [if_pos hseen]
        exact collectRecipients_nodup record rows seen
      · rw [if_neg hseen]
        obtain ⟨hnodup, hnew⟩ := collectRecipients_nodup record rows (recipientKey r :: seen)
        refine ⟨?_, fun r' hr' => ?_⟩
        · refine nodup_cons.mpr ⟨fun hmem => ?_, hnodup⟩
          obtain ⟨r', hr', hkey⟩ := mem_map.mp hmem
          exact hnew r' hr' (hkey ▸ mem_cons_self)
        · rcases mem_cons.mp hr' with rfl | hr'
          · exact hseen
          · exact fun hold => hnew r' hr' (mem_cons_of_mem _ hold)

theorem recipientRecord_some {r : IndexRecord} (h : recipientRecord lower source row = some r) :
    row.recipientRef = r.entityId ∧ orgOf (source.claimOrg row) = some r.orgId := by
  rw [recipientRecord] at h
  split at h
  · cases h
  · obtain ⟨orgId, horg, rfl⟩ := Option.map_eq_some_iff.mp h
    exact ⟨rfl, horg⟩

theorem recipientRecord_of_org {org : String} (href : row.recipientRef ≠ "")
    (horg : orgOf (source.claimOrg row) = some org) :
    recipientRecord lower source row = some (recipientOf lower row.recipientRef org) := by
  rw [recipientRecord, if_neg href, horg]
  rfl

theorem recipients_count (h : source.Fits entityTypes) (hmem : .recipient ∈ entityTypes) :
    (collectRecipients (recipientRecord lower source) [] source.recipientRows).1.length =
      source.countDocuments.recipient := by
  obtain ⟨hfrom, hall, -⟩ := collectRecipients_spec (recipientRecord lower source) source.recipientRows []
  obtain ⟨hnodup, -⟩ := collectRecipients_nodup (recipientRecord lower source) source.recipientRows []
  generalize (collectRecipients (recipientRecord lower source) [] source.recipientRows).1 = collected at hfrom hall hnodup ⊢
  have hrow : ∀ r ∈ collected, ∃ row ∈ source.recipientRows, row.recipientRef = r.entityId ∧
      orgOf (source.claimOrg row) = some r.orgId := by
    intro r hr
    obtain ⟨row, hrow, hrecord⟩ := record_of_row (hfrom r hr)
    exact ⟨row, hrow, recipientRecord_some hrecord⟩
  have hids : (collected.map (·.entityId)).Nodup := by
    refine List.Nodup.map_on (fun r hr r' hr' hid => ?_) (List.Nodup.of_map _ hnodup)
    obtain ⟨row, hrow₁, href, horg⟩ := hrow r hr
    obtain ⟨row', hrow₁', href', horg'⟩ := hrow r' hr'
    have hsame : r.orgId = r'.orgId := (h.recipients hmem row hrow₁).unique ⟨row, hrow₁, rfl, horg⟩
      ⟨row', hrow₁', href'.trans (hid.symm.trans href.symm), horg'⟩
    have hkey : recipientKey r = recipientKey r' := by
      change r.orgId ++ "|" ++ r.entityId = r'.orgId ++ "|" ++ r'.entityId
      rw [hsame, hid]
    exact inj_on_of_nodup_map hnodup hr hr' hkey
  have hmembers : ∀ x, x ∈ collected.map (·.entityId) ↔
      x ∈ (source.recipientRows.map (·.recipientRef)).eraseDups := by
    intro x
    rw [mem_eraseDups, mem_map, mem_map]
    constructor
    · rintro ⟨r, hr, rfl⟩
      obtain ⟨row, hrow, href, -⟩ := hrow r hr
      exact ⟨row, hrow, href⟩
    · rintro ⟨row, hrow₁, rfl⟩
      obtain ⟨org, other, hother, href, horg⟩ := (h.recipients hmem row hrow₁).exists
      have hnonempty : other.recipientRef ≠ "" := (of_decide_eq_true (mem_filter.mp hother).2).2.1
      have hrecord : recipientOf lower other.recipientRef org ∈
          source.recipientRows.filterMap (recipientRecord lower source) :=
        mem_filterMap.mpr ⟨other, hother, recipientRecord_of_org hnonempty horg⟩
      obtain ⟨r, hr, hkey⟩ := (hall _ hrecord).resolve_left not_mem_nil
      rw [recipientKey_inj (hfrom r hr) hrecord hkey] at hr
      exact ⟨_, hr, href⟩
  have hperm := (perm_ext_iff_of_nodup hids (nodup_eraseDups _)).mpr hmembers
  rw [← length_map (·.entityId), hperm.length_eq]
  rfl

theorem remaining_start (h : source.Fits entityTypes) (hmem : t ∈ entityTypes) :
    source.remaining lower t {} = source.countDocuments.of t := by
  cases t with
  | campaign =>
    rw [remaining_left (by decide)]
    change (source.campaignRows.filterMap (campaignRecord lower)).length = source.campaigns.countP _
    rw [length_filterMap_eq_countP, Source.campaignRows, countP_filter]
    refine countP_congr fun row hrow => ?_
    by_cases hdeleted : row.deletedAt = none
    · have hnamed := h.campaigns hmem row (mem_filter.mpr ⟨hrow, decide_eq_true hdeleted⟩)
      have horg : (orgOf (row.orgId.or row.ngoId)).isSome = true ↔ row.orgId ≠ none ∨ row.ngoId ≠ none := by
        rw [ne_eq, ne_eq, ← not_and_or, ← Option.or_eq_none_iff]
        refine ⟨fun hsome hnone => ?_, fun hne => orgOf_isSome hne hnamed⟩
        rw [hnone] at hsome
        cases hsome
      rw [campaignRecord, Option.isSome_map, Bool.and_eq_true, horg]
      simp [hdeleted]
    · simp [hdeleted]
  | claim =>
    rw [remaining_left (by decide)]
    refine filterMap_length fun row hrow => ?_
    have horg := (of_decide_eq_true (mem_filter.mp hrow).2).2
    rw [claimRecord, Option.isSome_map]
    exact orgOf_isSome horg (h.claims hmem row hrow)
  | recipient =>
    change (collectRecipients _ (source.seenBefore lower none) source.recipientRows).1.length = _
    have hnothing : source.seenBefore lower none = [] := by
      have hupTo : upTo (·.id) source.recipientRows none = [] := by
        change source.recipientRows.take (source.recipientRows.length - source.recipientRows.length) = []
        rw [Nat.sub_self, take_zero]
      rw [Source.seenBefore, hupTo]
      rfl
    rw [hnothing]
    exact recipients_count h hmem
  | verification =>
    rw [remaining_left (by decide)]
    change (source.verificationRows.filterMap (verificationRecord lower)).length = source.verificationRows.length
    refine filterMap_length fun row hrow => ?_
    have horg := (of_decide_eq_true (mem_filter.mp hrow).2).2
    rw [verificationRecord, Option.isSome_map]
    exact orgOf_isSome horg (h.verifications hmem row hrow)

theorem sum_of_requested (hnodup : entityTypes.Nodup) (hf : ∀ t, t ∉ entityTypes → f t = 0) :
    (entityTypes.map f).sum = (searchIndexEntityTypes.map f).sum := by
  rw [← sum_toFinset f hnodup, ← sum_toFinset f (by decide)]
  refine Finset.sum_subset (fun t _ => ?_) fun t _ ht => hf t fun hmem => ht (mem_toFinset.mpr hmem)
  cases t with
  | _ => decide

theorem counts_total (counts : EntityCounts) : counts.total = (searchIndexEntityTypes.map counts.of).sum := by
  simp [searchIndexEntityTypes, EntityCounts.of, EntityCounts.total, Nat.add_assoc]

theorem remainingOf_start (h : source.Fits entityTypes) (hnodup : entityTypes.Nodup) :
    source.remainingOf lower entityTypes emptyCheckpoint = source.countDocuments.total := by
  rw [counts_total, ← sum_of_requested hnodup h.requested, Source.remainingOf]
  exact congrArg sum (map_congr_left fun t ht => remaining_start h ht)

theorem sum_step (hnodup : entityTypes.Nodup) (ht : t ∈ entityTypes) (hothers : ∀ t', t' ≠ t → f t' = g t') {n : ℕ}
    (hstep : n + f t = g t) : n + (entityTypes.map f).sum = (entityTypes.map g).sum := by
  induction entityTypes with
  | nil => cases ht
  | cons a entityTypes ih =>
    rw [nodup_cons] at hnodup
    rw [map_cons, map_cons, sum_cons, sum_cons]
    by_cases hat : a = t
    · subst hat
      have hrest : entityTypes.map f = entityTypes.map g :=
        map_congr_left fun t' ht' => hothers t' fun heq => hnodup.1 (heq ▸ ht')
      rw [hrest]
      omega
    · have hmem : t ∈ entityTypes := (mem_cons.mp ht).resolve_left fun heq => hat heq.symm
      have hrest := ih hnodup.2 hmem
      rw [hothers a hat]
      omega

end Counts
end Soter.Search
