import Soter.Claims.Records
import Soter.Lib.Buffer
import Soter.Lib.Calendar
import Soter.Lib.JsonRoundTrip
import Soter.Lib.Keyset

/-! The review queue of claims (`VerificationService.getReviewQueue`), by page number or after a cursor. -/
namespace Soter.Verification.ReviewQueue
open Soter.Json Soter.Buffers Soter.Calendar Soter.Keyset Soter.Claims List Option

/-- A `Date` that is not invalid. -/
structure Timestamp where
  ms : ℤ
  isTime : IsTime ms
  deriving DecidableEq

theorem Timestamp.ms_injective : Function.Injective Timestamp.ms := by
  intro t t' h
  cases t
  cases t'
  simpa using h

/-- A `Date`; `none` is `Invalid Date`. -/
abbrev Date := Option Timestamp

/-- `new Date(text)`. What `toISOString` writes is read back; the other formats, among them those of local time,
are the engine's. -/
def newDate (otherFormats : Json.Text → Date) (text : Json.Text) : Date :=
  ((readISOString text).pmap Timestamp.mk fun _ ht => (readISOString_eq_some.mp ht).1).or (otherFormats text)

theorem newDate_toISOString (otherFormats : Json.Text → Date) (t : Timestamp) :
    newDate otherFormats (toISOString t.ms) = some t := by
  have hread : readISOString (toISOString t.ms) = some t.ms := readISOString_eq_some.mpr ⟨t.isTime, rfl⟩
  have hdate : (readISOString (toISOString t.ms)).pmap Timestamp.mk (fun _ ht => (readISOString_eq_some.mp ht).1) = some t :=
    pmap_eq_some_iff.mpr ⟨t.ms, t.isTime, hread, rfl⟩
  rw [newDate, hdate, some_or]

inductive ReviewQueuePaginationMode
  | page
  | cursor
  deriving DecidableEq

structure ReviewQueueQueryDto where
  paginationMode : Option ReviewQueuePaginationMode := none
  status : Option (List ClaimStatus) := none
  campaignId : Option Json.Text := none
  fromDate : Option Json.Text := none
  toDate : Option Json.Text := none
  page : Option ℕ := none
  limit : Option ℕ := none
  cursor : Option Json.Text := none

def truthy (text : Option Json.Text) : Option Json.Text := text.filter (· ≠ [])

def ReviewQueueQueryDto.getPaginationMode (query : ReviewQueueQueryDto) : ReviewQueuePaginationMode :=
  match query.paginationMode with
  | some mode => mode
  | none => if (truthy query.cursor).isSome then .cursor else .page

/-- `/^[A-Za-z0-9_-]+$/`. -/
def isOpaqueCursor (cursor : Json.Text) : Bool :=
  cursor ≠ [] && cursor.all fun c => c.isAlphanum || c = '_' || c = '-'

/-- A claim as the queue lists it: the columns that the queue reads, and the other ones with the campaign. -/
structure ReviewQueueItem (Columns : Type) where
  id : Json.Text
  createdAt : Timestamp
  status : ClaimStatus
  campaignId : Json.Text
  columns : Columns

/-- `Prisma.ClaimWhereInput`, in the shapes that the queue builds. -/
inductive ClaimWhereInput
  | statusIn (status : List ClaimStatus)
  | campaignId (id : Json.Text)
  | createdWithin (gte lte : Option Date)
  | createdBefore (lt : Date)
  | createdAtBefore (createdAt : Date) (lt : Json.Text)
  | or (first second : ClaimWhereInput)

def ClaimWhereInput.dates : ClaimWhereInput → List Date
  | .statusIn _ | .campaignId _ => []
  | .createdWithin gte lte => gte.toList ++ lte.toList
  | .createdBefore date | .createdAtBefore date _ => [date]
  | .or first second => first.dates ++ second.dates

section Find
variable {Columns O : Type} [LinearOrder O] (collate : Json.Text → O)

/-- Whether a row meets a condition on dates that are valid. The strings of a column are compared as the
database's collation orders them. -/
def ClaimWhereInput.holds (row : ReviewQueueItem Columns) : ClaimWhereInput → Bool
  | .statusIn status => row.status ∈ status
  | .campaignId id => row.campaignId = id
  | .createdWithin gte lte =>
    (gte.all fun date => date.any fun t => t.ms ≤ row.createdAt.ms) &&
      lte.all fun date => date.any fun t => row.createdAt.ms ≤ t.ms
  | .createdBefore date => date.any fun t => row.createdAt.ms < t.ms
  | .createdAtBefore date id => date.any (fun t => row.createdAt = t) && collate row.id < collate id
  | .or first second => first.holds row || second.holds row

/-- `[{ createdAt: 'desc' }, { id: 'desc' }]` goes from the greatest of these keys down. -/
def orderKey (row : ReviewQueueItem Columns) : ℤ ×ₗ O := toLex (row.createdAt.ms, collate row.id)

inductive Rejection
  | app (code : String) (status : ℕ) (message : String)
  /-- The request does not pass the checks of its DTO. -/
  | badRequest (message : String)
  /-- Prisma refuses the arguments of a query. -/
  | prismaValidation
  deriving DecidableEq

variable (claims : List (ReviewQueueItem Columns))

def selected (conditions : List ClaimWhereInput) : List (ReviewQueueItem Columns) :=
  claims.filter fun row => conditions.all (·.holds collate row)

def Accepted (conditions : List ClaimWhereInput) : Prop :=
  (conditions.all fun condition => condition.dates.all isSome) = true

instance (conditions : List ClaimWhereInput) : Decidable (Accepted conditions) :=
  inferInstanceAs (Decidable (_ = true))

/-- `prisma.claim.findMany`. -/
def findMany (conditions : List ClaimWhereInput) (skip take : ℕ) :
    Except Rejection (List (ReviewQueueItem Columns)) :=
  if Accepted conditions then
    .ok (((descending (orderKey collate) (selected collate claims conditions)).drop skip).take take)
  else .error .prismaValidation

/-- `prisma.claim.count`. -/
def count (conditions : List ClaimWhereInput) : Except Rejection ℕ :=
  if Accepted conditions then
    .ok (selected collate claims conditions).length
  else .error .prismaValidation

end Find
section Cursor
variable {Columns Num : Type} (numerals : Numerals Num)

structure ReviewQueueCursorPayload where
  createdAt : Json.Text
  id : Json.Text
  deriving DecidableEq

def invalidCursor : Rejection := .app "AI_VERIFICATION_FAILED" 400 "Invalid review queue cursor"

def encodeReviewQueueCursor (item : ReviewQueueItem Columns) : Json.Text :=
  toBase64url (toUtf8 (stringify numerals 0 (.obj
    [("createdAt".toList, .str (toISOString item.createdAt.ms)), ("id".toList, .str item.id)])))

def stringProperty (key : Json.Text) : Value Num → Option Json.Text
  | .obj members =>
    match members.lookup key with
    | some (.str text) => some text
    | _ => none
  | _ => none

def decodeReviewQueueCursor (otherFormats : Json.Text → Date) (cursor : Json.Text) :
    Except Rejection ReviewQueueCursorPayload :=
  match parse numerals (fromUtf8 (fromBase64url cursor)) with
  | none => .error invalidCursor
  | some parsed =>
    match stringProperty "createdAt".toList parsed, stringProperty "id".toList parsed with
    | some createdAt, some id =>
      match newDate otherFormats createdAt with
      | some date => .ok { createdAt := toISOString date.ms, id }
      | none => .error invalidCursor
    | _, _ => .error invalidCursor

def buildCursorFilter (otherFormats : Json.Text → Date) (cursor : ReviewQueueCursorPayload) : ClaimWhereInput :=
  let cursorCreatedAt := newDate otherFormats cursor.createdAt
  .or (.createdBefore cursorCreatedAt) (.createdAtBefore cursorCreatedAt cursor.id)

end Cursor
section Service

structure AppliedFilters where
  status : Option (List ClaimStatus)
  campaignId : Option Json.Text
  fromDate : Option Json.Text
  toDate : Option Json.Text

inductive Pagination
  | page (page limit totalItems totalPages : ℕ) (hasNextPage : Bool)
  | cursor (limit : ℕ) (nextCursor : Option Json.Text) (hasNextPage : Bool)

structure ReviewQueueResponse (Columns : Type) where
  items : List (ReviewQueueItem Columns)
  pagination : Pagination
  filters : AppliedFilters

def ReviewQueueQueryDto.statuses (query : ReviewQueueQueryDto) : Option (List ClaimStatus) :=
  query.status.filter (· ≠ [])

def buildReviewQueueFilters (otherFormats : Json.Text → Date) (query : ReviewQueueQueryDto) : List ClaimWhereInput :=
  (query.statuses.map .statusIn).toList ++
    (truthy query.campaignId).toList.map .campaignId ++
      if (truthy query.fromDate).isSome || (truthy query.toDate).isSome then
        [.createdWithin ((truthy query.fromDate).map (newDate otherFormats))
          ((truthy query.toDate).map (newDate otherFormats))]
      else []

def buildAppliedFilters (query : ReviewQueueQueryDto) : AppliedFilters where
  status := query.statuses
  campaignId := truthy query.campaignId
  fromDate := truthy query.fromDate
  toDate := truthy query.toDate

/-- `Math.ceil(totalItems / limit)`. -/
def ceilDiv (totalItems limit : ℕ) : ℕ := (totalItems + limit - 1) / limit

variable {Columns Num O : Type} [LinearOrder O] (numerals : Numerals Num) (otherFormats : Json.Text → Date)
  (collate : Json.Text → O) (claims : List (ReviewQueueItem Columns))

def cursorFilter (query : ReviewQueueQueryDto) : Except Rejection (List ClaimWhereInput) :=
  match truthy query.cursor with
  | none => .ok []
  | some cursor => do
    let payload ← decodeReviewQueueCursor numerals otherFormats cursor
    .ok [buildCursorFilter otherFormats payload]

def getReviewQueue (query : ReviewQueueQueryDto) : Except Rejection (ReviewQueueResponse Columns) := do
  let limit := query.limit.getD 20
  let filters := buildReviewQueueFilters otherFormats query
  match query.getPaginationMode with
  | .cursor =>
    let after ← cursorFilter numerals otherFormats query
    let items ← findMany collate claims (filters ++ after) 0 (limit + 1)
    let hasNextPage := limit < items.length
    let pageItems := items.take limit
    let nextCursor := if hasNextPage then pageItems.getLast?.map (encodeReviewQueueCursor numerals) else none
    .ok { items := pageItems
          pagination := .cursor limit nextCursor hasNextPage
          filters := buildAppliedFilters query }
  | .page =>
    let page := query.page.getD 1
    let skip := (page - 1) * limit
    let items ← findMany collate claims filters skip limit
    let totalItems ← count collate claims filters
    .ok { items
          pagination := .page page limit totalItems (if totalItems = 0 then 0 else ceilDiv totalItems limit)
            (skip + items.length < totalItems)
          filters := buildAppliedFilters query }

def Pagination.nextCursor : Pagination → Option Json.Text
  | .page .. => none
  | .cursor _ nextCursor _ => nextCursor

def ReviewQueueQueryDto.at (query : ReviewQueueQueryDto) (cursor : Option Json.Text) : ReviewQueueQueryDto :=
  { query with paginationMode := some .cursor, page := none, cursor }

/-- The page of the queue at a cursor, or its first page. A cursor has to pass the check of the DTO. -/
def pageAt (query : ReviewQueueQueryDto) (cursor : Option Json.Text) :
    Except Rejection (List (ReviewQueueItem Columns) × Option Json.Text) :=
  if cursor.all isOpaqueCursor then do
    let response ← getReviewQueue numerals otherFormats collate claims (query.at cursor)
    .ok (response.items, response.pagination.nextCursor)
  else .error (.badRequest "cursor must be a valid opaque cursor string")

end Service
section Codec
variable {Columns Num : Type} {numerals : Numerals Num} {otherFormats : Json.Text → Date}
  {item : ReviewQueueItem Columns}

theorem opaque_digit : ∀ d, ((digit d).isAlphanum || digit d = '_' || digit d = '-') = true := by decide

theorem sextets_ne_nil {bs : List Byte} (h : bs ≠ []) : sextets bs ≠ [] := by
  intro hnil
  have hbytes := bytes_sextets bs
  rw [hnil] at hbytes
  exact h hbytes.symm

theorem isOpaqueCursor_encode : isOpaqueCursor (encodeReviewQueueCursor numerals item) = true := by
  rw [isOpaqueCursor, Bool.and_eq_true]
  constructor
  · refine decide_eq_true fun hnil => ?_
    refine sextets_ne_nil (fun hbytes => ?_) (map_eq_nil_iff.mp hnil)
    have hbrace : utf8Char '\x7b' ≠ [] := by decide
    exact hbrace (flatMap_eq_nil_iff.mp hbytes '\x7b' mem_cons_self)
  · apply all_eq_true.mpr
    intro c hc
    obtain ⟨d, -, rfl⟩ := mem_map.mp hc
    exact opaque_digit d

theorem encode_ne_nil : encodeReviewQueueCursor numerals item ≠ [] := by
  have hopaque : isOpaqueCursor (encodeReviewQueueCursor numerals item) = true := isOpaqueCursor_encode
  rw [isOpaqueCursor, Bool.and_eq_true] at hopaque
  exact of_decide_eq_true hopaque.1

def payloadOf (item : ReviewQueueItem Columns) : Value Num :=
  .obj [("createdAt".toList, .str (toISOString item.createdAt.ms)), ("id".toList, .str item.id)]

theorem payloadOf_wf : (payloadOf item : Value Num).WF := by
  have hkeys : ["createdAt".toList, "id".toList].Nodup := by decide
  refine .obj hkeys ?_
  intro m hm
  rcases mem_cons.mp hm with rfl | hm
  · exact .str _
  · rw [mem_singleton.mp hm]
    exact .str _

theorem payloadOf_visited : (payloadOf item : Value Num).visited = payloadOf item := rfl

theorem decode_encode : decodeReviewQueueCursor numerals otherFormats (encodeReviewQueueCursor numerals item) =
    .ok { createdAt := toISOString item.createdAt.ms, id := item.id } := by
  have hread : parse numerals (fromUtf8 (fromBase64url (encodeReviewQueueCursor numerals item))) =
      some (payloadOf item) := by
    rw [encodeReviewQueueCursor, fromBase64url_toBase64url, fromUtf8_toUtf8]
    exact (parse_stringify payloadOf_wf).trans (congrArg some payloadOf_visited)
  have hcreatedAt : stringProperty "createdAt".toList (payloadOf item : Value Num) =
      some (toISOString item.createdAt.ms) := rfl
  have hid : stringProperty "id".toList (payloadOf item : Value Num) = some item.id := rfl
  rw [decodeReviewQueueCursor, hread]
  dsimp only
  rw [hcreatedAt, hid]
  dsimp only
  rw [newDate_toISOString]

end Codec
section Exact
variable {Columns Num O : Type} [LinearOrder O] {numerals : Numerals Num} {otherFormats : Json.Text → Date}
  {collate : Json.Text → O} {claims : List (ReviewQueueItem Columns)} {query : ReviewQueueQueryDto}
  {conditions : List ClaimWhereInput} {row x : ReviewQueueItem Columns} {cursor : Option Json.Text}

structure Matches (otherFormats : Json.Text → Date) (query : ReviewQueueQueryDto) (row : ReviewQueueItem Columns) :
    Prop where
  status : ∀ status ∈ query.status, status ≠ [] → row.status ∈ status
  campaignId : ∀ id ∈ truthy query.campaignId, row.campaignId = id
  fromDate : ∀ text ∈ truthy query.fromDate, ∀ t ∈ newDate otherFormats text, t.ms ≤ row.createdAt.ms
  toDate : ∀ text ∈ truthy query.toDate, ∀ t ∈ newDate otherFormats text, row.createdAt.ms ≤ t.ms

structure ReadableDates (otherFormats : Json.Text → Date) (query : ReviewQueueQueryDto) : Prop where
  fromDate : ∀ text ∈ truthy query.fromDate, newDate otherFormats text ≠ none
  toDate : ∀ text ∈ truthy query.toDate, newDate otherFormats text ≠ none

theorem accepted_append {others : List ClaimWhereInput} :
    Accepted (conditions ++ others) ↔ Accepted conditions ∧ Accepted others := by
  rw [Accepted, all_append, Bool.and_eq_true]
  exact Iff.rfl

theorem accepted_createdWithin {gte lte : Option Date} :
    Accepted [.createdWithin gte lte] ↔ (∀ date ∈ gte, date ≠ none) ∧ ∀ date ∈ lte, date ≠ none := by
  cases gte <;> cases lte <;> simp [Accepted, ClaimWhereInput.dates, isSome_iff_ne_none]

theorem accepted_filters : Accepted (buildReviewQueueFilters otherFormats query) ↔
    ReadableDates otherFormats query := by
  have hstatus : Accepted (query.statuses.map ClaimWhereInput.statusIn).toList := by
    cases query.statuses <;> rfl
  have hcampaign : Accepted ((truthy query.campaignId).toList.map ClaimWhereInput.campaignId) := by
    cases truthy query.campaignId <;> rfl
  rw [buildReviewQueueFilters, accepted_append, accepted_append]
  constructor
  · intro h
    have hdates := h.2
    split at hdates
    · rw [accepted_createdWithin] at hdates
      exact ⟨fun text htext => hdates.1 _ (mem_map_of_mem _ htext), fun text htext => hdates.2 _ (mem_map_of_mem _ htext)⟩
    · rename_i hnone
      rw [Bool.not_eq_true, Bool.or_eq_false_iff, isSome_eq_false_iff, isSome_eq_false_iff,
        isNone_iff_eq_none, isNone_iff_eq_none] at hnone
      refine ⟨fun text htext => ?_, fun text htext => ?_⟩
      · cases hnone.1.symm.trans htext
      · cases hnone.2.symm.trans htext
  · intro h
    refine ⟨⟨hstatus, hcampaign⟩, ?_⟩
    split
    · refine accepted_createdWithin.mpr ⟨fun date hdate => ?_, fun date hdate => ?_⟩
      · obtain ⟨text, htext, rfl⟩ := mem_map.mp hdate
        exact h.fromDate text htext
      · obtain ⟨text, htext, rfl⟩ := mem_map.mp hdate
        exact h.toDate text htext
    · rfl

theorem holds_toList {condition : Option ClaimWhereInput} :
    condition.toList.all (·.holds collate row) = true ↔ ∀ c ∈ condition, c.holds collate row = true := by
  cases condition <;> simp

theorem holds_within {text : Option Json.Text} (within : Timestamp → Bool)
    (hreadable : ∀ t ∈ text, newDate otherFormats t ≠ none) :
    ((text.map (newDate otherFormats)).all fun date => date.any within) = true ↔
      ∀ t ∈ text, ∀ time ∈ newDate otherFormats t, within time = true := by
  cases text with
  | none => simp
  | some text =>
    obtain ⟨time, htime⟩ := ne_none_iff_exists'.mp (hreadable text rfl)
    simp [htime]

theorem mem_selected (hreadable : ReadableDates otherFormats query) :
    row ∈ selected collate claims (buildReviewQueueFilters otherFormats query) ↔
      row ∈ claims ∧ Matches otherFormats query row := by
  have hstatus : (query.statuses.map ClaimWhereInput.statusIn).toList.all (·.holds collate row) = true ↔
      ∀ status ∈ query.status, status ≠ [] → row.status ∈ status := by
    rw [holds_toList, ReviewQueueQueryDto.statuses]
    cases query.status with
    | none => simp
    | some status => by_cases hempty : status = [] <;> simp [hempty, ClaimWhereInput.holds]
  have hcampaign : ((truthy query.campaignId).toList.map ClaimWhereInput.campaignId).all
      (·.holds collate row) = true ↔ ∀ id ∈ truthy query.campaignId, row.campaignId = id := by
    cases truthy query.campaignId <;> simp [ClaimWhereInput.holds]
  have hdates : (if (truthy query.fromDate).isSome || (truthy query.toDate).isSome then
        [ClaimWhereInput.createdWithin ((truthy query.fromDate).map (newDate otherFormats))
          ((truthy query.toDate).map (newDate otherFormats))] else []).all (·.holds collate row) = true ↔
      (∀ text ∈ truthy query.fromDate, ∀ t ∈ newDate otherFormats text, t.ms ≤ row.createdAt.ms) ∧
        ∀ text ∈ truthy query.toDate, ∀ t ∈ newDate otherFormats text, row.createdAt.ms ≤ t.ms := by
    have hfrom := holds_within (fun t => t.ms ≤ row.createdAt.ms) hreadable.fromDate
    have hto := holds_within (fun t => row.createdAt.ms ≤ t.ms) hreadable.toDate
    simp only [decide_eq_true_eq] at hfrom hto
    rw [← hfrom, ← hto]
    split
    · rw [all_cons, all_nil, Bool.and_true, ClaimWhereInput.holds, Bool.and_eq_true]
    · rename_i hnone
      rw [Bool.not_eq_true, Bool.or_eq_false_iff, isSome_eq_false_iff, isSome_eq_false_iff,
        isNone_iff_eq_none, isNone_iff_eq_none] at hnone
      rw [hnone.1, hnone.2]
      exact ⟨fun _ => ⟨rfl, rfl⟩, fun _ => rfl⟩
  rw [selected, mem_filter, buildReviewQueueFilters, all_append, all_append, Bool.and_eq_true,
    Bool.and_eq_true, hstatus, hcampaign, hdates]
  constructor
  · intro h
    obtain ⟨hrow, ⟨hst, hca⟩, hfrom, hto⟩ := h
    exact ⟨hrow, hst, hca, hfrom, hto⟩
  · intro h
    obtain ⟨hrow, hst, hca, hfrom, hto⟩ := h
    exact ⟨hrow, ⟨hst, hca⟩, hfrom, hto⟩

theorem holds_cursor : (buildCursorFilter otherFormats
    { createdAt := toISOString x.createdAt.ms, id := x.id }).holds collate row = true ↔
      orderKey collate row < orderKey collate x := by
  rw [buildCursorFilter, newDate_toISOString]
  simp only [ClaimWhereInput.holds, any_some, Bool.or_eq_true, Bool.and_eq_true, decide_eq_true_eq,
    orderKey, Prod.Lex.toLex_lt_toLex]
  constructor
  · intro h
    rcases h with hlt | ⟨heq, hlt⟩
    · exact .inl hlt
    · exact .inr ⟨congrArg Timestamp.ms heq, hlt⟩
  · intro h
    rcases h with hlt | ⟨heq, hlt⟩
    · exact .inl hlt
    · exact .inr ⟨Timestamp.ms_injective heq, hlt⟩

theorem selected_cursor : selected collate claims (conditions ++ [buildCursorFilter otherFormats
      { createdAt := toISOString x.createdAt.ms, id := x.id }]) =
    (selected collate claims conditions).filter fun y => orderKey collate y < orderKey collate x := by
  rw [selected, selected, List.filter_filter]
  apply List.filter_congr
  intro y _
  rw [all_append, all_cons, all_nil, Bool.and_true, Bool.and_comm, Bool.eq_iff_iff,
    Bool.and_eq_true, Bool.and_eq_true, holds_cursor, decide_eq_true_eq]

theorem nodup_orderKey (hids : (claims.map ReviewQueueItem.id).Nodup) (hcollate : Function.Injective collate) :
    ((selected collate claims conditions).map (orderKey collate)).Nodup := by
  have hkeys : (claims.map (orderKey collate)).Nodup := by
    refine List.Nodup.of_map (fun k => (ofLex k).2) ?_
    rw [List.map_map]
    have hcollated : (claims.map fun row => collate row.id).Nodup := by
      have hmapped := hids.map hcollate
      rw [List.map_map] at hmapped
      exact hmapped
    exact hcollated
  exact hkeys.sublist (List.filter_sublist.map _)

/-- A page after a cursor: the first rows of those that are left, and the cursor of the last one if there are
more. -/
theorem getReviewQueue_cursor (after : List ClaimWhereInput) {rows : List (ReviewQueueItem Columns)}
    (hmode : query.getPaginationMode = .cursor) (hafter : cursorFilter numerals otherFormats query = .ok after)
    (haccepted : Accepted (buildReviewQueueFilters otherFormats query ++ after))
    (hrows : descending (orderKey collate)
      (selected collate claims (buildReviewQueueFilters otherFormats query ++ after)) = rows) :
    getReviewQueue numerals otherFormats collate claims query =
      .ok { items := rows.take (query.limit.getD 20)
            pagination := .cursor (query.limit.getD 20)
              (if query.limit.getD 20 < rows.length then
                (rows.take (query.limit.getD 20)).getLast?.map (encodeReviewQueueCursor numerals) else none)
              (query.limit.getD 20 < rows.length)
            filters := buildAppliedFilters query } := by
  have hfind : findMany collate claims (buildReviewQueueFilters otherFormats query ++ after) 0
      (query.limit.getD 20 + 1) = .ok (rows.take (query.limit.getD 20 + 1)) := by
    rw [findMany, if_pos haccepted, hrows, drop_zero]
  have hlonger : query.limit.getD 20 < (rows.take (query.limit.getD 20 + 1)).length ↔
      query.limit.getD 20 < rows.length := by
    rw [length_take]
    omega
  have hitems : (rows.take (query.limit.getD 20 + 1)).take (query.limit.getD 20) =
      rows.take (query.limit.getD 20) := by
    rw [take_take, min_eq_left (Nat.le_succ _)]
  rw [getReviewQueue]
  simp only [hmode, hafter, hfind, bind, Except.bind, hlonger, hitems]

def LeftAt (numerals : Numerals Num) (all : List (ReviewQueueItem Columns)) (cursor : Option Json.Text)
    (rows : List (ReviewQueueItem Columns)) : Prop :=
  match cursor with
  | none => rows = all
  | some c => ∃ before x, all = before ++ x :: rows ∧ c = encodeReviewQueueCursor numerals x

theorem pageAt_eq {response : ReviewQueueResponse Columns} (hcursor : cursor.all isOpaqueCursor = true)
    (h : getReviewQueue numerals otherFormats collate claims (query.at cursor) = .ok response) :
    pageAt numerals otherFormats collate claims query cursor =
      .ok (response.items, response.pagination.nextCursor) := by
  rw [pageAt, if_pos hcursor, h]
  rfl

theorem limit_pos (hlimit : query.limit ≠ some 0) : 0 < query.limit.getD 20 := by
  cases hlim : query.limit with
  | none => decide
  | some n => exact Nat.pos_of_ne_zero fun hzero => hlimit (hlim.trans (congrArg some hzero))

theorem pages_pageAt (hids : (claims.map ReviewQueueItem.id).Nodup) (hcollate : Function.Injective collate)
    (hlimit : query.limit ≠ some 0) (hreadable : ReadableDates otherFormats query) :
    Pages (pageAt numerals otherFormats collate claims query) (query.limit.getD 20)
      (LeftAt numerals (descending (orderKey collate)
        (selected collate claims (buildReviewQueueFilters otherFormats query)))) := by
  intro cursor rows hleft
  have hpos : 0 < query.limit.getD 20 := limit_pos hlimit
  have hnodup : ((selected collate claims (buildReviewQueueFilters otherFormats query)).map
      (orderKey collate)).Nodup := nodup_orderKey hids hcollate
  have hfilters : Accepted (buildReviewQueueFilters otherFormats query) := accepted_filters.mpr hreadable
  -- where the rows that are left end, and that the code finds them
  obtain ⟨before, hsplit⟩ : ∃ before, descending (orderKey collate)
      (selected collate claims (buildReviewQueueFilters otherFormats query)) = before ++ rows := by
    cases cursor with
    | none => exact ⟨[], hleft.symm⟩
    | some c =>
      obtain ⟨before, x, hall, -⟩ := hleft
      exact ⟨before ++ [x], by rw [hall, append_assoc]; rfl⟩
  have hpage : pageAt numerals otherFormats collate claims query cursor =
      .ok (rows.take (query.limit.getD 20), if query.limit.getD 20 < rows.length then
        (rows.take (query.limit.getD 20)).getLast?.map (encodeReviewQueueCursor numerals) else none) := by
    cases cursor with
    | none =>
      refine pageAt_eq rfl (getReviewQueue_cursor [] rfl rfl ?_ ?_)
      · exact accepted_append.mpr ⟨hfilters, rfl⟩
      · rw [append_nil]
        exact hleft.symm
    | some c =>
      obtain ⟨before', x, hall, rfl⟩ := hleft
      have hopaque : (some (encodeReviewQueueCursor numerals x)).all isOpaqueCursor = true := isOpaqueCursor_encode
      refine pageAt_eq hopaque (getReviewQueue_cursor [buildCursorFilter otherFormats
        { createdAt := toISOString x.createdAt.ms, id := x.id }] rfl ?_ ?_ ?_)
      · have hcursor : truthy (some (encodeReviewQueueCursor numerals x)) =
            some (encodeReviewQueueCursor numerals x) := by
          rw [truthy, filter_some, if_pos (decide_eq_true encode_ne_nil)]
        rw [cursorFilter, ReviewQueueQueryDto.at]
        simp only [hcursor, decode_encode, bind, Except.bind]
      · refine accepted_append.mpr ⟨hfilters, ?_⟩
        simp [Accepted, buildCursorFilter, newDate_toISOString, ClaimWhereInput.dates]
      · rw [selected_cursor]
        exact filter_lt_of_split hnodup hall
  refine ⟨_, hpage, ?_, ?_⟩
  · intro hnone
    by_contra hlong
    rw [if_pos (not_le.mp hlong), map_eq_none_iff, getLast?_eq_none_iff, take_eq_nil_iff] at hnone
    rcases hnone with hzero | hnil
    · exact absurd hzero hpos.ne'
    · rw [hnil] at hlong
      exact hlong (Nat.zero_le _)
  · intro c hc
    split at hc
    · rename_i hlong
      obtain ⟨x, hlast, rfl⟩ := map_eq_some_iff.mp hc
      obtain ⟨init, hinit⟩ := getLast?_eq_some_iff.mp hlast
      refine ⟨hlong, before ++ init, x, ?_, rfl⟩
      calc descending (orderKey collate) (selected collate claims (buildReviewQueueFilters otherFormats query))
        _ = before ++ (rows.take (query.limit.getD 20) ++ rows.drop (query.limit.getD 20)) := by
          rw [take_append_drop, hsplit]
        _ = before ++ init ++ x :: rows.drop (query.limit.getD 20) := by
          rw [hinit, append_assoc, append_assoc]
          rfl
    · cases hc

theorem pageAt_refused (hunreadable : ¬ ReadableDates otherFormats query) (cursor : Option Json.Text) :
    ∃ e, pageAt numerals otherFormats collate claims query cursor = .error e := by
  have hrejected (after : List ClaimWhereInput) :
      ¬ Accepted (buildReviewQueueFilters otherFormats query ++ after) := fun h =>
    hunreadable (accepted_filters.mp (accepted_append.mp h).1)
  rw [pageAt]
  split
  · have hmode : (query.at cursor).getPaginationMode = .cursor := rfl
    have hfilters : buildReviewQueueFilters otherFormats (query.at cursor) =
        buildReviewQueueFilters otherFormats query := rfl
    rw [getReviewQueue]
    simp only [hmode, hfilters, bind, Except.bind]
    cases cursorFilter numerals otherFormats (query.at cursor) with
    | error e => exact ⟨e, rfl⟩
    | ok after =>
      refine ⟨.prismaValidation, ?_⟩
      simp only [findMany, if_neg (hrejected after)]
  · exact ⟨_, rfl⟩

/-- The pages that are read one after the other are the matching claims, each once, in their order; and a
cursor says which claim it was made of. -/
theorem review_queue_exact (hids : (claims.map ReviewQueueItem.id).Nodup) (hcollate : Function.Injective collate)
    (hlimit : query.limit ≠ some 0) :
    (ReadableDates otherFormats query → ∀ fuel, claims.length < fuel →
      ∃ pages, follow (pageAt numerals otherFormats collate claims query) fuel none = some (.ok pages) ∧
        pages.flatten.Pairwise (fun a b => orderKey collate b < orderKey collate a) ∧
        (∀ row, row ∈ pages.flatten ↔ row ∈ claims ∧ Matches otherFormats query row) ∧
          ∀ page ∈ pages, page.length ≤ query.limit.getD 20) ∧
      (¬ ReadableDates otherFormats query → ∀ cursor,
        ∃ e, pageAt numerals otherFormats collate claims query cursor = .error e) ∧
      ∀ item : ReviewQueueItem Columns,
        decodeReviewQueueCursor numerals otherFormats (encodeReviewQueueCursor numerals item) =
            .ok { createdAt := toISOString item.createdAt.ms, id := item.id } ∧
          newDate otherFormats (toISOString item.createdAt.ms) = some item.createdAt := by
  refine ⟨?_, pageAt_refused, fun item => ⟨decode_encode, newDate_toISOString otherFormats item.createdAt⟩⟩
  intro hreadable fuel hfuel
  have hnodup : ((selected collate claims (buildReviewQueueFilters otherFormats query)).map
      (orderKey collate)).Nodup := nodup_orderKey hids hcollate
  have hpos : 0 < query.limit.getD 20 := limit_pos hlimit
  have hlength : (descending (orderKey collate)
      (selected collate claims (buildReviewQueueFilters otherFormats query))).length < fuel := by
    rw [(descending_perm _ _).length_eq]
    exact (length_filter_le _ _).trans_lt hfuel
  have hfirst : LeftAt numerals (descending (orderKey collate)
      (selected collate claims (buildReviewQueueFilters otherFormats query))) none _ := rfl
  obtain ⟨pages, hfollow, hflatten, hlengths⟩ :=
    follow_pages (pages_pageAt hids hcollate hlimit hreadable) hpos hfirst hlength
  refine ⟨pages, hfollow, ?_, fun row => ?_, hlengths⟩
  · rw [hflatten]
    exact descending_strict hnodup
  · rw [hflatten, (descending_perm _ _).mem_iff, mem_selected hreadable]

def tiedClaims : List (ReviewQueueItem Unit) :=
  [{ id := "a".toList, createdAt := ⟨1000, by decide⟩, status := .requested, campaignId := "c".toList, columns := () },
    { id := "b".toList, createdAt := ⟨1000, by decide⟩, status := .verified, campaignId := "c".toList, columns := () },
    { id := "d".toList, createdAt := ⟨2000, by decide⟩, status := .verified, campaignId := "c".toList, columns := () }]

theorem review_queue_exact_tiedClaims :
    ∃ pages, follow (pageAt Numerals.nat (fun _ => none) id tiedClaims { limit := some 1 }) 4 none =
        some (.ok pages) ∧
      pages.flatten.Pairwise (fun a b => orderKey (id : Json.Text → Json.Text) b < orderKey id a) ∧
      (∀ row, row ∈ pages.flatten ↔ row ∈ tiedClaims ∧ Matches (fun _ => none) { limit := some 1 } row) ∧
        ∀ page ∈ pages, page.length ≤ 1 :=
  (review_queue_exact (by decide) Function.injective_id (by decide)).1
    ⟨by decide, by decide⟩ 4 (by decide)

end Exact
end Soter.Verification.ReviewQueue
