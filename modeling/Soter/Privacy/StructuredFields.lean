import Mathlib.Algebra.GroupWithZero.Nat
import Mathlib.Data.List.Infix
import Soter.Lib.Words
import Soter.Privacy.Masking

/-! The redaction of structured fields and its preview (`pii_scrubber.py`). -/
namespace Soter.Privacy

open List

/-- `dict` has what `str` makes of its `value`, where that is neither missing nor `None`; `other` is any other value, as `str`
shows it. -/
inductive FieldValue
  | none
  | dict (value : Option (List Char)) (others : List (List Char × List Char))
  | other (shown : List Char)

abbrev Field := List Char × FieldValue

def coerceStructuredValue : FieldValue → List Char
  | .none => []
  | .dict value _ => value.getD []
  | .other shown => shown

def fieldRedactionByName : List (String × Label) :=
  [("name", .person), ("full_name", .person), ("first_name", .person), ("last_name", .person), ("date_of_birth", .date),
    ("dob", .date), ("birth_date", .date), ("date", .date), ("national_id", .id), ("id_number", .id),
    ("passport_number", .id), ("passport_no", .id), ("document_id", .id), ("phone_number", .phone), ("phone", .phone),
    ("email", .email), ("email_address", .email), ("address", .location), ("location", .location), ("city", .location),
    ("state", .location), ("country", .location)]

/-- `str.lower`, as far as letters and digits of ASCII come out of it: they do from two other characters. -/
def lower (text : List Char) : List Char :=
  text.flatMap fun c =>
    if c.toNat = 0x212A then ['k'] else if c.toNat = 0x130 then ['i', Char.ofNat 0x307] else [c.toLower]

/-- `re.sub(r"[^a-z0-9]+", "_", text)`. -/
def underscored : Bool → List Char → List Char
  | _, [] => []
  | inRun, c :: cs =>
    if c.isLower ∨ c.isDigit then c :: underscored false cs
    else if inRun then underscored true cs
    else '_' :: underscored true cs

def mapOcrFieldToCategory (fieldName : List Char) : Option Label :=
  let normalized := Words.trim (· = '_') (underscored false (lower fieldName))
  let has (part : String) : Bool := part.toList <:+: normalized
  match fieldRedactionByName.lookup (String.ofList normalized) with
  | some exactly => some exactly
  | none =>
    if has "name" then some .person
    else if has "dob" ∨ has "birth" ∨ has "date" then some .date
    else if has "passport" ∨ has "national" ∨ has "id" then some .id
    else if has "phone" then some .phone
    else if has "email" then some .email
    else if has "address" ∨ has "location" ∨ has "city" then some .location
    else none

def FieldValue.replaced (token : List Char) : FieldValue → FieldValue
  | .dict _ others => .dict (some token) others
  | _ => .other token

def redactField (field : Field) : Field :=
  match mapOcrFieldToCategory field.1 with
  | none => field
  | some category => (field.1, field.2.replaced (token category).toList)

def redactStructuredFields (fields : List Field) : List Field := fields.map redactField

structure PreviewState where
  renderedText : List Char := []
  segments : List Segment := []
  piiSummary : Label → ℕ := fun _ => 0
  cursor : ℕ := 0

def labelPrefix (fieldName : List Char) : List Char := fieldName ++ ": ".toList

def renderedEntry (field : Field) : List Char := labelPrefix field.1 ++ coerceStructuredValue field.2 ++ ['\n']

def keptUpTo (cursor stop : ℕ) : List Segment := if cursor < stop then [⟨cursor, stop, none⟩] else []

def previewField (s : PreviewState) (field : Field) : PreviewState :=
  let renderedText := s.renderedText ++ renderedEntry field
  if coerceStructuredValue field.2 = [] then { s with renderedText }
  else
    let valueStart := s.renderedText.length + (labelPrefix field.1).length
    let valueEnd := renderedText.length - 1
    let segments := s.segments ++ keptUpTo s.cursor valueStart
    match mapOcrFieldToCategory field.1 with
    | some category =>
      { renderedText
        segments := segments ++ [⟨valueStart, valueEnd, some (tokenBaseByLabel category)⟩]
        piiSummary := Function.update s.piiSummary category (s.piiSummary category + 1)
        cursor := valueEnd }
    | none => { s with renderedText, segments, cursor := valueEnd }

def labels : List Label := [.person, .location, .date, .email, .phone, .id]

def previewLoop (fields : List Field) : PreviewState := fields.foldl previewField {}

def previewStructuredFields (fields : List Field) : RedactionPreviewResult :=
  let s := previewLoop fields
  { originalLength := s.renderedText.length
    segments := s.segments ++ keptUpTo s.cursor s.renderedText.length
    piiSummary := ["names", "locations", "dates", "emails", "phones", "ids"].zip (labels.map s.piiSummary) ++
      [("total", (labels.map s.piiSummary).sum)] }

section Spec
variable {a b c : ℕ} {fields : List Field} {xs ys : List Segment}

def Tiles : ℕ → List Segment → ℕ → Prop
  | a, [], b => a = b
  | a, segment :: segments, b => segment.start = a ∧ a < segment.stop ∧ Tiles segment.stop segments b

/-- Whatever value a field of this name has, it is replaced by the token of the category. -/
def Replaces (category : Label) (fieldName : List Char) : Prop :=
  ∀ value, redactField (fieldName, value) = (fieldName, value.replaced (token category).toList)

/-- The value of a field that comes after `before` in the rendered text. -/
def valueSegment (before : List Field) (field : Field) (category : Label) : Segment where
  start := (before.flatMap renderedEntry).length + (labelPrefix field.1).length
  stop := (before.flatMap renderedEntry).length + (labelPrefix field.1).length + (coerceStructuredValue field.2).length
  category := some (tokenBaseByLabel category)

def IsReplacedValue (fields : List Field) (segment : Segment) : Prop :=
  ∃ before field after category, fields = before ++ field :: after ∧ Replaces category field.1 ∧
    coerceStructuredValue field.2 ≠ [] ∧ segment = valueSegment before field category

structure Partitions (fields : List Field) : Prop where
  length : (previewStructuredFields fields).originalLength = (fields.flatMap renderedEntry).length
  tiles : Tiles 0 (previewStructuredFields fields).segments (previewStructuredFields fields).originalLength
  redacted : ∀ segment, segment ∈ (previewStructuredFields fields).segments ∧ segment.isRedacted ↔
    IsReplacedValue fields segment
  total : (previewStructuredFields fields).piiSummary.lookup "total" =
    some ((previewStructuredFields fields).segments.countP Segment.isRedacted)

theorem replaces_iff {category : Label} {fieldName : List Char} :
    Replaces category fieldName ↔ mapOcrFieldToCategory fieldName = some category := by
  unfold Replaces redactField
  dsimp only
  cases hcategory : mapOcrFieldToCategory fieldName with
  | none =>
    simp only [reduceCtorEq, iff_false]
    intro h
    have hnone := congrArg Prod.snd (h .none)
    simp [FieldValue.replaced] at hnone
  | some other =>
    constructor
    · intro h
      have htoken := congrArg Prod.snd (h .none)
      simp only [FieldValue.replaced, FieldValue.other.injEq] at htoken
      cases other <;> cases category <;> first | rfl | exact absurd htoken (by decide)
    · intro h value
      cases h
      rfl

theorem Tiles.append : ∀ {a xs}, Tiles a xs b → Tiles b ys c → Tiles a (xs ++ ys) c
  | _, [], h, hys => by subst h; exact hys
  | _, _ :: _, ⟨hstart, hlt, hrest⟩, hys => ⟨hstart, hlt, hrest.append hys⟩

theorem tiles_keptUpTo (h : a ≤ b) : Tiles a (keptUpTo a b) b := by
  unfold keptUpTo
  split
  · exact ⟨rfl, by omega, rfl⟩
  · exact (show a = b by omega)

def lengthSum (xs : List Segment) : ℕ := (xs.map fun segment => segment.stop - segment.start).sum

theorem Tiles.lengthSum : ∀ {a xs}, Tiles a xs b → a + Privacy.lengthSum xs = b
  | _, [], h => h
  | _, segment :: _, ⟨hstart, hlt, hrest⟩ => by
    have := hrest.lengthSum
    simp only [Privacy.lengthSum, map_cons, sum_cons] at *
    omega

theorem lengthSum_append (xs ys : List Segment) : lengthSum (xs ++ ys) = lengthSum xs + lengthSum ys := by
  simp [lengthSum]

theorem lengthSum_keptUpTo : lengthSum (keptUpTo a b) = b - a := by
  unfold keptUpTo lengthSum
  split
  · simp
  · simp
    omega

theorem not_isRedacted_keptUpTo {segment : Segment} (h : segment ∈ keptUpTo a b) : segment.isRedacted = false := by
  unfold keptUpTo at h
  split at h
  · rw [mem_singleton.mp h]
    rfl
  · cases h

theorem countP_keptUpTo : (keptUpTo a b).countP Segment.isRedacted = 0 :=
  countP_eq_zero.mpr fun _ h => Bool.eq_false_iff.mp (not_isRedacted_keptUpTo h)

theorem isReplacedValue_concat {field : Field} {segment : Segment} :
    IsReplacedValue (fields ++ [field]) segment ↔ IsReplacedValue fields segment ∨
      ∃ category, mapOcrFieldToCategory field.1 = some category ∧ coerceStructuredValue field.2 ≠ [] ∧
        segment = valueSegment fields field category := by
  constructor
  · rintro ⟨before, field', after, category, hfields, hreplaces, hvalue, hsegment⟩
    rcases eq_nil_or_concat' after with rfl | ⟨rest, last, rfl⟩
    · obtain ⟨rfl, hfield⟩ := append_inj' hfields rfl
      cases hfield
      exact .inr ⟨category, replaces_iff.mp hreplaces, hvalue, hsegment⟩
    · rw [← cons_append, ← append_assoc] at hfields
      obtain ⟨rfl, -⟩ := append_inj' hfields rfl
      exact .inl ⟨before, field', rest, category, rfl, hreplaces, hvalue, hsegment⟩
  · rintro (⟨before, field', after, category, rfl, hrest⟩ | ⟨category, hcategory, hvalue, hsegment⟩)
    · exact ⟨before, field', after ++ [field], category, by simp, hrest⟩
    · exact ⟨fields, field, [], category, rfl, replaces_iff.mpr hcategory, hvalue, hsegment⟩

def uncovered (field : Field) : ℕ :=
  if mapOcrFieldToCategory field.1 = none then (coerceStructuredValue field.2).length else 0

structure Previewed (fields : List Field) (s : PreviewState) : Prop where
  rendered : s.renderedText = fields.flatMap renderedEntry
  within : s.cursor ≤ s.renderedText.length
  covered : lengthSum s.segments + (fields.map uncovered).sum = s.cursor
  tiles : (fields.map uncovered).sum = 0 → Tiles 0 s.segments s.cursor
  redacted : ∀ segment, segment ∈ s.segments ∧ segment.isRedacted ↔ IsReplacedValue fields segment
  counted : (labels.map s.piiSummary).sum = s.segments.countP Segment.isRedacted

theorem sum_labels_update (counts : Label → ℕ) (label : Label) :
    (labels.map (Function.update counts label (counts label + 1))).sum = (labels.map counts).sum + 1 := by
  cases label <;> simp [labels] <;> omega

theorem Previewed.step {s : PreviewState} (h : Previewed fields s) (field : Field) :
    Previewed (fields ++ [field]) (previewField s field) := by
  obtain ⟨hrendered, hwithin, hcovered, htiles, hredacted, hcounted⟩ := h
  have hrendered' : s.renderedText ++ renderedEntry field = (fields ++ [field]).flatMap renderedEntry := by
    simp [hrendered]
  have hsum : ((fields ++ [field]).map uncovered).sum = (fields.map uncovered).sum + uncovered field := by simp
  have hentry : (renderedEntry field).length =
      (labelPrefix field.1).length + (coerceStructuredValue field.2).length + 1 := by
    simp [renderedEntry, Nat.add_assoc]
  unfold previewField
  dsimp only
  split
  · -- An empty value: only the text grows.
    rename_i hempty
    have huncovered : uncovered field = 0 := by simp [uncovered, hempty]
    constructor
    · exact hrendered'
    · simp only [length_append]
      omega
    · dsimp only
      omega
    · intro h0
      exact htiles (by omega)
    · intro segment
      rw [hredacted, isReplacedValue_concat]
      simp [hempty]
    · exact hcounted
  · rename_i hvalue
    have hpositive := length_pos_iff.mpr hvalue
    have hstart : s.cursor ≤ s.renderedText.length + (labelPrefix field.1).length := by omega
    have hkept (segment : Segment) :
        segment ∈ s.segments ++ keptUpTo s.cursor (s.renderedText.length + (labelPrefix field.1).length) ∧
          segment.isRedacted ↔ IsReplacedValue fields segment := by
      rw [← hredacted, mem_append]
      constructor
      · rintro ⟨hmem | hmem, his⟩
        · exact ⟨hmem, his⟩
        · exact absurd his (Bool.eq_false_iff.mp (not_isRedacted_keptUpTo hmem))
      · rintro ⟨hmem, his⟩
        exact ⟨.inl hmem, his⟩
    split
    · rename_i category hcategory
      have huncovered : uncovered field = 0 := by simp [uncovered, hcategory]
      have hsegment : (⟨s.renderedText.length + (labelPrefix field.1).length,
          (s.renderedText ++ renderedEntry field).length - 1, some (tokenBaseByLabel category)⟩ : Segment) =
            valueSegment fields field category := by
        simp only [valueSegment, hrendered, length_append, hentry]
        congr 1
        omega
      constructor
      · exact hrendered'
      · dsimp only
        omega
      · simp only [lengthSum_append, lengthSum_keptUpTo, hsum, huncovered, length_append, hentry]
        simp only [lengthSum, map_cons, map_nil, sum_cons, sum_nil] at hcovered ⊢
        omega
      · intro h0
        apply ((htiles (by omega)).append (tiles_keptUpTo hstart)).append
        exact ⟨rfl, by simp only [length_append]; omega, rfl⟩
      · intro segment
        rw [isReplacedValue_concat, ← hkept, hsegment]
        dsimp only
        rw [mem_append (s := s.segments ++ _), mem_singleton]
        constructor
        · rintro ⟨hmem | rfl, his⟩
          · exact .inl ⟨hmem, his⟩
          · exact .inr ⟨category, hcategory, hvalue, rfl⟩
        · rintro (⟨hmem, his⟩ | ⟨other, hother, -, rfl⟩)
          · exact ⟨.inl hmem, his⟩
          · cases hcategory.symm.trans hother
            exact ⟨.inr rfl, rfl⟩
      · simp only [sum_labels_update, hcounted, countP_append, countP_keptUpTo]
        rfl
    · -- A value that is kept: the cursor passes it, but no segment covers it.
      rename_i hcategory
      have huncovered : uncovered field = (coerceStructuredValue field.2).length := by simp [uncovered, hcategory]
      constructor
      · exact hrendered'
      · dsimp only
        omega
      · simp only [lengthSum_append, lengthSum_keptUpTo, hsum, huncovered, length_append, hentry]
        omega
      · intro h0
        omega
      · intro segment
        rw [isReplacedValue_concat, ← hkept]
        simp [hcategory]
      · simp only [hcounted, countP_append, countP_keptUpTo, Nat.add_zero]

theorem previewed (fields : List Field) : Previewed fields (previewLoop fields) := by
  induction fields using reverseRecOn with
  | nil =>
    refine ⟨rfl, le_rfl, rfl, fun _ => rfl, fun segment => ?_, rfl⟩
    constructor
    · rintro ⟨hmem, -⟩
      cases hmem
    · rintro ⟨before, field, after, category, hfields, -⟩
      simp at hfields
  | append_singleton fields field ih =>
    rw [previewLoop, foldl_append]
    exact ih.step field

theorem preview_partitions_iff (fields : List Field) : Partitions fields ↔
      ∀ field ∈ fields, mapOcrFieldToCategory field.1 = none → coerceStructuredValue field.2 = [] := by
  have h := previewed fields
  have hcondition : (∀ field ∈ fields, mapOcrFieldToCategory field.1 = none → coerceStructuredValue field.2 = []) ↔
      (fields.map uncovered).sum = 0 := by
    rw [List.sum_eq_zero_iff_forall_eq_nat, List.forall_mem_map]
    apply forall₂_congr
    intro field _
    simp [uncovered]
  rw [hcondition]
  constructor
  · intro hpartitions
    have hlength := hpartitions.tiles.lengthSum
    have := h.within
    have := h.covered
    simp only [previewStructuredFields, lengthSum_append, lengthSum_keptUpTo] at hlength
    omega
  · intro h0
    constructor
    · exact congrArg length h.rendered
    · exact (h.tiles h0).append (tiles_keptUpTo h.within)
    · intro segment
      rw [← h.redacted]
      simp only [previewStructuredFields, mem_append]
      constructor
      · rintro ⟨hmem | hmem, his⟩
        · exact ⟨hmem, his⟩
        · exact absurd his (Bool.eq_false_iff.mp (not_isRedacted_keptUpTo hmem))
      · rintro ⟨hmem, his⟩
        exact ⟨.inl hmem, his⟩
    · simp only [previewStructuredFields, countP_append, countP_keptUpTo, ← h.counted]
      rfl

theorem kept_value_uncovered : ¬ Partitions [("color".toList, .other "red".toList)] := by
  intro h
  have htiles := h.tiles
  have hsegments : (previewStructuredFields [("color".toList, .other "red".toList)]).segments.map
      (fun segment => (segment.start, segment.stop)) = [(0, 7), (10, 11)] := by decide +kernel
  have hlength := htiles.lengthSum
  have horiginal : (previewStructuredFields [("color".toList, .other "red".toList)]).originalLength = 11 := by
    decide +kernel
  have hsum : lengthSum (previewStructuredFields [("color".toList, .other "red".toList)]).segments = 8 := by
    decide +kernel
  omega

end Spec
end Soter.Privacy
