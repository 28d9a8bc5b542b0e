import Mathlib.Data.List.Sort
import Soter.Lib.Spans

/-! The masking of personal data in free text (`pii_scrubber.py`). What the regular expressions and the language model find
in a text is given. -/
namespace Soter.Privacy
open Soter.Spans

inductive Label
  | person | location | date | email | phone | id
  deriving DecidableEq

/-- `TOKEN_BASE_BY_LABEL` -/
def tokenBaseByLabel : Label → String
  | .person => "RECIPIENT_NAME"
  | .location => "LOCATION"
  | .date => "EVENT_DATE"
  | .email => "EMAIL_ADDRESS"
  | .phone => "PHONE_NUMBER"
  | .id => "ID_NUMBER"

def allowlist : List String :=
  ["Soter", "Pulsefy", "Stellar", "Humanitarian", "Coordinator", "Manager", "Project", "Water", "Clear", "Crystal", "HTTP"]

structure TextRange (text : List Char) where
  start : ℕ
  stop : ℕ
  ordered : start ≤ stop
  within : stop ≤ text.length
  deriving DecidableEq

structure PIISpan (text : List Char) extends TextRange text where
  label : Label
  deriving DecidableEq

structure Entity (text : List Char) extends TextRange text where
  label_ : String
  deriving DecidableEq

/-- What is found in a text: by the regular expressions of each label, and by the language model. -/
structure Findings (text : List Char) where
  emails : List (TextRange text) := []
  ents : List (Entity text) := []
  dates : List (TextRange text) := []
  names : List (TextRange text) := []
  locations : List (TextRange text) := []
  phones : List (TextRange text) := []
  ids : List (TextRange text) := []

variable {text : List Char}

/-- `text[start:stop]` -/
def slice (text : List Char) (start stop : ℕ) : List Char := (text.take stop).drop start

def PIISpan.value (span : PIISpan text) : List Char := slice text span.start span.stop

/-- What `str.split()` splits at. -/
def isSpace (c : Char) : Bool :=
  c.toNat ∈ [0x20, 0x85, 0xA0, 0x1680, 0x2028, 0x2029, 0x202F, 0x205F, 0x3000]
    ∨ (9 ≤ c.toNat ∧ c.toNat ≤ 13) ∨ (0x1C ≤ c.toNat ∧ c.toNat ≤ 0x1F) ∨ (0x2000 ≤ c.toNat ∧ c.toNat ≤ 0x200A)

def words (value : List Char) : List String := ((value.splitOnP isSpace).filter (· ≠ [])).map String.ofList

def PIISpan.allowlisted (span : PIISpan text) : Bool := (words span.value).any (· ∈ allowlist)

def normalizeLabel (label : String) : Option Label :=
  if label = "PERSON" then some .person
  else if label ∈ ["GPE", "LOC", "FAC", "LOCATION"] then some .location
  else if label = "DATE" then some .date
  else none

def spansOf (label : Label) (ranges : List (TextRange text)) : List (PIISpan text) := ranges.map fun range => ⟨range, label⟩

def entitySpans (ents : List (Entity text)) : List (PIISpan text) :=
  ents.filterMap fun ent => (normalizeLabel ent.label_).map fun label => ⟨ent.toTextRange, label⟩

def overlapsEmail (emails : List (TextRange text)) (ent : Entity text) : Bool :=
  emails.any fun email => ¬ (ent.stop ≤ email.start ∨ email.stop ≤ ent.start)

/-- The spans that `_detect_spans` collects. Entities that overlap an email are left out. -/
def collected (found : Findings text) : List (PIISpan text) :=
  spansOf .email found.emails ++ entitySpans (found.ents.filter fun ent => ¬ overlapsEmail found.emails ent) ++
    spansOf .date found.dates ++ spansOf .person found.names ++ spansOf .location found.locations ++
    spansOf .phone found.phones ++ spansOf .id found.ids

def PIISpan.rank (span : PIISpan text) : ℕ := if span.label = .email then 0 else 1

/-- The order of the keys `(start, -(end - start), 0 or 1)`. -/
def KeyLE (s t : PIISpan text) : Prop :=
  s.start < t.start ∨ s.start = t.start ∧
    (t.stop - t.start < s.stop - s.start ∨ s.stop - s.start = t.stop - t.start ∧ s.rank ≤ t.rank)

instance : DecidableRel (@KeyLE text) := fun _ _ => inferInstanceAs (Decidable (_ ∨ _))

/-- The pass starts at `-1` in the source, which is below every start as 0 is. -/
def dedupeAndSortSpans (spans : List (PIISpan text)) : List (PIISpan text) :=
  keep (·.start) (·.stop) 0 ((spans.filter fun span => ¬ span.allowlisted).insertionSort KeyLE)

def detectSpans (found : Findings text) : List (PIISpan text) :=
  if text = [] then [] else dedupeAndSortSpans (collected found)

def token (label : Label) : String := "[" ++ tokenBaseByLabel label ++ "]"

/-- `token_counts[token] = token_counts.get(token, 0) + 1` -/
def bump (token : String) : List (String × ℕ) → List (String × ℕ)
  | [] => [(token, 1)]
  | (other, n) :: counts => if other = token then (other, n + 1) :: counts else (other, n) :: bump token counts

def maskFrom (text : List Char) : ℕ → List (PIISpan text) → List Char
  | cursor, [] => text.drop cursor
  | cursor, span :: spans => slice text cursor span.start ++ (token span.label).toList ++ maskFrom text span.stop spans

def maskSpans (text : List Char) (spans : List (PIISpan text)) : List Char × List (String × ℕ) :=
  if spans = [] then (text, [])
  else (maskFrom text 0 spans, spans.foldl (fun counts span => bump (token span.label) counts) [])

structure AnonymizeResult where
  originalLength : ℕ
  anonymizedText : List Char
  piiSummary : List (String × ℕ)
  tokenCounts : List (String × ℕ)

def countLabel (label : Label) (spans : List (PIISpan text)) : ℕ := spans.countP (·.label = label)

def piiSummary (spans : List (PIISpan text)) : List (String × ℕ) :=
  [("names", countLabel .person spans), ("locations", countLabel .location spans), ("dates", countLabel .date spans),
    ("emails", countLabel .email spans), ("phones", countLabel .phone spans), ("ids", countLabel .id spans),
    ("total", spans.length)]

def anonymize (text : List Char) (found : Findings text) : AnonymizeResult :=
  if text = [] then ⟨0, [], [("names", 0), ("locations", 0), ("dates", 0), ("total", 0)], []⟩
  else
    let spans := detectSpans found
    let (anonymizedText, tokenCounts) := maskSpans text spans
    ⟨text.length, anonymizedText, piiSummary spans, tokenCounts⟩

structure Segment where
  start : ℕ
  stop : ℕ
  category : Option String

def previewFrom (text : List Char) : ℕ → List (PIISpan text) → List Segment
  | cursor, [] => if cursor < text.length then [⟨cursor, text.length, none⟩] else []
  | cursor, span :: spans =>
    (if cursor < span.start then [⟨cursor, span.start, none⟩] else []) ++
      ⟨span.start, span.stop, some (tokenBaseByLabel span.label)⟩ :: previewFrom text span.stop spans

def buildPreviewSegments (text : List Char) (spans : List (PIISpan text)) : List Segment := previewFrom text 0 spans

structure RedactionPreviewResult where
  originalLength : ℕ
  segments : List Segment
  piiSummary : List (String × ℕ)

/-- `preview_redaction` of a request with a text. -/
def previewRedaction (text : List Char) (found : Findings text) : RedactionPreviewResult :=
  let spans := detectSpans found
  ⟨text.length, buildPreviewSegments text spans, piiSummary spans⟩

end Soter.Privacy
