import Soter.Lib.JsFloat

/-! The files that recipients are imported from: how a file is cut into rows, and what is wrong with a row
(`recipient-import.service.ts`). -/
namespace Soter.RecipientImport
open Soter.JsNumbers

abbrev Text := List Char

/-- A line without the `\r` at its end. -/
def chomp (line : Text) : Text := if line.getLast? = some '\r' then line.dropLast else line

/-- `content.split(/\r?\n/)`, with the line so far. Only a line that ends at `\n` loses its `\r`. -/
def splitLines (line : Text) : Text → List Text
  | [] => [line]
  | '\n' :: rest => chomp line :: splitLines [] rest
  | c :: rest => splitLines (line ++ [c]) rest

def parseCells (current : Text) : Bool → Text → List Text
  | _, [] => [current]
  | true, '"' :: '"' :: rest => parseCells (current ++ [ '"']) true rest
  | true, '"' :: rest => parseCells current false rest
  | false, '"' :: rest => parseCells current true rest
  | false, ',' :: rest => current :: parseCells [] false rest
  | quoted, c :: rest => parseCells (current ++ [c]) quoted rest

def parseCsvLine (line : Text) : List Text := parseCells [] false line

structure Csv where
  headers : List Text
  rows : List (List Text)
  deriving DecidableEq

abbrev Message := String

def parseCsv (content : Text) : Except Message Csv :=
  match (splitLines [] content).filter (trim · ≠ []) with
  | [] => .error "CSV file is empty"
  | first :: rest => .ok ⟨parseCsvLine first, rest.map parseCsvLine⟩

structure ImportError where
  row : ℕ
  field : String
  message : String
  value : Option Text := none
  deriving DecidableEq

structure Validation where
  valid : Bool
  recipientRef : Option Text := none
  amount : Option JsFloat := none
  evidenceRef : Option Text := none
  errors : List ImportError

/-- `headerMap.get(name)`: of two headers that are the same, the map has the last one. -/
def headerIndex (headers : List Text) (name : String) : Option ℕ :=
  (List.range headers.length).reverse.find? fun i =>
    (headers[i]?.map fun h => trim (h.map Char.toLower)) = some name.toList

/-- `row[idx]?.trim()`, if there is such a column. -/
def cell (row : List Text) (idx : Option ℕ) : Option Text := idx.bind fun i => row[i]?.map trim

def recipientRefErrors (recipientRef : Option Text) (rowIndex : ℕ) : List ImportError :=
  if recipientRef.getD [] = [] then [⟨rowIndex, "recipientRef", "Missing or empty recipientRef", none⟩] else []

def validateRow (row : List Text) (headers : List Text) (rowIndex : ℕ) : Validation :=
  let recipientRef := cell row (headerIndex headers "recipientref")
  let errors := recipientRefErrors recipientRef rowIndex
  match headerIndex headers "amount" with
  | none => { valid := false, errors := errors ++ [⟨rowIndex, "amount", "Missing amount column", none⟩] }
  | some amountIdx =>
    let amountStr := cell row (some amountIdx)
    let amount := parseFloat (amountStr.getD [])
    if amount.IsPositive then
      { valid := errors.isEmpty, recipientRef, amount := some amount
        evidenceRef := cell row (headerIndex headers "evidenceref"), errors }
    else
      { valid := false
        errors := errors ++ [⟨rowIndex, "amount", "Invalid or non-positive amount", amountStr⟩] }

theorem recipientRefErrors_row (recipientRef : Option Text) (rowIndex : ℕ) :
    ∀ e ∈ recipientRefErrors recipientRef rowIndex, e.row = rowIndex := by
  intro e he
  rw [recipientRefErrors] at he
  split at he
  · rw [List.mem_singleton.mp he]
  · cases he

theorem validateRow_row (row headers : List Text) (rowIndex : ℕ) :
    ∀ e ∈ (validateRow row headers rowIndex).errors, e.row = rowIndex := by
  have hbefore := recipientRefErrors_row (cell row (headerIndex headers "recipientref")) rowIndex
  have hsnoc : ∀ (message : String) (value : Option Text),
      ∀ e ∈ recipientRefErrors (cell row (headerIndex headers "recipientref")) rowIndex ++
        [⟨rowIndex, "amount", message, value⟩], e.row = rowIndex := by
    intro message value e he
    rcases List.mem_append.mp he with he | he
    · exact hbefore e he
    · rw [List.mem_singleton.mp he]
  rw [validateRow]
  dsimp only
  split
  · exact hsnoc _ _
  · split
    · exact hbefore
    · exact hsnoc _ _

theorem validateRow_errors (row headers : List Text) (rowIndex : ℕ) :
    (validateRow row headers rowIndex).valid = false ↔ (validateRow row headers rowIndex).errors ≠ [] := by
  rw [validateRow]
  dsimp only
  split
  · simp
  · split
    · rw [List.isEmpty_eq_false_iff]
    · simp

end Soter.RecipientImport
