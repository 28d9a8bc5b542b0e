import Soter.RecipientImport.ExactlyOnce

/-! What the amounts of an imported file mean. -/
namespace Soter.RecipientImport
open Soter.JsNumbers Soter.Runs

variable {data : ImportJobData} {headers row : List Text} {n : ℕ} {text : Text} {idx : Option ℕ}

def recipientField (headers row : List Text) : Text := (cell row (headerIndex headers "recipientref")).getD []

def amountField (headers row : List Text) : Text := (cell row (headerIndex headers "amount")).getD []

/-- A row is accepted exactly when it names a recipient and its amount field is the numeral of a positive number;
that number is the amount of its claim. -/
structure MeansWhatItSays (data : ImportJobData) (headers row : List Text) (n : ℕ) : Prop where
  accepted : (validateRow row headers (n + 2)).valid = true ↔
    recipientField headers row ≠ [] ∧ ∃ v, 0 < v ∧ DenotesNumber (amountField headers row) v
  amount : (validateRow row headers (n + 2)).valid = true → ∃ v, DenotesNumber (amountField headers row) v ∧
    (claimOf data n (validateRow row headers (n + 2))).amount.map JsFloat.toDouble = some (.finite v)

/-- A positive number that stands at the front of the amount field is all of the field, and finite. -/
def ReadWhole (headers row : List Text) : Prop :=
  recipientField headers row ≠ [] → (parseFloat (amountField headers row)).toDouble.IsPositive →
    afterNumeral (amountField headers row) = [] ∧ ∃ v, (parseFloat (amountField headers row)).toDouble = .finite v

theorem head_trim (text : Text) : ∀ c ∈ (trim text).head?, isSpace c = false := by
  intro c hc
  -- a text without its trailing blanks starts as it did
  have hstart : (trim text).head? = (text.dropWhile isSpace).head? ∨ trim text = [] := by
    obtain ⟨ending, hending⟩ := List.dropWhile_suffix isSpace (l := (text.dropWhile isSpace).reverse)
    have hsplit := congrArg List.reverse hending
    rw [List.reverse_append, List.reverse_reverse] at hsplit
    rw [trim]
    cases hkept : ((text.dropWhile isSpace).reverse.dropWhile isSpace).reverse with
    | nil => exact .inr rfl
    | cons first kept =>
      rw [hkept] at hsplit
      rw [← hsplit]
      exact .inl rfl
  rcases hstart with hstart | hempty
  · rw [hstart] at hc
    have hfirst := List.head?_dropWhile_not isSpace text
    rw [Option.mem_def.mp hc] at hfirst
    exact hfirst
  · rw [hempty] at hc
    cases hc

theorem head_amountField (headers row : List Text) : ∀ c ∈ (amountField headers row).head?, isSpace c = false := by
  intro c hc
  rw [amountField] at hc
  cases hcell : cell row (headerIndex headers "amount") with
  | none =>
    rw [hcell] at hc
    cases hc
  | some field =>
    rw [hcell] at hc
    rw [cell] at hcell
    obtain ⟨i, -, hfield⟩ := Option.bind_eq_some_iff.mp hcell
    obtain ⟨raw, -, rfl⟩ := Option.map_eq_some_iff.mp hfield
    exact head_trim raw c hc

theorem recipientRefErrors_nil {recipientRef : Option Text} :
    (recipientRefErrors recipientRef n).isEmpty = true ↔ recipientRef.getD [] ≠ [] := by
  rw [recipientRefErrors]
  split
  · rename_i hblank
    exact ⟨fun h => absurd h (by simp), fun h => absurd hblank h⟩
  · rename_i hnamed
    exact ⟨fun _ => hnamed, fun _ => rfl⟩

theorem validateRow_valid : (validateRow row headers n).valid = true ↔
    recipientField headers row ≠ [] ∧ (parseFloat (amountField headers row)).toDouble.IsPositive := by
  rw [isPositive_toDouble, validateRow, recipientField, amountField]
  dsimp only
  cases headerIndex headers "amount" with
  | none =>
    have hnan : parseFloat ((cell row none).getD []) = .nan := rfl
    rw [hnan]
    exact ⟨fun h => absurd h Bool.false_ne_true, fun h => h.2.elim⟩
  | some i =>
    dsimp only
    split
    · rename_i hpositive
      rw [recipientRefErrors_nil]
      exact (and_iff_left hpositive).symm
    · rename_i hnot
      exact ⟨fun h => absurd h Bool.false_ne_true, fun h => absurd h.2 hnot⟩

theorem claimOf_amount (h : (validateRow row headers (n + 2)).valid = true) :
    (claimOf data n (validateRow row headers (n + 2))).amount = some (parseFloat (amountField headers row)) := by
  have hpositive := (isPositive_toDouble _).mp (validateRow_valid.mp h).2
  rw [claimOf, validateRow, amountField]
  rw [validateRow] at h
  rw [amountField] at hpositive
  dsimp only at h ⊢
  cases hindex : headerIndex headers "amount" with
  | none =>
    rw [hindex] at h
    cases h
  | some i =>
    rw [hindex] at hpositive
    dsimp only
    rw [if_pos hpositive]

theorem imported_amounts_iff (data : ImportJobData) (headers row : List Text) (n : ℕ) :
    MeansWhatItSays data headers row n ↔ ReadWhole headers row := by
  have hfield := head_amountField headers row
  constructor
  · intro h hnamed hpositive
    obtain ⟨-, v, -, hdenotes⟩ := h.accepted.mp (validateRow_valid.mpr ⟨hnamed, hpositive⟩)
    obtain ⟨hvalue, hwhole⟩ := (denotesNumber_iff hfield).mp hdenotes
    exact ⟨hwhole, v, hvalue⟩
  · intro h
    have hdenotes (hvalid : (validateRow row headers (n + 2)).valid = true) : ∃ v, 0 < v ∧
        DenotesNumber (amountField headers row) v ∧ (parseFloat (amountField headers row)).toDouble = .finite v := by
      obtain ⟨hnamed, hpositive⟩ := validateRow_valid.mp hvalid
      obtain ⟨hwhole, v, hvalue⟩ := h hnamed hpositive
      rw [hvalue] at hpositive
      exact ⟨v, hpositive, (denotesNumber_iff hfield).mpr ⟨hvalue, hwhole⟩, hvalue⟩
    constructor
    · constructor
      · intro hvalid
        obtain ⟨v, hpos, hv, -⟩ := hdenotes hvalid
        exact ⟨(validateRow_valid.mp hvalid).1, v, hpos, hv⟩
      · intro haccept
        obtain ⟨hnamed, v, hpos, hv⟩ := haccept
        have hvalue := ((denotesNumber_iff hfield).mp hv).1
        refine validateRow_valid.mpr ⟨hnamed, ?_⟩
        rw [hvalue]
        exact hpos
    · intro hvalid
      obtain ⟨v, -, hv, hvalue⟩ := hdenotes hvalid
      exact ⟨v, hv, by rw [claimOf_amount hvalid, Option.map_some, hvalue]⟩

theorem imported_amounts_fails :
    ¬ ∀ (content : Text) (csv : Csv), parseCsv content = .ok csv → ∀ (data : ImportJobData) (n : ℕ) (row : List Text),
      csv.rows[n]? = some row → MeansWhatItSays data csv.headers row n := by
  intro h
  have hrow := h "recipientRef,amount\nr,\"1,000\"".toList
    { headers := ["recipientRef".toList, "amount".toList], rows := [["r".toList, "1,000".toList]] } (by decide)
    { jobId := 0, campaignId := 0, fileName := "f", filePath := 0, totalRows := 1 } 0 _ rfl
  obtain ⟨v, hdenotes, -⟩ := hrow.amount (validateRow_valid.mpr ⟨by decide, by
    have hparse : parseFloat (amountField ["recipientRef".toList, "amount".toList] ["r".toList, "1,000".toList]) =
        .decimal 1 1 0 := by decide
    rw [isPositive_toDouble, hparse]
    exact isPositive_natural Nat.one_pos⟩)
  have hwhole := ((denotesNumber_iff (head_amountField _ _)).mp hdenotes).2
  exact absurd hwhole (by decide)

end Soter.RecipientImport
