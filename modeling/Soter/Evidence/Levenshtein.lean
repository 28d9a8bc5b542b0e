import Mathlib.Tactic.Linarith
import Soter.Evidence.Fingerprint
import Soter.Lib.EditDistance

/-! The table of `levenshteinDistance` and the similarity of two texts. -/
namespace Soter.Fingerprints
open Soter.EditDistance

section Table
variable {α : Type} [DecidableEq α]

abbrev Table := ℕ → ℕ → ℕ

def setCell (matrix : Table) (i j v : ℕ) : Table := fun i' j' => if i' = i ∧ j' = j then v else matrix i' j'

variable (str1 str2 : List α)

def fillCell (matrix : Table) (i j : ℕ) : Table :=
  setCell matrix i j
    (if str2[i - 1]? = str1[j - 1]? then matrix (i - 1) (j - 1)
    else min (min (matrix (i - 1) (j - 1) + 1) (matrix i (j - 1) + 1)) (matrix (i - 1) j + 1))

/-- The loops of the function, each over so many indices: the first two from 0, the nested ones from 1. -/
def firstColumn (n : ℕ) : Table := n.fold (fun i _ matrix => setCell matrix i 0 i) fun _ _ => 0

def firstRow (n : ℕ) (matrix : Table) : Table := n.fold (fun j _ matrix => setCell matrix 0 j j) matrix

def fillRow (i n : ℕ) (matrix : Table) : Table := n.fold (fun j _ matrix => fillCell str1 str2 matrix i (j + 1)) matrix

def fillRows (n : ℕ) (matrix : Table) : Table :=
  n.fold (fun i _ matrix => fillRow str1 str2 (i + 1) str1.length matrix) matrix

def levenshteinDistance : ℕ :=
  fillRows str1 str2 str2.length (firstRow (str1.length + 1) (firstColumn (str2.length + 1))) str2.length str1.length

/-- The distance between the first `i` characters of the second text and the first `j` of the first one. -/
def cell (i j : ℕ) : ℕ := distance (str2.take i).reverse (str1.take j).reverse

variable {str1 str2} {i j n : ℕ} {matrix : Table}

theorem cell_zero_left (hj : j ≤ str1.length) : cell str1 str2 0 j = j := by
  rw [cell, List.take_zero, List.reverse_nil, distance, List.length_reverse, List.length_take_of_le hj]

theorem cell_zero_right (hi : i ≤ str2.length) : cell str1 str2 i 0 = i := by
  have hlength : (str2.take i).reverse.length = i := by rw [List.length_reverse, List.length_take_of_le hi]
  rw [cell, List.take_zero, List.reverse_nil]
  cases hrow : (str2.take i).reverse with
  | nil => rw [distance, ← hlength, hrow]
  | cons x a => rw [distance, ← hrow, hlength]; exact nofun

theorem cell_succ (hi : i < str2.length) (hj : j < str1.length) : cell str1 str2 (i + 1) (j + 1) =
    if str2[i]? = str1[j]? then cell str1 str2 i j
    else min (min (cell str1 str2 i j + 1) (cell str1 str2 (i + 1) j + 1)) (cell str1 str2 i (j + 1) + 1) := by
  have hrow : (str2.take (i + 1)).reverse = str2[i] :: (str2.take i).reverse := by
    rw [List.take_succ_eq_append_getElem hi, List.reverse_append, List.reverse_singleton, List.singleton_append]
  have hcolumn : (str1.take (j + 1)).reverse = str1[j] :: (str1.take j).reverse := by
    rw [List.take_succ_eq_append_getElem hj, List.reverse_append, List.reverse_singleton, List.singleton_append]
  simp only [cell, hrow, hcolumn, distance, List.getElem?_eq_getElem hi, List.getElem?_eq_getElem hj, Option.some.injEq]

/-- The cells before the `j`-th of the `i`-th row are right, and so is the first column. -/
def Filled (str1 str2 : List α) (i j : ℕ) (matrix : Table) : Prop :=
  ∀ i' j', i' ≤ str2.length → j' ≤ str1.length → i' < i ∨ i' = i ∧ j' < j ∨ j' = 0 →
    matrix i' j' = cell str1 str2 i' j'

theorem firstColumn_eq (n i : ℕ) (hi : i < n) : firstColumn n i 0 = i := by
  induction n with
  | zero => omega
  | succ n ih =>
    rw [firstColumn, Nat.fold_succ, ← firstColumn, setCell]
    split
    · omega
    · exact ih (by omega)

theorem firstRow_eq (n i j : ℕ) : firstRow n matrix i j = if i = 0 ∧ j < n then j else matrix i j := by
  induction n with
  | zero => simp [firstRow]
  | succ n ih =>
    rw [firstRow, Nat.fold_succ, ← firstRow, setCell, ih]
    split_ifs <;> omega

theorem filled_start : Filled str1 str2 1 1 (firstRow (str1.length + 1) (firstColumn (str2.length + 1))) := by
  intro i j hi hj hcell
  rw [firstRow_eq]
  rcases Nat.eq_zero_or_pos i with rfl | hpos
  · rw [if_pos (by omega), cell_zero_left hj]
  · obtain rfl : j = 0 := by omega
    rw [if_neg (by omega), firstColumn_eq _ _ (by omega), cell_zero_right hi]

theorem Filled.fillCell (h : Filled str1 str2 (i + 1) (j + 1) matrix) (hi : i < str2.length) (hj : j < str1.length) :
    Filled str1 str2 (i + 1) (j + 2) (fillCell str1 str2 matrix (i + 1) (j + 1)) := by
  intro i' j' hi' hj' hcell
  rw [Fingerprints.fillCell, setCell]
  split
  · rename_i hat
    rw [hat.1, hat.2, cell_succ hi hj]
    simp only [Nat.add_sub_cancel, h i j (by omega) (by omega) (by omega),
      h (i + 1) j (by omega) (by omega) (by omega), h i (j + 1) (by omega) (by omega) (by omega)]
  · exact h i' j' hi' hj' (by omega)

theorem Filled.fillRow (h : Filled str1 str2 (i + 1) 1 matrix) (hi : i < str2.length) :
    ∀ n ≤ str1.length, Filled str1 str2 (i + 1) (n + 1) (fillRow str1 str2 (i + 1) n matrix)
  | 0, _ => h
  | n + 1, hn => by
    rw [Fingerprints.fillRow, Nat.fold_succ, ← Fingerprints.fillRow]
    exact (Filled.fillRow h hi n (by omega)).fillCell hi (by omega)

theorem Filled.fillRows (h : Filled str1 str2 1 1 matrix) :
    ∀ n ≤ str2.length, Filled str1 str2 (n + 1) 1 (fillRows str1 str2 n matrix)
  | 0, _ => h
  | n + 1, hn => by
    rw [Fingerprints.fillRows, Nat.fold_succ, ← Fingerprints.fillRows]
    have hrow := (Filled.fillRows h n (by omega)).fillRow (by omega) str1.length le_rfl
    intro i j hi hj hcell
    exact hrow i j hi hj (by omega)

theorem levenshteinDistance_eq (str1 str2 : List α) : levenshteinDistance str1 str2 = distance str2.reverse str1.reverse := by
  rw [levenshteinDistance, (filled_start.fillRows str2.length le_rfl) _ _ le_rfl le_rfl (.inl (Nat.lt_succ_self _)), cell,
    List.take_length, List.take_length]

end Table

def calculateTextSimilarity (text1 text2 : Text) : ℚ :=
  let normalized1 := normalizeText text1
  let normalized2 := normalizeText text2
  if normalized1 = normalized2 then 1
  else if normalized1.length = 0 ∨ normalized2.length = 0 then 0
  else 1 - levenshteinDistance normalized1 normalized2 / (max normalized1.length normalized2.length : ℕ)

theorem similarity_bounds {distance length : ℕ} (h : distance ≤ length) :
    0 ≤ (1 - distance / length : ℚ) ∧ (1 - distance / length : ℚ) ≤ 1 := by
  have hle : (distance / length : ℚ) ≤ 1 := div_le_one_of_le₀ (Nat.cast_le.mpr h) (Nat.cast_nonneg _)
  have hpos : (0 : ℚ) ≤ distance / length := div_nonneg (Nat.cast_nonneg _) (Nat.cast_nonneg _)
  constructor <;> linarith

/-- The distance is the least number of edits, and with it a metric bounded by the longer text. -/
theorem levenshteinDistance_exact {α : Type} [DecidableEq α] (a b : List α) :
    IsLeast {n | Edits n a b} (levenshteinDistance a b) ∧ levenshteinDistance a b = levenshteinDistance b a ∧
      (levenshteinDistance a b = 0 ↔ a = b) ∧
      (∀ c, levenshteinDistance a c ≤ levenshteinDistance a b + levenshteinDistance b c) ∧
      levenshteinDistance a b ≤ max a.length b.length ∧
      ∀ text1 text2, 0 ≤ calculateTextSimilarity text1 text2 ∧ calculateTextSimilarity text1 text2 ≤ 1 := by
  have hleast {β : Type} [DecidableEq β] (a b : List β) : IsLeast {n | Edits n a b} (levenshteinDistance a b) := by
    rw [levenshteinDistance_eq]
    exact isLeast_distance_reverse a b
  refine ⟨hleast a b, symm_of_isLeast hleast a b, eq_zero_of_isLeast hleast a b, triangle_of_isLeast hleast a b,
    le_max_of_isLeast hleast a b, fun text1 text2 => ?_⟩
  rw [calculateTextSimilarity]
  split_ifs
  · exact ⟨zero_le_one, le_rfl⟩
  · exact ⟨le_rfl, zero_le_one⟩
  · exact similarity_bounds (le_max_of_isLeast hleast _ _)

theorem threshold_le_similarity {distance length : ℕ} (h : 0 < length) :
    SIMILARITY_THRESHOLD ≤ 1 - distance / length ↔ 20 * distance ≤ 3 * length := by
  have hcast : 20 * distance ≤ 3 * length ↔ (20 * distance : ℚ) ≤ 3 * length := by exact_mod_cast Iff.rfl
  have hvalue : SIMILARITY_THRESHOLD = 17 / 20 := by norm_num [SIMILARITY_THRESHOLD]
  rw [hcast, hvalue, le_sub_comm, div_le_iff₀ (Nat.cast_pos.mpr h)]
  constructor <;> intro h <;> linarith

def isTextNearDuplicate (text1 text2 : Text) (threshold : Option ℚ) : SimilarityResult :=
  let similarityThreshold := threshold.getD SIMILARITY_THRESHOLD
  let similarity := calculateTextSimilarity text1 text2
  { isDuplicate := similarityThreshold ≤ similarity, similarity, threshold := similarityThreshold }

end Soter.Fingerprints
