import Soter.RecipientImport.Csv

/-! What the counters and the errors of an import say about the rows that it is past. -/
namespace Soter.RecipientImport

open List

/-- `processedRows`, `errorRows` and `errors`, as a run has them or as its job has them. -/
structure View where
  processedRows : ℕ := 0
  errorRows : ℕ := 0
  errors : List ImportError := []
  deriving DecidableEq

namespace View
variable (v : View)

/-- The row at `n` was imported before. -/
def skip (n : ℕ) : View := { v with processedRows := max v.processedRows (n + 1) }

def accept : View := { v with processedRows := v.processedRows + 1 }

def reject (errors : List ImportError) : View :=
  { processedRows := v.processedRows + 1, errorRows := v.errorRows + 1, errors := v.errors ++ errors }

theorem skip_eq_accept : v.skip v.processedRows = v.accept := by
  rw [skip, accept, Nat.max_eq_right (Nat.le_succ v.processedRows)]

end View

def recordedRows (errors : List ImportError) : Finset ℕ := (errors.map (·.row)).toFinset

theorem mem_recordedRows {errors : List ImportError} {r : ℕ} :
    r ∈ recordedRows errors ↔ ∃ e ∈ errors, e.row = r := by
  rw [recordedRows, mem_toFinset, mem_map]

def claimError (n : ℕ) (message : Message) : ImportError := ⟨n + 2, "claim", message, none⟩

variable {csv : Csv} {n : ℕ} {errors : List ImportError}

/-- What is recorded of the row at `n`, once: what is wrong with it, or why its claim was refused. -/
inductive Explains (csv : Csv) (n : ℕ) : List ImportError → Prop
  | invalid {row : List Text} : csv.rows[n]? = some row → (validateRow row csv.headers (n + 2)).valid = false →
      Explains csv n (validateRow row csv.headers (n + 2)).errors
  | refused {row : List Text} (message : Message) : csv.rows[n]? = some row →
      (validateRow row csv.headers (n + 2)).valid = true → Explains csv n [claimError n message]

theorem Explains.lt (h : Explains csv n errors) : n < csv.rows.length := by
  cases h with
  | invalid hrow | refused message hrow => exact (List.getElem?_eq_some_iff.mp hrow).1

theorem Explains.row (h : Explains csv n errors) : ∀ e ∈ errors, e.row = n + 2 := by
  cases h with
  | invalid => exact validateRow_row _ _ _
  | refused message =>
    intro e he
    rw [mem_singleton.mp he]
    rfl

theorem Explains.ne_nil (h : Explains csv n errors) : errors ≠ [] := by
  cases h with
  | invalid hrow hinvalid => exact (validateRow_errors _ _ _).mp hinvalid
  | refused message => exact cons_ne_nil _ _

theorem Explains.recordedRows (h : Explains csv n errors) : recordedRows errors = {n + 2} := by
  apply Finset.ext
  intro r
  rw [mem_recordedRows, Finset.mem_singleton]
  constructor
  · intro hr
    obtain ⟨e, he, rfl⟩ := hr
    exact h.row e he
  · intro hr
    obtain ⟨e, he⟩ := exists_mem_of_ne_nil errors h.ne_nil
    exact ⟨e, he, (h.row e he).trans hr.symm⟩

/-- The view is past some of the rows: each of them is imported or recorded, and those that are recorded are so once. -/
structure Sound (imported : ℕ → Prop) (csv : Csv) (v : View) : Prop where
  bound : v.processedRows ≤ csv.rows.length
  within : ∀ e ∈ v.errors, e.row < v.processedRows + 2
  counted : v.errorRows = (recordedRows v.errors).card
  once : ∀ e ∈ v.errors, ∃ n, e.row = n + 2 ∧ Explains csv n (v.errors.filter (·.row = e.row))
  covered : ∀ n < v.processedRows, imported (n + 2) ∨ n + 2 ∈ recordedRows v.errors

variable {imported imported' : ℕ → Prop} {v : View}

theorem sound_start : Sound imported csv {} where
  bound := Nat.zero_le _
  within _ h := absurd h not_mem_nil
  counted := rfl
  once _ h := absurd h not_mem_nil
  covered _ h := absurd h (Nat.not_lt_zero _)

theorem Sound.mono (h : Sound imported csv v) (himp : ∀ r, imported r → imported' r) : Sound imported' csv v where
  bound := h.bound
  within := h.within
  counted := h.counted
  once := h.once
  covered n hn := (h.covered n hn).imp_left (himp _)

theorem Sound.accept (h : Sound imported csv v) (hlt : v.processedRows < csv.rows.length)
    (himported : imported (v.processedRows + 2)) : Sound imported csv v.accept where
  bound := hlt
  within e he := lt_trans (h.within e he) (Nat.lt_succ_self _)
  counted := h.counted
  once := h.once
  covered n hn := by
    rcases Nat.lt_succ_iff_lt_or_eq.mp hn with hn | rfl
    · exact h.covered n hn
    · exact .inl himported

theorem Sound.reject (h : Sound imported csv v) (herrors : Explains csv v.processedRows errors) :
    Sound imported csv (v.reject errors) where
  bound := herrors.lt
  within e he := by
    rcases mem_append.mp he with he | he
    · exact lt_trans (h.within e he) (Nat.lt_succ_self _)
    · rw [herrors.row e he]
      exact Nat.lt_succ_self _
  counted := by
    -- the row was not recorded yet
    have hnew : Disjoint (recordedRows v.errors) {v.processedRows + 2} := by
      rw [Finset.disjoint_singleton_right, mem_recordedRows]
      intro hr
      obtain ⟨e, he, hrow⟩ := hr
      have := h.within e he
      omega
    calc
      v.errorRows + 1 = (recordedRows v.errors).card + 1 := by rw [h.counted]
      _ = (recordedRows v.errors ∪ {v.processedRows + 2}).card := by
        rw [Finset.card_union_of_disjoint hnew, Finset.card_singleton]
      _ = (recordedRows (v.errors ++ errors)).card := by
        rw [recordedRows, recordedRows, map_append, toFinset_append, ← herrors.recordedRows, recordedRows]
  once e he := by
    change ∃ n, e.row = n + 2 ∧ Explains csv n ((v.errors ++ errors).filter (·.row = e.row))
    rw [filter_append]
    rcases mem_append.mp he with he | he
    · have hothers : errors.filter (·.row = e.row) = [] := by
        rw [filter_eq_nil_iff]
        intro e' he' hrow
        have hbefore := h.within e he
        rw [← of_decide_eq_true hrow, herrors.row e' he'] at hbefore
        exact lt_irrefl _ hbefore
      rw [hothers, append_nil]
      exact h.once e he
    · have hbefore : v.errors.filter (·.row = e.row) = [] := by
        rw [filter_eq_nil_iff]
        intro e' he' hrow
        have hlt := h.within e' he'
        rw [of_decide_eq_true hrow, herrors.row e he] at hlt
        exact lt_irrefl _ hlt
      have hall : errors.filter (·.row = e.row) = errors := by
        rw [filter_eq_self]
        intro e' he'
        rw [herrors.row e' he', herrors.row e he]
        exact decide_eq_true rfl
      rw [hbefore, nil_append, hall]
      exact ⟨v.processedRows, herrors.row e he, herrors⟩
  covered n hn := by
    rcases Nat.lt_succ_iff_lt_or_eq.mp hn with hn | rfl
    · refine (h.covered n hn).imp_right fun hr => ?_
      obtain ⟨e, he, hrow⟩ := mem_recordedRows.mp hr
      exact mem_recordedRows.mpr ⟨e, mem_append_left _ he, hrow⟩
    · obtain ⟨e, he⟩ := exists_mem_of_ne_nil errors herrors.ne_nil
      exact .inr (mem_recordedRows.mpr ⟨e, mem_append_right _ he, herrors.row e he⟩)

end Soter.RecipientImport
