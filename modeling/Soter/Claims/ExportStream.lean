import Soter.Lib.Keyset

/-! The export of claims, streamed page by page: each page is fetched after the last row of the one before it. -/
namespace Soter.Claims
open Soter.Keyset List

section Stream
variable {T : Type} (idOf : T → String) (fetchPage : Option String → List T) (pageSize : ℕ)

/-- The pages fetched, whose rows are yielded one after the other; `none` when the fuel ends before the loop does. -/
def streamCursorPaginated : ℕ → Option String → Option (List (List T))
  | 0, _ => none
  | fuel + 1, cursor =>
    let page := fetchPage cursor
    if page.length = 0 then some [page]
    else if page.length < pageSize then some [page]
    else (streamCursorPaginated fuel (page.getLast?.map idOf)).map (page :: ·)

end Stream
section Export

structure ExportRow (Data : Type) where
  id : String
  createdAt : ℤ
  data : Data
  generated : id ≠ ""

variable {Data : Type} (collation : String → String → Prop) [DecidableRel collation]
  (rows : List (ExportRow Data)) (whereRow : ExportRow Data → Bool) (batchSize : ℕ)

/-- The newest rows come first, and rows of one time in the falling order of the database's collation. -/
def exportOrder : List (ExportRow Data) :=
  (rows.filter whereRow).insertionSort fun a b =>
    b.createdAt < a.createdAt ∨ a.createdAt = b.createdAt ∧ collation b.id a.id

/-- `findMany` from the row that the cursor names, which is one of the query's rows. -/
def findMany (take skip : ℕ) (cursor : Option String) : List (ExportRow Data) :=
  let ordered := exportOrder collation rows whereRow
  match cursor with
  | none => (ordered.drop skip).take take
  | some id => ((ordered.dropWhile (·.id ≠ id)).drop skip).take take

def fetchPage (cursor : Option String) : List (ExportRow Data) :=
  match cursor with
  | none => findMany collation rows whereRow batchSize 0 none
  | some id =>
    if id ≠ "" then findMany collation rows whereRow batchSize 1 (some id)
    else findMany collation rows whereRow batchSize 0 none

/-- The loop of `streamExportRows`. -/
def exportPages (fuel : ℕ) (cursor : Option String) : Option (List (List (ExportRow Data))) :=
  streamCursorPaginated ExportRow.id (fetchPage collation rows whereRow batchSize) batchSize fuel cursor

variable {collation rows whereRow batchSize} {cursor : Option String}

theorem fetchPage_eq (hcursor : cursor ≠ some "") : fetchPage collation rows whereRow batchSize cursor =
    (Keyset.after ExportRow.id cursor (exportOrder collation rows whereRow)).take batchSize := by
  cases cursor with
  | none => rfl
  | some id =>
    have hid : id ≠ "" := fun h => hcursor (congrArg some h)
    simp only [fetchPage, if_pos hid, findMany, Keyset.after]

structure Streamed (batchSize : ℕ) (ordered : List (ExportRow Data)) (pages : List (List (ExportRow Data))) : Prop where
  yielded : pages.flatten = ordered
  full : pages.Pairwise fun page _ => page.length = batchSize
  queries : pages.length ≤ ordered.length / batchSize + 1

theorem streamed_last {page : List (ExportRow Data)} : Streamed batchSize page [page] :=
  ⟨flatten_singleton, pairwise_singleton _ _, Nat.le_add_left 1 _⟩

/-- A page is full, and what is left after it is streamed: the induction is on the full pages that are left. -/
theorem exportPages_after (hids : (rows.map ExportRow.id).Nodup) (hsize : 1 ≤ batchSize) (n : ℕ) {rest : List (ExportRow Data)}
    (hcursor : cursor ≠ some "") (hrest : Keyset.after ExportRow.id cursor (exportOrder collation rows whereRow) = rest)
    (hn : rest.length / batchSize < n) : ∃ pages, Streamed batchSize rest pages ∧
      ∀ fuel, n ≤ fuel → exportPages collation rows whereRow batchSize fuel cursor = some pages := by
  induction n generalizing cursor rest with
  | zero => exact absurd hn (Nat.not_lt_zero _)
  | succ n ih =>
    have hpage : fetchPage collation rows whereRow batchSize cursor = rest.take batchSize := by
      rw [fetchPage_eq hcursor, hrest]
    by_cases hshort : rest.length < batchSize
    · rw [take_of_length_le hshort.le] at hpage
      refine ⟨[rest], streamed_last, fun fuel hfuel => ?_⟩
      obtain ⟨fuel, rfl⟩ := Nat.exists_eq_add_of_lt hfuel
      rw [exportPages, streamCursorPaginated, hpage, if_pos hshort, ite_self]
    · have hlength : (rest.take batchSize).length = batchSize := length_take_of_le (by omega)
      have hne : rest.take batchSize ≠ [] := ne_nil_of_length_pos (by omega)
      obtain ⟨x, hx⟩ : ∃ x, (rest.take batchSize).getLast? = some x := ⟨_, getLast?_eq_some_getLast hne⟩
      have hcursor' : some x.id ≠ some "" := fun h => x.generated (Option.some.inj h)
      have hordered : ((exportOrder collation rows whereRow).map ExportRow.id).Nodup :=
        (((perm_insertionSort _ _).map _).nodup_iff).mpr (hids.sublist (filter_sublist.map _))
      have hnext := after_last hordered (hrest.trans (take_append_drop batchSize rest).symm) hx
      have hdiv : rest.length / batchSize = (rest.length - batchSize) / batchSize + 1 :=
        Nat.div_eq_sub_div hsize (by omega)
      rw [← length_drop] at hdiv
      obtain ⟨pages, hpages, hstream⟩ := ih hcursor' hnext (by omega)
      refine ⟨rest.take batchSize :: pages, ⟨?_, ?_, ?_⟩, fun fuel hfuel => ?_⟩
      · rw [flatten_cons, hpages.yielded, take_append_drop]
      · exact pairwise_cons.mpr ⟨fun _ _ => hlength, hpages.full⟩
      · have hqueries := hpages.queries
        rw [length_cons]
        omega
      · obtain ⟨fuel, rfl⟩ := Nat.exists_eq_add_of_lt hfuel
        rw [exportPages, streamCursorPaginated, hpage, if_neg (by omega), if_neg (by omega), hx, Option.map_some,
          ← exportPages, hstream _ (by omega), Option.map_some]

theorem streams_exactly (hids : (rows.map ExportRow.id).Nodup) (hsize : 1 ≤ batchSize) :
    ∃ pages, (∀ fuel, (exportOrder collation rows whereRow).length / batchSize < fuel →
        exportPages collation rows whereRow batchSize fuel none = some pages) ∧
      Streamed batchSize (exportOrder collation rows whereRow) pages ∧
      (pages.flatten.map ExportRow.id).Nodup ∧ ∀ row, row ∈ pages.flatten ↔ row ∈ rows ∧ whereRow row = true := by
  have hfirst : (none : Option String) ≠ some "" := nofun
  have hall : Keyset.after ExportRow.id none (exportOrder collation rows whereRow) = exportOrder collation rows whereRow := rfl
  obtain ⟨pages, hpages, hstream⟩ := exportPages_after hids hsize _ hfirst hall (Nat.lt_succ_self _)
  have hperm : pages.flatten.Perm (rows.filter whereRow) := by
    rw [hpages.yielded]
    exact perm_insertionSort _ _
  refine ⟨pages, fun fuel hfuel => hstream fuel hfuel, hpages, ?_, fun row => ?_⟩
  · exact ((hperm.map _).nodup_iff).mpr (hids.sublist (filter_sublist.map _))
  · rw [hperm.mem_iff, mem_filter]

def fourClaims : List (ExportRow Unit) :=
  [⟨"a", 1, (), by decide⟩, ⟨"b", 4, (), by decide⟩, ⟨"c", 3, (), by decide⟩, ⟨"d", 2, (), by decide⟩]

theorem streams_exactly_four : ∃ pages, exportPages (fun _ _ => True) fourClaims (fun _ => true) 2 3 none = some pages ∧
    pages.flatten = exportOrder (fun _ _ => True) fourClaims fun _ => true := by
  obtain ⟨pages, hend, hpages, -⟩ :=
    @streams_exactly Unit (fun _ _ => True) _ fourClaims (fun _ => true) 2 (by decide) (by decide)
  exact ⟨pages, hend 3 (by decide), hpages.yielded⟩

end Export
end Soter.Claims
