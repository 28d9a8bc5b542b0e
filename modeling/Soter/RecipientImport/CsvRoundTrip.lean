import Soter.RecipientImport.Csv

/-! What the export writes (`common/csv/csv.util.ts`), read by the import. -/
namespace Soter.RecipientImport
open Soter.JsNumbers List

/-- `str.replace(/"/g, '""')`. -/
def doubleQuotes (str : Text) : Text := str.flatMap fun c => if c = '"' then ['"', '"'] else [c]

def escapeCsvField (value : Option Text) : Text :=
  let str := doubleQuotes (value.getD [])
  '"' :: (str ++ ['"'])

/-- `fields.join(',')`. -/
def joinComma : List Text → Text
  | [] => []
  | [field] => field
  | field :: fields => field ++ ',' :: joinComma fields

def toCsvRow (fields : List Text) : Text := joinComma fields ++ ['\r', '\n']

def writeCsv (table : List (List Text)) : Text :=
  table.flatMap fun row => toCsvRow (row.map fun cell => escapeCsvField (some cell))

variable {c : Char} {row : List Text} {cell : Text}
section Cells
variable {current rest : Text}

theorem parseCells_quoted (hc : c ≠ '"') :
    parseCells current true (c :: rest) = parseCells (current ++ [c]) true rest := by
  rw [parseCells]
  · intro _ _ heq
    exact absurd heq hc
  · intro _ heq
    exact absurd heq hc
  · intro heq
    cases heq
  · intro heq
    cases heq

theorem doubleQuotes_cons (c : Char) (cell : Text) :
    doubleQuotes (c :: cell) = (if c = '"' then ['"', '"'] else [c]) ++ doubleQuotes cell := rfl

theorem parseCells_doubleQuotes (hrest : ∀ rest', rest ≠ '"' :: rest') : ∀ (cell current : Text),
    parseCells current true (doubleQuotes cell ++ '"' :: rest) = parseCells (current ++ cell) false rest := by
  intro cell
  induction cell with
  | nil =>
    intro current
    rw [List.append_nil]
    exact parseCells.eq_3 current rest fun rest' heq => hrest rest' heq
  | cons c cell ih =>
    intro current
    rw [doubleQuotes_cons]
    by_cases hc : c = '"'
    · subst hc
      simp only [if_pos, cons_append, nil_append]
      rw [parseCells, ih, append_assoc]
      rfl
    · rw [if_neg hc, cons_append, nil_append, cons_append, parseCells_quoted hc, ih, append_assoc]
      rfl

theorem parseCells_field (current cell : Text) (hrest : ∀ rest', rest ≠ '"' :: rest') :
    parseCells current false (escapeCsvField (some cell) ++ rest) = parseCells (current ++ cell) false rest := by
  rw [escapeCsvField]
  dsimp only [Option.getD_some]
  rw [List.cons_append, parseCells, List.append_assoc]
  exact parseCells_doubleQuotes hrest cell current

theorem parseCsvLine_joinComma : ∀ {row : List Text}, row ≠ [] →
    parseCsvLine (joinComma (row.map fun cell => escapeCsvField (some cell))) = row := by
  intro row
  rw [parseCsvLine]
  induction row with
  | nil =>
    intro hrow
    exact absurd rfl hrow
  | cons cell row ih =>
    intro _
    cases row with
    | nil =>
      have hnil : ∀ rest', ([] : Text) ≠ '"' :: rest' := by
        intro rest' heq
        cases heq
      have hend := parseCells_field [] cell hnil
      rw [append_nil] at hend
      exact hend
    | cons next row =>
      have hnext := ih (cons_ne_nil next row)
      rw [map_cons] at hnext
      rw [map_cons, map_cons, joinComma, parseCells_field [] cell (by intro _ h; cases h), parseCells, hnext]
      · rfl
      · exact cons_ne_nil _ _

end Cells
section Lines
variable {line u v : Text}

theorem splitLines_cons (hc : c ≠ '\n') (line rest : Text) :
    splitLines line (c :: rest) = splitLines (line ++ [c]) rest :=
  splitLines.eq_3 line c rest fun h => hc h

theorem chomp_append_cr (line : Text) : chomp (line ++ ['\r']) = line := by
  rw [chomp, if_pos getLast?_concat, dropLast_concat]

theorem splitLines_line : ∀ (u line : Text), '\n' ∉ u →
    splitLines line (u ++ '\r' :: '\n' :: v) = (line ++ u) :: splitLines [] v := by
  intro u
  induction u with
  | nil =>
    intro line _
    rw [nil_append, splitLines_cons (by decide), splitLines, chomp_append_cr, append_nil]
  | cons c u ih =>
    intro line hu
    rw [mem_cons, not_or] at hu
    rw [cons_append, splitLines_cons (Ne.symm hu.1), ih _ hu.2, append_assoc]
    rfl

theorem mem_chomp (hc : c ≠ '\r') (h : c ∈ line) : c ∈ chomp line := by
  rw [chomp]
  split
  · rename_i hlast
    obtain ⟨init, rfl⟩ := getLast?_eq_some_iff.mp hlast
    rw [dropLast_concat]
    exact (mem_append.mp h).resolve_right fun hmem => hc (mem_singleton.mp hmem)
  · exact h

theorem splitLines_feed (v : Text) : ∀ (u line : Text), ∃ ended, splitLines line (u ++ '\n' :: v) = ended ++ splitLines [] v ∧
    ('"' ∈ line ++ u → ∃ l ∈ ended, '"' ∈ l) := by
  intro u
  induction u with
  | nil =>
    intro line
    refine ⟨[chomp line], rfl, fun hquote => ⟨chomp line, mem_singleton_self _, ?_⟩⟩
    rw [append_nil] at hquote
    exact mem_chomp (by decide) hquote
  | cons c u ih =>
    intro line
    by_cases hc : c = '\n'
    · obtain ⟨ended, hsplit, hquoted⟩ := ih []
      refine ⟨chomp line :: ended, ?_, fun hquote => ?_⟩
      · rw [hc, cons_append, splitLines, hsplit]
        rfl
      · rw [hc, mem_append, mem_cons] at hquote
        rcases hquote with hline | hfeed | hu
        · exact ⟨_, mem_cons_self, mem_chomp (by decide) hline⟩
        · exact absurd hfeed (by decide)
        · obtain ⟨l, hl, hquote⟩ := hquoted (by rw [nil_append]; exact hu)
          exact ⟨l, mem_cons_of_mem _ hl, hquote⟩
    · obtain ⟨ended, hsplit, hquoted⟩ := ih (line ++ [c])
      refine ⟨ended, ?_, fun hquote => hquoted ?_⟩
      · rw [cons_append, splitLines_cons hc, hsplit]
      · rw [append_assoc]
        exact hquote

def printed (content : Text) : List Text := (splitLines [] content).filter (trim · ≠ [])

theorem mem_dropWhile_isSpace (hc : isSpace c = false) (h : c ∈ line) : c ∈ line.dropWhile isSpace := by
  rw [← takeWhile_append_dropWhile (p := isSpace) (l := line)] at h
  refine (mem_append.mp h).resolve_left fun hspace => ?_
  rw [mem_takeWhile_imp hspace] at hc
  cases hc

theorem trim_ne_nil (h : '"' ∈ line) : trim line ≠ [] := by
  have hspace : isSpace '"' = false := by decide
  have htrim : '"' ∈ trim line :=
    List.mem_reverse.mpr (mem_dropWhile_isSpace hspace (List.mem_reverse.mpr (mem_dropWhile_isSpace hspace h)))
  exact List.ne_nil_of_mem htrim

theorem printed_feed (v : Text) (hu : '"' ∈ u) : (printed v).length < (printed (u ++ '\n' :: v)).length := by
  obtain ⟨ended, hsplit, hquoted⟩ := splitLines_feed v u []
  obtain ⟨l, hl, hquote⟩ := hquoted hu
  have hkept : l ∈ ended.filter (trim · ≠ []) :=
    mem_filter.mpr ⟨hl, decide_eq_true (trim_ne_nil hquote)⟩
  have hpos : 0 < (ended.filter (trim · ≠ [])).length := length_pos_of_mem hkept
  rw [printed, printed, hsplit, filter_append, length_append]
  exact Nat.lt_add_of_pos_left hpos

end Lines
section RoundTrip
variable {header : List Text} {rows table : List (List Text)}

def OneLine (table : List (List Text)) : Prop := ∀ row ∈ table, ∀ cell ∈ row, '\n' ∉ cell

instance (table : List (List Text)) : Decidable (OneLine table) :=
  inferInstanceAs (Decidable (∀ row ∈ table, ∀ cell ∈ row, '\n' ∉ cell))

variable {fields : List Text}

theorem mem_joinComma {field : Text} (hfield : field ∈ fields) (hc : c ∈ field) : c ∈ joinComma fields := by
  induction fields with
  | nil => cases hfield
  | cons first fields ih =>
    cases fields with
    | nil => exact mem_singleton.mp hfield ▸ hc
    | cons next fields =>
      rw [joinComma, mem_append, mem_cons]
      rcases mem_cons.mp hfield with rfl | hlater
      · exact .inl hc
      · exact .inr (.inr (ih hlater))
      · exact cons_ne_nil _ _

theorem mem_of_joinComma (hcomma : c ≠ ',') (hc : c ∈ joinComma fields) : ∃ field ∈ fields, c ∈ field := by
  induction fields with
  | nil => cases hc
  | cons first fields ih =>
    cases fields with
    | nil => exact ⟨first, mem_singleton_self _, hc⟩
    | cons next fields =>
      rw [joinComma, mem_append, mem_cons] at hc
      · rcases hc with hfirst | hsep | hlater
        · exact ⟨first, mem_cons_self, hfirst⟩
        · exact absurd hsep hcomma
        · obtain ⟨field, hfield, hmem⟩ := ih hlater
          exact ⟨field, mem_cons_of_mem _ hfield, hmem⟩
      · exact cons_ne_nil _ _

theorem feed_mem_escape : '\n' ∈ escapeCsvField (some cell) ↔ '\n' ∈ cell := by
  have hdouble : '\n' ∈ doubleQuotes cell ↔ '\n' ∈ cell := by
    rw [doubleQuotes, mem_flatMap]
    constructor
    · intro h
      obtain ⟨c, hc, hfeed⟩ := h
      split at hfeed
      · exact absurd hfeed (by decide)
      · exact mem_singleton.mp hfeed ▸ hc
    · intro h
      exact ⟨'\n', h, by decide⟩
  rw [escapeCsvField]
  simp [hdouble]

abbrev rowText (row : List Text) : Text := joinComma (row.map fun cell => escapeCsvField (some cell))

theorem feed_mem_rowText : '\n' ∈ rowText row ↔ ∃ cell ∈ row, '\n' ∈ cell := by
  constructor
  · intro h
    obtain ⟨field, hfield, hfeed⟩ := mem_of_joinComma (by decide) h
    obtain ⟨cell, hcell, rfl⟩ := mem_map.mp hfield
    exact ⟨cell, hcell, feed_mem_escape.mp hfeed⟩
  · intro h
    obtain ⟨cell, hcell, hfeed⟩ := h
    exact mem_joinComma (mem_map_of_mem hcell) (feed_mem_escape.mpr hfeed)

theorem rowText_quoted (hrow : row ≠ []) : (∃ rest, rowText row = '"' :: rest) ∧ ∃ init, rowText row = init ++ ['"'] := by
  induction row with
  | nil => exact absurd rfl hrow
  | cons cell row ih =>
    cases row with
    | nil => exact ⟨⟨_, rfl⟩, '"' :: doubleQuotes cell, rfl⟩
    | cons next row =>
      obtain ⟨-, init, hinit⟩ := ih (List.cons_ne_nil _ _)
      have hjoin : rowText (cell :: next :: row) = escapeCsvField (some cell) ++ ',' :: rowText (next :: row) := rfl
      refine ⟨⟨_, hjoin⟩, escapeCsvField (some cell) ++ ',' :: init, ?_⟩
      rw [hjoin, hinit, List.append_assoc]
      rfl

theorem writeCsv_cons (row : List Text) (table : List (List Text)) :
    writeCsv (row :: table) = rowText row ++ '\r' :: '\n' :: writeCsv table := by
  rw [writeCsv, List.flatMap_cons, toCsvRow, List.append_assoc]
  rfl

theorem printed_writeCsv (hcells : ∀ row ∈ table, row ≠ []) (honeLine : OneLine table) :
    printed (writeCsv table) = table.map rowText := by
  induction table with
  | nil => rfl
  | cons row table ih =>
    rw [List.forall_mem_cons] at hcells
    rw [OneLine, List.forall_mem_cons] at honeLine
    obtain ⟨⟨rest, hquote⟩, -⟩ := rowText_quoted hcells.1
    have hfeed : '\n' ∉ rowText row := fun h => by
      obtain ⟨cell, hcell, hmem⟩ := feed_mem_rowText.mp h
      exact honeLine.1 cell hcell hmem
    have hkept : decide (trim (rowText row) ≠ []) = true :=
      decide_eq_true (trim_ne_nil (hquote ▸ List.mem_cons_self))
    have htable := ih hcells.2 honeLine.2
    rw [printed] at htable
    rw [printed, writeCsv_cons, splitLines_line _ _ hfeed, List.nil_append, List.filter_cons, if_pos hkept,
      htable, List.map_cons]

theorem printed_writeCsv_le (hcells : ∀ row ∈ table, row ≠ []) : table.length ≤ (printed (writeCsv table)).length ∧
      (¬ OneLine table → table.length < (printed (writeCsv table)).length) := by
  induction table with
  | nil => exact ⟨Nat.zero_le _, fun h => absurd (by intro _ h; cases h) h⟩
  | cons row table ih =>
    rw [List.forall_mem_cons] at hcells
    obtain ⟨hle, hlt⟩ := ih hcells.2
    obtain ⟨⟨rest, hstart⟩, init, hend⟩ := rowText_quoted hcells.1
    have hrow : (printed (writeCsv table)).length < (printed (writeCsv (row :: table))).length := by
      have hquote : '"' ∈ rowText row ++ ['\r'] := by
        rw [hstart]
        exact mem_cons_self
      have hfeed := printed_feed (writeCsv table) hquote
      rw [append_assoc] at hfeed
      rw [writeCsv_cons]
      exact hfeed
    rw [length_cons]
    refine ⟨by omega, fun hbroken => ?_⟩
    by_cases hline : ∀ cell ∈ row, '\n' ∉ cell
    · have htable : ¬ OneLine table := fun h => hbroken (forall_mem_cons.mpr ⟨hline, h⟩)
      have := hlt htable
      omega
    · -- the row is cut between its first quote and its last one
      push Not at hline
      obtain ⟨u, v, hcut⟩ := append_of_mem (feed_mem_rowText.mpr hline)
      have hu : '"' ∈ u := by
        cases u with
        | nil => exact absurd (List.cons.inj (hstart.symm.trans hcut)).1 (by decide)
        | cons c u =>
          rw [(List.cons.inj (hstart.symm.trans hcut)).1]
          exact List.mem_cons_self
      have hv : '"' ∈ v := by
        have hlast := congrArg getLast? (hend.symm.trans hcut)
        rw [getLast?_concat, getLast?_append, getLast?_cons] at hlast
        cases hv : v.getLast? with
        | none => simp [hv] at hlast
        | some c =>
          simp only [hv, Option.getD_some, Option.some_or, Option.some.injEq] at hlast
          rw [hlast]
          exact mem_of_getLast? hv
      have hfirst := printed_feed (v ++ '\r' :: '\n' :: writeCsv table) hu
      have hsecond : (printed (writeCsv table)).length < (printed (v ++ '\r' :: '\n' :: writeCsv table)).length := by
        have hfeed := printed_feed (writeCsv table) (mem_append_left ['\r'] hv)
        rw [append_assoc] at hfeed
        exact hfeed
      rw [writeCsv_cons, hcut, append_assoc, cons_append]
      omega

theorem csv_round_trip_iff (header : List Text) (rows : List (List Text))
    (hcells : ∀ row ∈ header :: rows, row ≠ []) :
    parseCsv (writeCsv (header :: rows)) = .ok { headers := header, rows } ↔ OneLine (header :: rows) := by
  constructor
  · intro h
    by_contra hbroken
    have hlength := (printed_writeCsv_le hcells).2 hbroken
    rw [parseCsv, ← printed] at h
    split at h
    · cases h
    · rename_i first rest hlines
      cases h
      rw [hlines, length_cons, length_cons, length_map] at hlength
      exact absurd hlength (lt_irrefl _)
  · intro h
    have hlines := printed_writeCsv hcells h
    have hread : (header :: rows).map (parseCsvLine ∘ rowText) = header :: rows := by
      refine (map_congr_left fun row hrow => ?_).trans (map_id _)
      exact parseCsvLine_joinComma (hcells row hrow)
    rw [map_cons, cons.injEq] at hread
    rw [parseCsv, ← printed, hlines, map_cons]
    dsimp only
    rw [map_map, hread.2]
    exact congrArg (fun headers => (.ok { headers, rows } : Except Message Csv)) hread.1

theorem csv_round_trip_quoted :
    parseCsv (writeCsv [["a,b".toList, "\r".toList], ["say \"hi\"".toList, []]]) =
      .ok { headers := ["a,b".toList, "\r".toList], rows := [["say \"hi\"".toList, []]] } :=
  (csv_round_trip_iff _ _ (by decide)).mpr (by decide)

theorem csv_round_trip_fails :
    ¬ ∀ (header : List Text) (rows : List (List Text)), (∀ row ∈ header :: rows, row ≠ []) →
      parseCsv (writeCsv (header :: rows)) = .ok { headers := header, rows } := by
  intro h
  have hnote := h ["note".toList] [["a\nb".toList]] (by decide)
  exact absurd hnote (by decide)

end RoundTrip
end Soter.RecipientImport
