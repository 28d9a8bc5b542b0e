import Mathlib
import Soter.Audit.Walk
import Soter.Lib.Run
import Soter.Audit.Canonical

/-! The retention policy's updates of `AuditLog`, and the chain over runs: appends, backfills and retention keep the
sealed rows linked from the first sequence on, and a verification accepts them exactly when the metadata of the live ones
is plain. -/
namespace Soter.Audit
open Soter.Json Soter.Runs List

variable {Num : Type}

/-- The rows of an update: those older than the cutoff that are still live, or, in a batched run,
those whose ids an earlier read has found. -/
inductive Selection
  | before (cutoffDate : ℤ)
  | ids (found : List Text)

def Selection.selects (selection : Selection) (row : AuditLog Num) : Bool :=
  match selection with
  | .before cutoffDate => row.timestamp < cutoffDate ∧ row.deletedAt = none
  | .ids found => row.id ∈ found

def redacted : Text := ['[', 'R', 'E', 'D', 'A', 'C', 'T', 'E', 'D', ']']

def updateMany (table : Table Num) (selection : Selection) (data : AuditLog Num → AuditLog Num) :
    Table Num :=
  table.map fun row => if selection.selects row then data row else row

def softDelete (table : Table Num) (selection : Selection) (now : ℤ) : Table Num :=
  updateMany table selection fun row => { row with deletedAt := some now }

def anonymize (table : Table Num) (selection : Selection) (now : ℤ) : Table Num :=
  updateMany table selection fun row =>
    { row with actorId := redacted, entityId := redacted, metadata := some .empty,
               deletedAt := some now }

section Steps

inductive AuditOp (Num : Type)
  | append (params : AuditLogParams Num) (id : Text) (timestamp : ℤ)
  | backfill
  | softDelete (selection : Selection) (now : ℤ)
  | anonymize (selection : Selection) (now : ℤ)

variable (services : Services Num)

def auditStep (table : Table Num) : AuditOp Num → Option (Table Num)
  | .append params id timestamp => (appendInTx services table params id timestamp).map Prod.fst
  | .backfill => (backfillBatch services table).map Prod.fst
  | .softDelete selection now => some (softDelete table selection now)
  | .anonymize selection now => some (anonymize table selection now)

def AuditStep (table : Table Num) (op : AuditOp Num) (table' : Table Num) : Prop :=
  auditStep services table op = some table'

structure AuditLog.Legacy (row : AuditLog Num) : Prop where
  sequence : row.sequence = none
  prevHash : row.prevHash = none
  entryHash : row.entryHash = none
  metadataCanonical : row.metadataCanonical = none

structure LegacyTable (table : Table Num) : Prop where
  ids : (table.map (·.id)).Nodup
  legacy : ∀ row ∈ table, row.Legacy

end Steps

variable {table before after table' : Table Num} {row : AuditLog Num} {kept : AuditLog Num → Prop}

section Chain
variable {rows : Table Num} {k : ℕ} {prev : Text}

/-- Rows with the sequences from `k + 1` on, each linked to the one before it. -/
def Linked : ℕ → Text → Table Num → Prop
  | _, _, [] => True
  | k, prev, row :: rows => row.sequence = some ((k : ℤ) + 1) ∧ row.prevHash = some prev ∧
      ∃ hash, row.entryHash = some hash ∧ Linked (k + 1) hash rows

theorem Linked.sequences : ∀ {rows : Table Num} {k : ℕ} {prev : Text}, Linked k prev rows →
    rows.map (·.sequence) = (range' (k + 1) rows.length).map fun n : ℕ => some (n : ℤ)
  | [], _, _, _ => rfl
  | row :: rows, k, prev, h => by
    obtain ⟨hseq, -, hash, -, hrows⟩ := h
    rw [map_cons, hrows.sequences, length_cons, range'_succ, map_cons, hseq]
    rfl

theorem Linked.hashes : ∀ {rows : Table Num} {k : ℕ} {prev : Text}, Linked k prev rows →
    ∀ row ∈ rows, ∃ hash, row.entryHash = some hash
  | [], _, _, _ => by simp
  | row :: rows, _, _, ⟨_, _, hash, hhash, hrows⟩ => by
    rw [forall_mem_cons]
    exact ⟨⟨hash, hhash⟩, hrows.hashes⟩

theorem Linked.snoc : ∀ {rows : Table Num} {k : ℕ} {prev hash : Text}, Linked k prev rows →
    row.sequence = some ((k : ℤ) + rows.length + 1) →
    row.prevHash = some ((rows.getLast?.bind (·.entryHash)).getD prev) →
    row.entryHash = some hash → Linked k prev (rows ++ [row])
  | [], k, prev, hash, _, hseq, hprev, hhash => by
    exact ⟨by simpa using hseq, hprev, hash, hhash, trivial⟩
  | row' :: rows, k, prev, hash, h, hseq, hprev, hhash => by
    obtain ⟨hseq', hprev', hash', hhash', hrows⟩ := h
    refine ⟨hseq', hprev', hash', hhash', hrows.snoc ?_ ?_ hhash⟩
    · rw [hseq, length_cons]
      push_cast
      congr 1
      omega
    · rw [hprev]
      cases rows with
      | nil => simp [hhash']
      | cons row'' rows =>
        obtain ⟨tip, htip⟩ := hrows.hashes _ (getLast_mem (cons_ne_nil row'' rows))
        simp [getLast?_eq_some_getLast, getLast_cons, htip]

theorem Linked.map {f : AuditLog Num → AuditLog Num}
    (hf : ∀ row, (f row).sequence = row.sequence ∧ (f row).prevHash = row.prevHash ∧
      (f row).entryHash = row.entryHash) : ∀ {rows : Table Num} {k : ℕ} {prev : Text},
    Linked k prev rows → Linked k prev (rows.map f)
  | [], _, _, _ => trivial
  | row :: rows, k, prev, ⟨hseq, hprev, hash, hhash, hrows⟩ => by
    obtain ⟨hs, hp, he⟩ := hf row
    exact ⟨hs.trans hseq, hp.trans hprev, hash, he.trans hhash, hrows.map hf⟩

theorem Linked.strict (h : Linked k prev rows) :
    rows.Pairwise fun r r' => ∃ s s', r.sequence = some s ∧ r'.sequence = some s' ∧ s < s' := by
  have hpair : (rows.map (·.sequence)).Pairwise
      fun q q' => ∃ s s' : ℤ, q = some s ∧ q' = some s' ∧ s < s' := by
    rw [h.sequences, pairwise_map]
    apply (pairwise_lt_range' (s := k + 1) (n := rows.length)).imp
    intro a b hab
    exact ⟨a, b, rfl, rfl, by exact_mod_cast hab⟩
  exact pairwise_map.mp hpair

theorem Linked.distinct (h : Linked k prev rows) : (rows.map (·.sequence)).Nodup := by
  rw [Nodup, pairwise_map]
  apply h.strict.imp
  rintro r r' ⟨s, s', hs, hs', hlt⟩ heq
  rw [hs, hs'] at heq
  exact hlt.ne (Option.some.inj heq)

theorem sequenceLE_antisymm {q q' : Option ℤ} (h : sequenceLE q q' = true) (h' : sequenceLE q' q = true) : q = q' := by
  cases q <;> cases q' <;> simp_all [sequenceLE]
  exact le_antisymm h h'

theorem bySequence_eq (hperm : rows.Perm (table.filter (·.isSealed))) (h : Linked k prev rows) :
    bySequence table = rows := by
  have hall := (bySequence_perm table).trans hperm.symm
  refine List.Perm.eq_of_pairwise ?_ (bySequence_pairwise table) ?_ hall
  · intro r r' hr hr' hle hle'
    exact inj_on_of_nodup_map h.distinct (hall.mem_iff.mp hr) hr' (sequenceLE_antisymm hle hle')
  · apply h.strict.imp
    rintro r r' ⟨s, s', hs, hs', hlt⟩
    simpa [hs, hs', sequenceLE] using hlt.le

end Chain
section Updates
variable {services : Services Num}

theorem updateRow_at {f : AuditLog Num → AuditLog Num} (hids : ∀ r ∈ before ++ after, r.id ≠ row.id)
    (hfree : ∀ r ∈ before ++ after, r.sequence ≠ (f row).sequence) :
    updateRow (before ++ row :: after) row.id f = some (before ++ f row :: after) := by
  have hsame : ∀ rows : Table Num, (∀ r ∈ rows, r.id ≠ row.id) →
      (rows.map fun r => if r.id = row.id then f r else r) = rows := by
    intro rows hrows
    rw [map_congr_left fun r hr => if_neg (hrows r hr), map_id']
  rw [forall_mem_append] at hids
  rw [updateRow, if_neg]
  · rw [map_append, map_cons, if_pos rfl, hsame before hids.1, hsame after hids.2]
  · rw [any_eq_true]
    rintro ⟨r, hr, hr'⟩
    simp only [any_eq_true, decide_eq_true_eq] at hr'
    obtain ⟨hid, -, r', hmem', hid', hseq'⟩ := hr'
    have hrow : r = row := by
      rcases mem_append.mp hr with hr | hr
      · exact absurd hid (hids.1 r hr)
      · rcases mem_cons.mp hr with rfl | hr
        · rfl
        · exact absurd hid (hids.2 r hr)
    subst hrow
    have hothers : r' ∈ before ++ after := by
      rcases mem_append.mp hmem' with h | h
      · exact mem_append_left _ h
      · rcases mem_cons.mp h with rfl | h
        · exact absurd rfl hid'
        · exact mem_append_right _ h
    exact hfree r' hothers hseq'

variable (services) in
/-- The row that an append leaves, with `stored` in its column for metadata. -/
def appendedRow (table : Table Num) (params : AuditLogParams Num) (id : Text) (timestamp : ℤ)
    (stored : JsonValue Num) : AuditLog Num :=
  let sequence := ((findHead table).bind (·.sequence)).getD 0 + 1
  let prevHash := ((findHead table).bind (·.entryHash)).getD genesisPrevHash
  let metadataCanonical :=
    canonicalMetadata services.numerals params.metadataOrEmpty.1 none
  { id := id, actorId := params.actorId, entity := params.entity, entityId := params.entityId,
    action := params.action, timestamp := timestamp, metadata := some stored,
    sequence := some sequence, prevHash := some prevHash,
    metadataCanonical := some metadataCanonical,
    entryHash := some (computeEntryHash services.sha256 services.numerals
      { id := id, sequence := sequence, prevHash := some prevHash, actorId := params.actorId,
        entity := params.entity, entityId := params.entityId, action := params.action,
        timestamp := timestamp, metadataCanonical := metadataCanonical }) }

theorem appendInTx_cases {params : AuditLogParams Num} {id : Text} {timestamp : ℤ} {table' : Table Num} {appended : Appended}
    (h : appendInTx services table params id timestamp = some (table', appended)) :
    ∃ stored, services.jsonb params.metadataOrEmpty = some stored ∧ (∀ r ∈ table, r.id ≠ id) ∧
      table' = table ++ [appendedRow services table params id timestamp stored] := by
  unfold appendInTx at h
  simp only at h
  split at h
  · cases h
  · rename_i stored hstored
    split at h
    · cases h
    · rename_i hfree
      simp only [any_eq_true, decide_eq_true_eq, not_exists, not_and, not_or] at hfree
      split at h
      · cases h
      · rename_i updated hupdated
        cases h
        refine ⟨stored, hstored, fun r hr => (hfree r hr).1, ?_⟩
        have hat := hupdated.symm.trans (updateRow_at (fun r hr => (hfree r (by simpa using hr)).1)
          fun r hr => (hfree r (by simpa using hr)).2)
        exact Option.some.inj hat

end Updates
section Growth
variable {services : Services Num}

theorem findHead_eq (h : Linked 0 genesisPrevHash (bySequence table)) :
    findHead table = (bySequence table).getLast? := by
  have hdesc : (bySequence table).reverse = (table.filter (·.isSealed)).insertionSort
      fun r r' => sequenceLE r'.sequence r.sequence := by
    have htotal : Std.Total fun r r' : AuditLog Num => sequenceLE r'.sequence r.sequence = true :=
      ⟨fun r r' => sequenceLE_total.total r' r⟩
    have htrans : IsTrans (AuditLog Num) fun r r' => sequenceLE r'.sequence r.sequence = true :=
      ⟨fun r r' r'' hle hle' => sequenceLE_trans.trans r'' r' r hle' hle⟩
    have hperm := (reverse_perm (bySequence table)).trans (bySequence_perm table)
    refine List.Perm.eq_of_pairwise ?_ ?_ (pairwise_insertionSort _ _) (hperm.trans (perm_insertionSort _ _).symm)
    · intro r r' hr hr' hle hle'
      have hmem := (bySequence_perm table).mem_iff.mpr ((perm_insertionSort _ _).mem_iff.mp hr')
      exact inj_on_of_nodup_map h.distinct (mem_reverse.mp hr) hmem (sequenceLE_antisymm hle' hle)
    · exact pairwise_reverse.mpr (bySequence_pairwise table)
  rw [findHead, ← hdesc, head?_reverse]

theorem head_sequence (h : Linked 0 genesisPrevHash (bySequence table)) :
    ((findHead table).bind (·.sequence)).getD 0 = (bySequence table).length := by
  rw [findHead_eq h]
  have hseqs := congrArg getLast? h.sequences
  rw [getLast?_map, getLast?_map, getLast?_range'] at hseqs
  cases hlast : (bySequence table).getLast? with
  | none => simp [getLast?_eq_none_iff.mp hlast]
  | some last =>
    have hne : (bySequence table).length ≠ 0 := by
      intro hzero
      rw [length_eq_zero_iff.mp hzero] at hlast
      cases hlast
    rw [hlast, if_neg hne] at hseqs
    have hseq : last.sequence = some ((0 + 1 + (bySequence table).length - 1 : ℕ) : ℤ) :=
      Option.some.inj hseqs
    simp [hseq]

def tipHash (table : Table Num) : Text := (headHash table).getD genesisPrevHash

theorem head_hash (h : Linked 0 genesisPrevHash (bySequence table)) :
    ((findHead table).bind (·.entryHash)).getD genesisPrevHash = tipHash table := by
  rw [findHead_eq h, tipHash, headHash]

theorem bySequence_snoc {hash : Text} (h : Linked 0 genesisPrevHash (bySequence table))
    (hperm : (table'.filter (·.isSealed)).Perm (table.filter (·.isSealed) ++ [row]))
    (hseq : row.sequence = some (((bySequence table).length : ℤ) + 1))
    (hprev : row.prevHash = some (tipHash table)) (hhash : row.entryHash = some hash) :
    bySequence table' = bySequence table ++ [row] ∧ Linked 0 genesisPrevHash (bySequence table') := by
  have hlinked : Linked 0 genesisPrevHash (bySequence table ++ [row]) :=
    h.snoc (by simpa using hseq) hprev hhash
  have heq : bySequence table' = bySequence table ++ [row] := by
    apply bySequence_eq _ hlinked
    exact ((bySequence_perm table).append_right [row]).trans hperm.symm
  exact ⟨heq, heq ▸ hlinked⟩

end Growth
section Invariant
variable {services : Services Num}

variable (services) in
def AuditLog.Intact (row : AuditLog Num) : Prop :=
  ∃ (seq : ℤ) (m : JsonValue Num), row.sequence = some seq ∧ m.1.Same row.metadataOrNull.1 ∧
    row.metadataCanonical = some (canonicalMetadata services.numerals m.1 none) ∧
    row.entryHash = some (computeEntryHash services.sha256 services.numerals
      (row.entry seq (canonicalMetadata services.numerals m.1 none)))

variable (services) in
/-- The chain of a table: it is linked from the first sequence on, the rows outside have no part in
it, and what was `kept` is as it was sealed. -/
structure ChainOk (kept : AuditLog Num → Prop) (table : Table Num) : Prop where
  ids : (table.map (·.id)).Nodup
  legacy : ∀ row ∈ table, row.isSealed = false →
    row.sequence = none ∧ row.prevHash = none ∧ row.metadataCanonical = none
  linked : Linked 0 genesisPrevHash (bySequence table)
  intact : ∀ row ∈ table, row.isSealed = true → kept row → row.Intact services

variable {params : AuditLogParams Num} {s : Sealing Num}

theorem ChainOk.of_legacy (h : LegacyTable table) : ChainOk services kept table := by
  have hunsealed : ∀ row ∈ table, row.isSealed = false := by
    intro row hrow
    rw [AuditLog.isSealed, (h.legacy row hrow).entryHash]
    rfl
  have hempty : bySequence table = [] := by
    apply eq_nil_iff_forall_not_mem.mpr
    intro row hrow
    obtain ⟨hmem, hsealed⟩ := mem_bySequence.mp hrow
    rw [hunsealed row hmem] at hsealed
    cases hsealed
  refine ⟨h.ids, fun row hrow _ => ?_, hempty ▸ trivial, fun row hrow hsealed => ?_⟩
  · have hlegacy := h.legacy row hrow
    exact ⟨hlegacy.sequence, hlegacy.prevHash, hlegacy.metadataCanonical⟩
  · rw [hunsealed row hrow] at hsealed
    cases hsealed

theorem appendedRow_spec (h : ChainOk services kept table) (id : Text) (timestamp : ℤ) {stored : JsonValue Num}
    (hstored : services.jsonb params.metadataOrEmpty = some stored) :
    (appendedRow services table params id timestamp stored).sequence = some (((bySequence table).length : ℤ) + 1) ∧
      (appendedRow services table params id timestamp stored).prevHash = some (tipHash table) ∧
      (appendedRow services table params id timestamp stored).Intact services := by
  refine ⟨?_, ?_, ?_⟩
  · simp only [appendedRow, head_sequence h.linked]
  · simp only [appendedRow, head_hash h.linked]
  · exact ⟨_, params.metadataOrEmpty, rfl, (services.jsonb_same _ _ hstored).symm, rfl, rfl⟩

theorem ChainOk.after_append (h : ChainOk services kept table) {id : Text} {timestamp : ℤ} {appended : Appended}
    (happend : appendInTx services table params id timestamp = some (table', appended)) :
    ChainOk services kept table' ∧ ∃ row, table' = table ++ [row] ∧ row.isSealed = true ∧
      bySequence table' = bySequence table ++ [row] := by
  obtain ⟨stored, hstored, hid, rfl⟩ := appendInTx_cases happend
  obtain ⟨hseq, hprev, hintact⟩ := appendedRow_spec h id timestamp hstored
  set row := appendedRow services table params id timestamp stored with hrow
  have hsealed : row.isSealed = true := rfl
  have hperm : ((table ++ [row]).filter (·.isSealed)).Perm (table.filter (·.isSealed) ++ [row]) := by
    rw [filter_append, filter_singleton, hsealed]
    exact List.Perm.refl _
  obtain ⟨hrows, hlinked⟩ := bySequence_snoc h.linked hperm hseq hprev rfl
  refine ⟨⟨?_, ?_, hlinked, ?_⟩, row, rfl, hsealed, hrows⟩
  · rw [map_append, nodup_append]
    refine ⟨h.ids, nodup_singleton _, ?_⟩
    intro a ha b hb
    obtain ⟨r, hr, rfl⟩ := mem_map.mp ha
    rw [map_singleton, mem_singleton] at hb
    rw [hb]
    exact hid r hr
  · rw [forall_mem_append]
    refine ⟨h.legacy, ?_⟩
    rw [forall_mem_singleton, hsealed]
    exact nofun
  · rw [forall_mem_append]
    refine ⟨h.intact, ?_⟩
    rw [forall_mem_singleton]
    exact fun _ _ => hintact

variable (services) in
def sealedRow (s : Sealing Num) (row : AuditLog Num) : AuditLog Num :=
  let metadataCanonical := row.canonicalForm services
  { row with sequence := some (s.sequence + 1), prevHash := some s.prevHash,
             metadataCanonical := some metadataCanonical,
             entryHash := some (computeEntryHash services.sha256 services.numerals
               { row.entry (s.sequence + 1) metadataCanonical with prevHash := some s.prevHash }) }

structure Sealing.AtTip (s : Sealing Num) : Prop where
  prevHash : s.prevHash = tipHash s.table
  sequence : s.sequence = (bySequence s.table).length

theorem sealRow_eq (hids : ∀ r ∈ before ++ after, r.id ≠ row.id)
    (hprev : row.prevHash = none) (htable : s.table = before ++ row :: after)
    (hfree : ∀ r ∈ before ++ after, r.sequence ≠ some (s.sequence + 1)) :
    sealRow services s row = some ⟨before ++ sealedRow services s row :: after,
      computeEntryHash services.sha256 services.numerals
        { row.entry (s.sequence + 1) (row.canonicalForm services) with prevHash := some s.prevHash },
      s.sequence + 1⟩ := by
  rw [sealRow, if_neg (not_ne_iff.mpr hprev), htable]
  simp only
  rw [updateRow_at hids hfree]
  rfl

theorem ChainOk.after_sealRow (h : ChainOk services kept s.table) (hat : s.AtTip)
    (hrow : row ∈ s.table) (hlegacy : row.isSealed = false) :
    ∃ s' before after, sealRow services s row = some s' ∧ ChainOk services kept s'.table ∧ s'.AtTip ∧
      s.table = before ++ row :: after ∧ s'.table = before ++ sealedRow services s row :: after ∧
      bySequence s'.table = bySequence s.table ++ [sealedRow services s row] := by
  obtain ⟨before, after, htable⟩ := append_of_mem hrow
  obtain ⟨hseq, hprev, hcanonical⟩ := h.legacy row hrow hlegacy
  have hmem : ∀ r, r ∈ before ++ after → r ∈ s.table := by
    intro r hr
    rw [htable]
    rcases mem_append.mp hr with hr | hr
    · exact mem_append_left _ hr
    · exact mem_append_right _ (mem_cons_of_mem row hr)
  have hids : ∀ r ∈ before ++ after, r.id ≠ row.id := by
    have hnodup := h.ids
    rw [htable, map_append, map_cons] at hnodup
    have hfirst := (nodup_cons.mp (nodup_middle.mp hnodup)).1
    intro r hr heq
    rw [← map_append] at hfirst
    exact hfirst (heq ▸ mem_map_of_mem hr)
  have hfree : ∀ r ∈ before ++ after, r.sequence ≠ some (s.sequence + 1) := by
    intro r hr heq
    have hsealed : r.isSealed = true := by
      by_contra hnot
      rw [(h.legacy r (hmem r hr) (Bool.not_eq_true _ ▸ hnot)).1] at heq
      cases heq
    have hin : r.sequence ∈ (bySequence s.table).map (·.sequence) :=
      mem_map_of_mem (mem_bySequence.mpr ⟨hmem r hr, hsealed⟩)
    rw [h.linked.sequences, heq, hat.sequence] at hin
    obtain ⟨n, hn, hval⟩ := mem_map.mp hin
    rw [mem_range'_1] at hn
    have hval : (n : ℤ) = (bySequence s.table).length + 1 := Option.some.inj hval
    omega
  refine ⟨_, before, after, sealRow_eq hids hprev htable hfree, ?_⟩
  have hintact : (sealedRow services s row).Intact services := by
    refine ⟨s.sequence + 1, row.metadataOrNull, rfl, rfl, ?_, ?_⟩
    · simp [sealedRow, AuditLog.canonicalForm, hcanonical]
    · simp [sealedRow, AuditLog.canonicalForm, hcanonical, AuditLog.entry]
  have hsealed : (sealedRow services s row).isSealed = true := rfl
  have hperm : ((before ++ sealedRow services s row :: after).filter (·.isSealed)).Perm
      (s.table.filter (·.isSealed) ++ [sealedRow services s row]) := by
    rw [htable]
    simp only [filter_append, filter_cons, hsealed, hlegacy, if_true, Bool.false_eq_true, if_false]
    rw [append_assoc]
    exact perm_middle.trans (perm_append_singleton _ _).symm |>.trans (by simp)
  obtain ⟨hrows, hlinked⟩ := bySequence_snoc h.linked hperm (by simp [sealedRow, hat.sequence])
    (by simp [sealedRow, hat.prevHash]) rfl
  refine ⟨⟨?_, ?_, hlinked, ?_⟩, ⟨?_, ?_⟩, htable, rfl, hrows⟩
  · have hnodup := h.ids
    rw [htable] at hnodup
    simpa [sealedRow] using hnodup
  · intro r hr hr'
    rcases mem_append.mp hr with hr | hr
    · exact h.legacy r (hmem r (mem_append_left _ hr)) hr'
    · rcases mem_cons.mp hr with rfl | hr
      · rw [hsealed] at hr'
        cases hr'
      · exact h.legacy r (hmem r (mem_append_right _ hr)) hr'
  · intro r hr hr' hkept
    rcases mem_append.mp hr with hr | hr
    · exact h.intact r (hmem r (mem_append_left _ hr)) hr' hkept
    · rcases mem_cons.mp hr with rfl | hr
      · exact hintact
      · exact h.intact r (hmem r (mem_append_right _ hr)) hr' hkept
  · rw [tipHash, headHash, hrows]
    simp [sealedRow]
  · rw [hrows]
    simp [hat.sequence]

theorem ChainOk.after_sealRows : ∀ {batch : Table Num} {s : Sealing Num}, ChainOk services kept s.table →
    s.AtTip → (∀ r ∈ batch, r ∈ s.table ∧ r.isSealed = false) → batch.Nodup →
    ∃ s', batch.foldlM (sealRow services) s = some s' ∧ ChainOk services kept s'.table ∧
      (∀ r ∈ s'.table, r.isSealed = false → r ∈ s.table ∧ r ∉ batch) ∧
      ∀ r ∈ s'.table, ∃ r' ∈ s.table, r.metadata = r'.metadata
  | [], s, h, _, _, _ => by
    refine ⟨s, rfl, h, fun r hr _ => ⟨hr, not_mem_nil⟩, fun r hr => ⟨r, hr, rfl⟩⟩
  | row :: batch, s, h, hat, hbatch, hnodup => by
    rw [forall_mem_cons] at hbatch
    obtain ⟨⟨hrow, hlegacy⟩, hbatch⟩ := hbatch
    obtain ⟨hnew, hnodup⟩ := nodup_cons.mp hnodup
    obtain ⟨s', before, after, hstep, hok, hat', htable, htable', -⟩ := h.after_sealRow hat hrow hlegacy
    have hmem : ∀ r, r ∈ s.table → r ≠ row → r ∈ s'.table := by
      intro r hr hne
      rw [htable, mem_append, mem_cons] at hr
      rw [htable', mem_append, mem_cons]
      tauto
    have hback : ∀ r ∈ s'.table, r.isSealed = false → r ∈ s.table ∧ r ≠ row := by
      intro r hr hr'
      have hpart : r ∈ before ++ after := by
        rw [htable', mem_append, mem_cons] at hr
        rw [mem_append]
        rcases hr with hr | rfl | hr
        · exact .inl hr
        · cases hr'
        · exact .inr hr
      have hin : r ∈ s.table := by
        rw [htable]
        exact mem_append.mpr ((mem_append.mp hpart).imp id (mem_cons_of_mem row))
      refine ⟨hin, ?_⟩
      rintro rfl
      have hids := h.ids.of_map
      rw [htable] at hids
      exact (nodup_cons.mp (nodup_middle.mp hids)).1 hpart
    obtain ⟨s'', hrest, hok'', hleft, hmeta⟩ := ChainOk.after_sealRows hok hat'
      (fun r hr => ⟨hmem r (hbatch r hr).1 fun heq => hnew (heq ▸ hr), (hbatch r hr).2⟩) hnodup
    refine ⟨s'', ?_, hok'', ?_, ?_⟩
    · rw [foldlM_cons, hstep]
      exact hrest
    · intro r hr hr'
      obtain ⟨hin, hnot⟩ := hleft r hr hr'
      obtain ⟨hin', hne⟩ := hback r hin hr'
      exact ⟨hin', by simp [hne, hnot]⟩
    · intro r hr
      obtain ⟨r', hr', hval⟩ := hmeta r hr
      rw [htable', mem_append, mem_cons] at hr'
      rw [htable]
      rcases hr' with hr' | rfl | hr'
      · exact ⟨r', mem_append_left _ hr', hval⟩
      · exact ⟨row, by simp, hval⟩
      · exact ⟨r', by simp [hr'], hval⟩

theorem legacyBatch_perm (services : Services Num) (table : Table Num) :
    ∃ left, (table.filter (!·.isSealed)).Perm (legacyBatch services table ++ left) ∧
      ((legacyBatch services table).length < backfillBatchSize → left = []) := by
  rw [legacyBatch]
  generalize hsorted : (table.filter (!·.isSealed)).insertionSort
    (fun r r' => r.timestamp < r'.timestamp ∨ r.timestamp = r'.timestamp ∧ services.collation r.id r'.id = true) = sorted
  refine ⟨sorted.drop backfillBatchSize, ?_, ?_⟩
  · rw [take_append_drop, ← hsorted]
    exact (perm_insertionSort _ _).symm
  · intro hlen
    rw [length_take] at hlen
    apply drop_eq_nil_of_le
    omega

theorem ChainOk.after_backfill (h : ChainOk services kept table) :
    ∃ table' res, backfillBatch services table = some (table', res) ∧ ChainOk services kept table' ∧
      (res.sealedCount < backfillBatchSize → ∀ r ∈ table', r.isSealed = true) ∧
      (∀ r ∈ table', r.isSealed = false → r ∈ table) ∧
      ∀ r ∈ table', ∃ r' ∈ table, r.metadata = r'.metadata := by
  obtain ⟨left, hperm, hleft⟩ := legacyBatch_perm services table
  have hunsealed : ∀ r, r ∈ table ∧ r.isSealed = false ↔
      r ∈ legacyBatch services table ∨ r ∈ left := by
    intro r
    rw [← mem_append, ← hperm.mem_iff, mem_filter, Bool.not_eq_true']
  by_cases hbatch : legacyBatch services table = []
  · refine ⟨table, ⟨0, none⟩, ?_, h, ?_, fun r hr _ => hr, fun r hr => ⟨r, hr, rfl⟩⟩
    · rw [backfillBatch]
      exact if_pos hbatch
    · intro _ r hr
      by_contra hnot
      have hmem := (hunsealed r).mp ⟨hr, by simpa using hnot⟩
      rw [hleft (by simp [hbatch, backfillBatchSize]), hbatch] at hmem
      simp at hmem
  · have hat : (⟨table, ((findHead table).bind (·.entryHash)).getD genesisPrevHash,
        ((findHead table).bind (·.sequence)).getD 0⟩ : Sealing Num).AtTip :=
      ⟨head_hash h.linked, head_sequence h.linked⟩
    have hnodup : (legacyBatch services table).Nodup := by
      have hall := (h.ids.of_map.filter (!·.isSealed))
      exact (nodup_append.mp (hperm.nodup_iff.mp hall)).1
    obtain ⟨s', hfold, hok, hrest, hmeta⟩ := ChainOk.after_sealRows (s := ⟨_, _, _⟩) h hat
      (fun r hr => (hunsealed r).mpr (.inl hr)) hnodup
    refine ⟨s'.table, ⟨(legacyBatch services table).length, some (s'.sequence, s'.prevHash)⟩, ?_, hok,
      ?_, fun r hr hr' => (hrest r hr hr').1, hmeta⟩
    · rw [backfillBatch, if_neg hbatch, hfold]
      rfl
    · intro hlen r hr
      by_contra hnot
      have hfalse : r.isSealed = false := by simpa using hnot
      obtain ⟨hin, hnew⟩ := hrest r hr hfalse
      rcases (hunsealed r).mp ⟨hin, hfalse⟩ with hr' | hr'
      · exact hnew hr'
      · rw [hleft hlen] at hr'
        cases hr'

end Invariant
section Purged
variable {services : Services Num} {selection : Selection} {data : AuditLog Num → AuditLog Num}

/-- What an update of the retention policy does to a row: it leaves the chain alone and marks the row
as deleted. -/
structure Retires (data : AuditLog Num → AuditLog Num) : Prop where
  id : ∀ row, (data row).id = row.id
  sequence : ∀ row, (data row).sequence = row.sequence
  prevHash : ∀ row, (data row).prevHash = row.prevHash
  entryHash : ∀ row, (data row).entryHash = row.entryHash
  metadataCanonical : ∀ row, (data row).metadataCanonical = row.metadataCanonical
  deletedAt : ∀ row, (data row).deletedAt ≠ none

theorem ChainOk.after_updateMany (h : ChainOk services (·.deletedAt = none) table) (hdata : Retires data) :
    ChainOk services (·.deletedAt = none) (updateMany table selection data) := by
  rw [updateMany]
  set f : AuditLog Num → AuditLog Num := fun row => if selection.selects row then data row else row
    with hf
  have hid : ∀ row, (f row).id = row.id := by
    intro row
    simp only [hf]
    split
    · exact hdata.id row
    · rfl
  have hfields : ∀ row, (f row).sequence = row.sequence ∧ (f row).prevHash = row.prevHash ∧
      (f row).entryHash = row.entryHash := by
    intro row
    simp only [hf]
    split
    · exact ⟨hdata.sequence row, hdata.prevHash row, hdata.entryHash row⟩
    · exact ⟨rfl, rfl, rfl⟩
  have hcanonical : ∀ row, (f row).metadataCanonical = row.metadataCanonical := by
    intro row
    simp only [hf]
    split
    · exact hdata.metadataCanonical row
    · rfl
  have hlive : ∀ row, (f row).deletedAt = none → f row = row := by
    intro row
    simp only [hf]
    split
    · exact fun hnone => absurd hnone (hdata.deletedAt row)
    · exact fun _ => rfl
  have hsealed : ∀ row, (f row).isSealed = row.isSealed := by
    intro row
    rw [AuditLog.isSealed, AuditLog.isSealed, (hfields row).2.2]
  have hrows : bySequence (table.map f) = (bySequence table).map f := by
    apply bySequence_eq _ (h.linked.map hfields)
    rw [filter_map]
    apply ((bySequence_perm table).map f).trans
    simp only [Function.comp_def, hsealed]
    exact List.Perm.refl _
  refine ⟨?_, ?_, hrows ▸ h.linked.map hfields, ?_⟩
  · simpa [Function.comp_def, hid] using h.ids
  · intro row' hrow' hlegacy
    obtain ⟨row, hrow, rfl⟩ := mem_map.mp hrow'
    rw [(hfields row).1, (hfields row).2.1, hcanonical]
    exact h.legacy row hrow (hsealed row ▸ hlegacy)
  · intro row' hrow' hseal hkept
    obtain ⟨row, hrow, rfl⟩ := mem_map.mp hrow'
    have hsame := hlive row hkept
    rw [hsame] at hseal hkept ⊢
    exact h.intact row hrow hseal hkept

theorem retires_softDelete (now : ℤ) :
    Retires fun row : AuditLog Num => { row with deletedAt := some now } :=
  ⟨fun _ => rfl, fun _ => rfl, fun _ => rfl, fun _ => rfl, fun _ => rfl, fun _ => nofun⟩

theorem retires_anonymize (now : ℤ) : Retires fun row : AuditLog Num =>
      { row with actorId := redacted, entityId := redacted, metadata := some .empty,
                 deletedAt := some now } :=
  ⟨fun _ => rfl, fun _ => rfl, fun _ => rfl, fun _ => rfl, fun _ => rfl, fun _ => nofun⟩

theorem updateMany_sealed (hdata : Retires data) (h : ∀ row ∈ table, row.isSealed = true) :
    ∀ row ∈ updateMany table selection data, row.isSealed = true := by
  rw [updateMany, forall_mem_map]
  intro row hrow
  split
  · rw [AuditLog.isSealed, hdata.entryHash]
    exact h row hrow
  · exact h row hrow

end Purged
section Runs
variable {start : Table Num} {services : Services Num} {op : AuditOp Num} {tr : List (Transition (Table Num) (AuditOp Num))}

def AuditOp.Extends : AuditOp Num → Prop
  | .append _ _ _ | .backfill => True
  | _ => False

theorem ChainOk.after_extension {kept : AuditLog Num → Prop} (h : ChainOk services kept table)
    (hstep : AuditStep services table op table') (hop : op.Extends) : ChainOk services kept table' := by
  cases op with
  | append params id timestamp =>
    obtain ⟨⟨table', appended⟩, happend, rfl⟩ := Option.map_eq_some_iff.mp hstep
    exact (h.after_append happend).1
  | backfill =>
    obtain ⟨⟨table', res⟩, hbackfill, rfl⟩ := Option.map_eq_some_iff.mp hstep
    obtain ⟨_, _, hres, hok, -⟩ := h.after_backfill
    cases hbackfill.symm.trans hres
    exact hok
  | softDelete selection now | anonymize selection now => cases hop

theorem ChainOk.after_step (h : ChainOk services (·.deletedAt = none) table)
    (hstep : AuditStep services table op table') : ChainOk services (·.deletedAt = none) table' := by
  cases op with
  | append params id timestamp | backfill => exact h.after_extension hstep trivial
  | softDelete selection now =>
    cases hstep
    exact h.after_updateMany (retires_softDelete now)
  | anonymize selection now =>
    cases hstep
    exact h.after_updateMany (retires_anonymize now)

theorem ChainOk.after_run (hstart : LegacyTable start) (h : Run (AuditStep services) start tr table) :
    ChainOk services (·.deletedAt = none) table :=
  h.invariant (C := fun _ => True) (.of_legacy hstart) (fun _ _ => trivial) fun _ hstep _ hpre => hpre.after_step hstep

theorem sealed_after_step (hok : ChainOk services (·.deletedAt = none) table)
    (h : ∀ row ∈ table, row.isSealed = true) (hstep : AuditStep services table op table') :
    ∀ row ∈ table', row.isSealed = true := by
  cases op with
  | append params id timestamp =>
    obtain ⟨⟨table', appended⟩, happend, rfl⟩ := Option.map_eq_some_iff.mp hstep
    obtain ⟨-, row, heq, hsealed, -⟩ := hok.after_append happend
    rw [heq, forall_mem_append, forall_mem_singleton]
    exact ⟨h, hsealed⟩
  | backfill =>
    obtain ⟨⟨table', res⟩, hbackfill, rfl⟩ := Option.map_eq_some_iff.mp hstep
    obtain ⟨_, _, hres, -, -, hold, -⟩ := hok.after_backfill
    cases hbackfill.symm.trans hres
    intro row hrow
    by_contra hnot
    exact hnot (h row (hold row hrow (by simpa using hnot)))
  | softDelete selection now =>
    cases hstep
    exact updateMany_sealed (retires_softDelete now) h
  | anonymize selection now =>
    cases hstep
    exact updateMany_sealed (retires_anonymize now) h

variable (services) in
def Completes (t : Transition (Table Num) (AuditOp Num)) : Prop :=
  t.label = .backfill ∧ ∃ table' res, backfillBatch services t.pre = some (table', res) ∧
    res.sealedCount < backfillBatchSize

theorem sealed_of_completes (hstart : LegacyTable start)
    (h : Run (AuditStep services) start tr table) {t : Transition (Table Num) (AuditOp Num)}
    (ht : t ∈ tr) (hcompletes : Completes services t) : ∀ row ∈ table, row.isSealed = true := by
  obtain ⟨before, after, rfl⟩ := append_of_mem ht
  obtain ⟨hbefore, hstep, hafter⟩ := h.split
  obtain ⟨hlabel, table', res, hres, hcount⟩ := hcompletes
  have hpre : ChainOk services (·.deletedAt = none) t.pre := .after_run hstart hbefore
  obtain ⟨_, _, hres', -, hall, -⟩ := hpre.after_backfill
  cases hres.symm.trans hres'
  have hpost : t.post = table' := by
    rw [hlabel] at hstep
    have hsome : auditStep services t.pre .backfill = some t.post := hstep
    rw [auditStep, hres] at hsome
    exact (Option.some.inj hsome).symm
  have hend := hafter.invariant (C := fun _ => True) (I := fun table => ChainOk services (·.deletedAt = none) table ∧
      ∀ row ∈ table, row.isSealed = true)
    ⟨hpre.after_step hstep, hpost ▸ hall hcount⟩ (fun _ _ => trivial)
    fun _ hstep _ hI => ⟨hI.1.after_step hstep, sealed_after_step hI.1 hI.2 hstep⟩
  exact hend.2

end Runs
end Soter.Audit
