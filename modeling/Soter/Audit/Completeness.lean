import Soter.Audit.ChainRuns

/-! What an anchored verification says about the newest entries, and completeness: which chains that the service itself
has built pass a verification. -/
namespace Soter.Audit

section Anchor
open Soter.Json

variable {Num : Type} {table : Table Num} {row : AuditLog Num}

section Head

/-- `row` is a sealed row of the highest sequence. -/
structure IsHighest (table : Table Num) (row : AuditLog Num) : Prop where
  mem : row ∈ table
  isSealed : row.isSealed = true
  highest : ∃ seq, row.sequence = some seq ∧
    ∀ row' ∈ table, row'.isSealed = true → ∀ seq', row'.sequence = some seq' → seq' ≤ seq

/-- The table has a sealed row of the highest sequence, and `a` is its hash. -/
def HeadHas (table : Table Num) (a : Text) : Prop :=
  (∃ row, IsHighest table row) ∧ ∀ row, IsHighest table row → row.entryHash = some a

theorem not_headHas_of_unsealed {a : Text} (h : ∀ row ∈ table, row.isSealed = false) : ¬ HeadHas table a := by
  rintro ⟨⟨row, hrow⟩, -⟩
  have hfalse := h row hrow.mem
  rw [hrow.isSealed] at hfalse
  cases hfalse

variable [DecidableEq Num] {services : Services Num}

theorem headHas_of_holds {a : Text} {prev : Option ℤ} {expected : Option Text}
    (h : RowsHold services prev expected (bySequence table)) (hhead : headHash table = some a) :
    HeadHas table a := by
  obtain ⟨last, hlast, hhash⟩ := Option.bind_eq_some_iff.mp hhead
  obtain ⟨init, hrows⟩ := List.getLast?_eq_some_iff.mp hlast
  obtain ⟨hall, hgrow⟩ := h.sequences
  rw [hrows] at hall hgrow
  obtain ⟨top, htop, -⟩ := hall last (by simp)
  have hmem : ∀ r, r ∈ table ∧ r.isSealed = true ↔ r ∈ init ∨ r = last := by
    intro r
    rw [← mem_bySequence, hrows]
    simp
  have hbelow : ∀ r ∈ init, ∀ s, r.sequence = some s → s < top := by
    intro r hr s hs
    exact (List.pairwise_append.mp hgrow).2.2 r hr last (by simp) s top hs htop
  obtain ⟨hlastmem, hlastsealed⟩ := (hmem last).mpr (.inr rfl)
  constructor
  · refine ⟨last, hlastmem, hlastsealed, top, htop, fun r hr hsealed s hs => ?_⟩
    rcases (hmem r).mp ⟨hr, hsealed⟩ with hin | rfl
    · exact (hbelow r hin s hs).le
    · rw [htop] at hs
      cases hs
      exact le_rfl
  · intro r hr
    obtain ⟨s, hs, hmax⟩ := hr.highest
    rcases (hmem r).mp ⟨hr.mem, hr.isSealed⟩ with hin | rfl
    · have hlt := hbelow r hin s hs
      have hge := hmax last hlastmem hlastsealed top htop
      omega
    · exact hhash

/-- Whatever the table holds: with an anchor that is not the hash of its head, it is reported if and
only if a sealed row is left in it. -/
theorem truncation_reported_iff (services : Services Num) (table : Table Num) (anchor : Text)
    (hanchor : anchor ≠ []) : (¬ HeadHas table anchor → (verify services table (some anchor)).valid = false) ↔
      ∃ row ∈ table, row.isSealed = true := by
  constructor
  · intro h
    by_contra hnone
    have hunsealed : ∀ row ∈ table, row.isSealed = false := by simpa using hnone
    have hempty : bySequence table = [] := by
      apply List.eq_nil_iff_forall_not_mem.mpr
      intro row hrow
      exact hnone ⟨row, mem_bySequence.mp hrow⟩
    have hvalid : (verify services table (some anchor)).valid = true :=
      (verify_valid_iff table (some anchor)).mpr (.inl hempty)
    rw [h (not_headHas_of_unsealed hunsealed)] at hvalid
    cases hvalid
  · rintro ⟨row, hrow, hsealed⟩ hhead
    rw [← Bool.not_eq_true, verify_valid_iff]
    rintro (hempty | ⟨hholds, hanchored⟩)
    · have hmem := mem_bySequence.mpr ⟨hrow, hsealed⟩
      rw [hempty] at hmem
      cases hmem
    · exact hhead (headHas_of_holds hholds (hanchored anchor rfl hanchor))

end Head

def Services.marking : Services ℕ where
  numerals := .nat
  sha256 t := 'x' :: t
  jsonb := some
  jsonb_same m stored h := by
    cases h
    rfl
  collation k k' := decide (KeyLE k k')

def sealedSample : AuditLog ℕ :=
  { id := [], actorId := [], entity := [], entityId := [], action := [], timestamp := 0,
    metadata := none, sequence := some 1, entryHash := some ['y'] }

theorem truncation_reported_sample :
    ¬ HeadHas [sealedSample] ['x'] ∧ (verify Services.marking [sealedSample] (some ['x'])).valid = false := by
  have hhead : ¬ HeadHas [sealedSample] ['x'] := by
    intro h
    obtain ⟨row, hrow⟩ := h.1
    have hhash := h.2 row hrow
    rw [List.mem_singleton.mp hrow.mem] at hhash
    exact absurd hhash (by decide)
  have hiff := truncation_reported_iff Services.marking [sealedSample] ['x'] (by simp)
  exact ⟨hhead, hiff.mpr ⟨sealedSample, List.mem_singleton_self _, rfl⟩ hhead⟩

/-- A table from which every sealed row was deleted passes for valid, whatever the anchor. -/
theorem emptied_table_valid :
    ¬ HeadHas ([] : Table ℕ) ['x'] ∧ (verify Services.marking [] (some ['x'])).valid = true :=
  ⟨not_headHas_of_unsealed (by simp), rfl⟩

end Anchor
section Completeness
open Soter.Json Soter.Runs

variable {Num : Type} {services : Services Num} {table rows : Table Num} {row : AuditLog Num}

section PlainInputs
variable {start table' : Table Num} {op : AuditOp Num}
  {tr : List (Transition (Table Num) (AuditOp Num))}

def AuditOp.AppendsPlain : AuditOp Num → Prop
  | .append params _ _ => Plain params.metadataOrEmpty.1
  | _ => True

theorem plain_empty : Plain (JsonValue.empty : JsonValue Num).1 :=
  ⟨fun _ => nofun, .obj (by simp) (by simp)⟩

theorem plain_after_step (hok : ChainOk services (·.deletedAt = none) table)
    (h : ∀ row ∈ table, Plain row.metadataOrNull.1) (hop : op.AppendsPlain)
    (hstep : AuditStep services table op table') : ∀ row ∈ table', Plain row.metadataOrNull.1 := by
  cases op with
  | append params id timestamp =>
    obtain ⟨⟨table', appended⟩, happend, rfl⟩ := Option.map_eq_some_iff.mp hstep
    obtain ⟨stored, hstored, -, rfl⟩ := appendInTx_cases happend
    rw [List.forall_mem_append, List.forall_mem_singleton]
    refine ⟨h, ?_⟩
    exact (plain_congr stored.2 params.metadataOrEmpty.2 (services.jsonb_same _ _ hstored)).mpr hop
  | backfill =>
    obtain ⟨⟨table', res⟩, hbackfill, rfl⟩ := Option.map_eq_some_iff.mp hstep
    obtain ⟨_, _, hres, -, -, -, hmeta⟩ := hok.after_backfill
    cases hbackfill.symm.trans hres
    intro row hrow
    obtain ⟨row', hrow', hval⟩ := hmeta row hrow
    rw [AuditLog.metadataOrNull, hval]
    exact h row' hrow'
  | softDelete selection now =>
    cases hstep
    refine List.forall_mem_map.mpr fun row hrow => ?_
    split
    · exact h row hrow
    · exact h row hrow
  | anonymize selection now =>
    cases hstep
    refine List.forall_mem_map.mpr fun row hrow => ?_
    split
    · exact plain_empty
    · exact h row hrow

theorem plain_after_run (hstart : LegacyTable start) (h : Run (AuditStep services) start tr table)
    (hlegacy : ∀ row ∈ start, Plain row.metadataOrNull.1) (htr : ∀ t ∈ tr, t.label.AppendsPlain) :
    ∀ row ∈ table, Plain row.metadataOrNull.1 := by
  have hend := h.invariant (C := fun t => t.label.AppendsPlain)
    (I := fun table => ChainOk services (·.deletedAt = none) table ∧ ∀ row ∈ table, Plain row.metadataOrNull.1)
    ⟨.of_legacy hstart, hlegacy⟩ htr
    fun _ hstep hplain hI => ⟨hI.1.after_step hstep, plain_after_step hI.1 hI.2 hplain hstep⟩
  exact hend.2

end PlainInputs

variable [DecidableEq Num]

theorem canonicalMatches_iff {metadataCanonical : Text} {metadata : JsonValue Num} :
    canonicalMatches services metadataCanonical metadata = true ↔
      ∃ v, parse services.numerals metadataCanonical = some v ∧ v.Same metadata.1 := by
  unfold canonicalMatches
  cases hparse : parse services.numerals metadataCanonical with
  | none => simp
  | some v =>
    have hequal : jsonDeepEqual v metadata.1 = true ↔ v.Same metadata.1 :=
      jsonDeepEqual_iff (parse_wf hparse) metadata.2
    simp only [Bool.or_eq_true, Bool.and_eq_true, beq_iff_eq, hequal, Option.some.injEq, exists_eq_left']
    constructor
    · rintro (hsame | ⟨htext, hsame⟩)
      · exact hsame
      · -- The second attempt reads the same text again.
        rw [htext, hparse] at hsame
        exact hequal.mp hsame
    · exact .inl

theorem foldSealedRow_iff {seq : ℤ} {expected : Text} : foldSealedRow services row seq (some expected) = .ok () ↔
      ∃ canonical, row.metadataCanonical = some canonical ∧
        row.entryHash = some (computeEntryHash services.sha256 services.numerals (row.entry seq canonical)) ∧
        row.prevHash.getD genesisPrevHash = expected ∧
        ∃ v, parse services.numerals canonical = some v ∧ v.Same row.metadataOrNull.1 := by
  rw [foldSealedRow]
  cases hhash : row.entryHash with
  | none => simp
  | some stored =>
    cases hcanonical : row.metadataCanonical with
    | none => simp
    | some canonical =>
      simp only [Option.some.injEq, exists_eq_left']
      rw [← canonicalMatches_iff]
      split
      · rename_i hdiff
        simp only [reduceCtorEq, false_iff, not_and]
        exact fun heq => absurd heq.symm hdiff
      · rename_i hsame
        rw [not_not] at hsame
        split
        · rename_i hdiff
          simp only [reduceCtorEq, false_iff, not_and]
          exact fun _ heq => absurd heq hdiff
        · rename_i hlink
          rw [not_not] at hlink
          split
          · rename_i hmatch
            simp [hsame, hlink, hmatch]
          · rename_i hmatch
            simp [hmatch]

theorem foldSealedRow_intact {seq : ℤ} {prev : Text} (h : row.Intact services)
    (hseq : row.sequence = some seq) (hprev : row.prevHash = some prev) :
    foldSealedRow services row seq (some prev) = .ok () ↔ Plain row.metadataOrNull.1 := by
  obtain ⟨seq', m, hseq', hsame, hcanonical, hhash⟩ := h
  cases hseq.symm.trans hseq'
  rw [foldSealedRow_iff, ← plain_congr m.2 row.metadataOrNull.2 hsame, ← canonicalMetadata_denotes services.numerals m.2]
  constructor
  · rintro ⟨canonical, hcanonical', -, -, v, hparse, hv⟩
    cases hcanonical.symm.trans hcanonical'
    exact ⟨v, hparse, hv.trans hsame.symm⟩
  · rintro ⟨v, hparse, hv⟩
    exact ⟨_, hcanonical, hhash, by rw [hprev]; rfl, v, hparse, hv.trans hsame⟩

/-- Linked rows of which the live ones are intact pass exactly if the live ones have plain metadata. -/
theorem rowsHold_linked : ∀ {rows : Table Num} {k : ℕ} {prev : Text} {last : Option ℤ},
    Linked k prev rows → (∀ p, last = some p → p ≤ k) →
    (∀ row ∈ rows, row.deletedAt = none → row.Intact services) → (RowsHold services last (some prev) rows ↔
      ∀ row ∈ rows, row.deletedAt = none → Plain row.metadataOrNull.1)
  | [], _, _, _, _, _, _ => ⟨fun _ => by simp, fun _ => .nil⟩
  | row :: rows, k, prev, last, ⟨hseq, hprev, hash, hhash, hrows⟩, hlast, hintact => by
    rw [List.forall_mem_cons] at hintact ⊢
    have hothers : RowsHold services (some ((k : ℤ) + 1)) (some hash) rows ↔ _ :=
      rowsHold_linked hrows (fun p hp => by cases hp; push_cast; exact le_rfl) hintact.2
    have hfirst : RowHolds services last (some prev) row (k + 1) ↔ (row.deletedAt = none → Plain row.metadataOrNull.1) := by
      constructor
      · intro h hlive
        exact (foldSealedRow_intact (hintact.1 hlive) hseq hprev).mp (h.content hlive)
      · intro h
        refine ⟨hseq, fun p hp => ?_, fun hlive => ?_⟩
        · have := hlast p hp
          omega
        · exact (foldSealedRow_intact (hintact.1 hlive) hseq hprev).mpr (h hlive)
    rw [← hfirst, ← hothers]
    constructor
    · rintro (_ | @⟨_, _, _, _, seq, first, others⟩)
      cases hseq.symm.trans first.sequence
      rw [hhash] at others
      exact ⟨first, others⟩
    · rintro ⟨first, others⟩
      rw [← hhash] at others
      exact .cons first others

section Complete
variable {start : Table Num} {tr : List (Transition (Table Num) (AuditOp Num))}

/-- The sequences of the sealed rows are `1` to their number. -/
def Gapless (table : Table Num) : Prop :=
  (bySequence table).map (·.sequence) =
    (List.range' 1 (bySequence table).length).map fun n : ℕ => some (n : ℤ)

variable (services) in
def Passes (table : Table Num) : Prop :=
  (verify services table none).valid = true ∧ (verify services table none).issues = []

theorem passes_iff (h : ChainOk services (·.deletedAt = none) table) : Passes services table ↔
    ∀ row ∈ table, row.isSealed = true → row.deletedAt = none → Plain row.metadataOrNull.1 := by
  have hanchor : AnchorHolds table none := fun _ => nofun
  have hintact : ∀ row ∈ bySequence table, row.deletedAt = none → row.Intact services := by
    intro row hrow hlive
    obtain ⟨hmem, hsealed⟩ := mem_bySequence.mp hrow
    exact h.intact row hmem hsealed hlive
  have hrows : RowsHold services none (some genesisPrevHash) (bySequence table) ↔ _ :=
    rowsHold_linked h.linked nofun hintact
  rw [Passes, ← verify_issues, and_self, verify_valid_iff, hrows]
  constructor
  · rintro (hempty | ⟨hplain, -⟩) row hmem hsealed
    · have hrow := mem_bySequence.mpr ⟨hmem, hsealed⟩
      rw [hempty] at hrow
      cases hrow
    · exact hplain row (mem_bySequence.mpr ⟨hmem, hsealed⟩)
  · intro hplain
    right
    refine ⟨fun row hrow => ?_, hanchor⟩
    obtain ⟨hmem, hsealed⟩ := mem_bySequence.mp hrow
    exact hplain row hmem hsealed

/-- Whatever transactions have built a chain from legacy rows: it passes exactly if the metadata of
its live sealed rows is plain, as it is when all that came in was. Its sequences have no gaps, a batch
of a backfill can always be run, and after a completed one no row is unsealed. -/
theorem chain_complete_iff (hstart : LegacyTable start) (h : Run (AuditStep services) start tr table) :
    (Passes services table ↔
        ∀ row ∈ table, row.isSealed = true → row.deletedAt = none → Plain row.metadataOrNull.1) ∧
      ((∀ row ∈ start, Plain row.metadataOrNull.1) → (∀ t ∈ tr, t.label.AppendsPlain) → Passes services table) ∧
      Gapless table ∧ (∃ table', AuditStep services table .backfill table') ∧
      ((∃ t ∈ tr, Completes services t) → ∀ row ∈ table, row.isSealed = true) := by
  have hok := ChainOk.after_run hstart h
  refine ⟨passes_iff hok, fun hlegacy htr => ?_, hok.linked.sequences, ?_, ?_⟩
  · have hplain := plain_after_run hstart h hlegacy htr
    exact (passes_iff hok).mpr fun row hrow _ _ => hplain row hrow
  · obtain ⟨table', res, hres, -⟩ := hok.after_backfill
    exact ⟨table', by rw [AuditStep, auditStep, hres]; rfl⟩
  · rintro ⟨t, ht, hcompletes⟩
    exact sealed_of_completes hstart h ht hcompletes

end Complete

def legacySample (metadata : JsonValue ℕ) : AuditLog ℕ :=
  { id := ['a'], actorId := ['b'], entity := ['c'], entityId := ['d'], action := ['e'],
    timestamp := 0, metadata := some metadata }

def backfilledSample (metadata : JsonValue ℕ) : AuditLog ℕ :=
  sealedRow Services.marking ⟨[legacySample metadata], genesisPrevHash, 0⟩ (legacySample metadata)

theorem legacySample_legacy (metadata : JsonValue ℕ) : LegacyTable [legacySample metadata] := by
  refine ⟨List.nodup_singleton _, ?_⟩
  rw [List.forall_mem_singleton]
  exact ⟨rfl, rfl, rfl, rfl⟩

theorem backfill_sample (metadata : JsonValue ℕ) : AuditStep Services.marking
    [legacySample metadata] .backfill [backfilledSample metadata] := rfl

theorem chain_complete_sample : Passes Services.marking [backfilledSample .empty] :=
  (chain_complete_iff (legacySample_legacy .empty) (Run.single (backfill_sample .empty))).2.1
    (by simp [legacySample, AuditLog.metadataOrNull, plain_empty]) (by simp [AuditOp.AppendsPlain])

/-- A legacy row whose metadata is a string does not pass once it is sealed: its canonical form is
the string itself and no text of a JSON value. -/
theorem string_metadata_fails :
    ∃ tr, Run (AuditStep Services.marking) [legacySample ⟨.str ['h', 'i'], .str _⟩] tr
      [backfilledSample ⟨.str ['h', 'i'], .str _⟩] ∧ LegacyTable [legacySample ⟨.str ['h', 'i'], .str _⟩] ∧
    ¬ Passes Services.marking [backfilledSample ⟨.str ['h', 'i'], .str _⟩] := by
  refine ⟨_, Run.single (backfill_sample _), legacySample_legacy _, ?_⟩
  rintro ⟨hvalid, -⟩
  revert hvalid
  decide

end Completeness
end Soter.Audit
