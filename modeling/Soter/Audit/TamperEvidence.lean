import Soter.Audit.Completeness
import Soter.Lib.HashChain

/-! Tamper evidence: which tables a verification anchored at the head of a chain cannot tell from the
one that the service built. -/
namespace Soter.Audit
open Soter.Json Soter.Runs Soter.HashChain List

variable {Num : Type} {services : Services Num} {table rows before after : Table Num}
  {row : AuditLog Num}

def Entry.unlinked (fields : Entry) : Entry := { fields with prevHash := none }

theorem payload_wf (texts : List Text) : (Value.arr (texts.map .str) : Value Num).WF :=
  .arr (forall_mem_map.mpr fun s _ => .str s)

theorem payload_injective {numerals : Numerals Num} {texts texts' : List Text}
    (h : stringify numerals 0 (.arr (texts.map .str)) = stringify numerals 0 (.arr (texts'.map .str))) :
    texts = texts' := by
  have hsame := same_arr.mp (stringify_injective (payload_wf texts) (payload_wf texts') h)
  rw [forall₂_map_left_iff, forall₂_map_right_iff] at hsame
  apply forall₂_eq_eq_eq ▸ hsame.imp _
  intro s s' hs
  exact Value.str.inj hs

theorem computeEntryHash_inj (hsha : Function.Injective services.sha256) {fields fields' : Entry}
    (h : computeEntryHash services.sha256 services.numerals fields =
      computeEntryHash services.sha256 services.numerals fields') : fields.unlinked = fields'.unlinked ∧
      fields.prevHash.getD genesisPrevHash = fields'.prevHash.getD genesisPrevHash := by
  have hpayload := payload_injective (hsha h)
  simp only [entryPayload, cons.injEq, true_and, and_true] at hpayload
  obtain ⟨hid, hseq, hprev, hactor, hentity, hentityId, haction, htime, hmeta⟩ := hpayload
  have hseq := Calendar.decimalInt_injective hseq
  have htime := Calendar.toISOString_injective htime
  have hmeta := hsha hmeta
  refine ⟨?_, hprev⟩
  simp [Entry.unlinked, hid, hseq, hactor, hentity, hentityId, haction, htime, hmeta]

def AuditLog.link (row : AuditLog Num) : Text := row.prevHash.getD genesisPrevHash
def AuditLog.hash (row : AuditLog Num) : Text := row.entryHash.getD genesisPrevHash

variable (services) in
structure Covered (row : AuditLog Num) (seq : ℤ) (canonical : Text) : Prop where
  sequence : row.sequence = some seq
  metadataCanonical : row.metadataCanonical = some canonical
  entryHash : row.entryHash = some
    (computeEntryHash services.sha256 services.numerals (row.entry seq canonical))

def Agree (row row' : AuditLog Num) : Prop :=
  ∃ seq canonical, row.sequence = some seq ∧ row'.sequence = some seq ∧
    row.metadataCanonical = some canonical ∧ row'.metadataCanonical = some canonical ∧
    (row.entry seq canonical).unlinked = (row'.entry seq canonical).unlinked

theorem agree_of_hash (hsha : Function.Injective services.sha256) {row row' : AuditLog Num}
    {seq seq' : ℤ} {canonical canonical' : Text} (h : Covered services row seq canonical)
    (h' : Covered services row' seq' canonical') (hhash : row.hash = row'.hash) :
    Agree row row' ∧ row.link = row'.link := by
  rw [AuditLog.hash, AuditLog.hash, h.entryHash, h'.entryHash] at hhash
  obtain ⟨hfields, hlink⟩ := computeEntryHash_inj hsha hhash
  have hseq : seq = seq' := congrArg Entry.sequence hfields
  have hcanonical : canonical = canonical' := congrArg Entry.metadataCanonical hfields
  subst hseq hcanonical
  exact ⟨⟨seq, canonical, h.sequence, h'.sequence, h.metadataCanonical, h'.metadataCanonical, hfields⟩, hlink⟩

structure SameRow (row row' : AuditLog Num) : Prop where
  id : row.id = row'.id
  actorId : row.actorId = row'.actorId
  entity : row.entity = row'.entity
  entityId : row.entityId = row'.entityId
  action : row.action = row'.action
  timestamp : row.timestamp = row'.timestamp
  sequence : row.sequence = row'.sequence
  metadata : row.metadataOrNull.1.Same row'.metadataOrNull.1

theorem Agree.sameRow {row row' : AuditLog Num} (h : Agree row row')
    (hmeta : row.metadataOrNull.1.Same row'.metadataOrNull.1) : SameRow row row' := by
  obtain ⟨seq, canonical, hseq, hseq', -, -, hfields⟩ := h
  exact ⟨congrArg Entry.id hfields, congrArg Entry.actorId hfields, congrArg Entry.entity hfields,
    congrArg Entry.entityId hfields, congrArg Entry.action hfields, congrArg Entry.timestamp hfields,
    hseq.trans hseq'.symm, hmeta⟩

variable (services) in
def Readable (row : AuditLog Num) : Prop :=
  ∃ canonical v, row.metadataCanonical = some canonical ∧ parse services.numerals canonical = some v

section Passed
variable [DecidableEq Num]

theorem RowHolds.covered {prev : Option ℤ} {expected : Text} {seq : ℤ}
    (h : RowHolds services prev (some expected) row seq) (hlive : row.deletedAt = none) :
    ∃ canonical v, Covered services row seq canonical ∧ row.link = expected ∧
      parse services.numerals canonical = some v ∧ v.Same row.metadataOrNull.1 := by
  obtain ⟨canonical, hcanonical, hhash, hlink, v, hparse, hsame⟩ := foldSealedRow_iff.mp (h.content hlive)
  exact ⟨canonical, v, ⟨h.sequence, hcanonical, hhash⟩, hlink, hparse, hsame⟩

theorem RowsHold.chained : ∀ {rows : Table Num} {prev : Option ℤ} {expected : Text},
    RowsHold services prev (some expected) rows → (∀ row ∈ rows, row.deletedAt = none) →
    Chained AuditLog.link AuditLog.hash expected rows ∧ ∀ row ∈ rows, ∃ seq canonical v, Covered services row seq canonical ∧
        parse services.numerals canonical = some v ∧ v.Same row.metadataOrNull.1
  | [], _, _, _, _ => ⟨trivial, by simp⟩
  | row :: rows, prev, expected, h, hlive => by
    rw [forall_mem_cons] at hlive
    cases h with
    | @cons _ _ _ _ seq first others =>
      obtain ⟨canonical, v, hcovered, hlink, hparse, hsame⟩ := first.covered hlive.1
      have hhash : row.entryHash = some row.hash := by
        rw [AuditLog.hash, hcovered.entryHash]
        rfl
      rw [hhash] at others
      obtain ⟨hchained, hrest⟩ := others.chained hlive.2
      rw [forall_mem_cons]
      exact ⟨⟨hlink, hchained⟩, ⟨seq, canonical, v, hcovered, hparse, hsame⟩, hrest⟩

theorem RowsHold.before_of_append : ∀ {before : Table Num} {prev : Option ℤ} {expected : Option Text},
    RowsHold services prev expected (before ++ after) → RowsHold services prev expected before
  | [], _, _, _ => .nil
  | _ :: _, _, _, .cons first others => .cons first others.before_of_append

theorem bySequence_of_holds {prev : Option ℤ} {expected : Option Text}
    (h : RowsHold services prev expected rows) (hsealed : ∀ row ∈ rows, row.isSealed = true) :
    bySequence rows = rows := by
  obtain ⟨hall, hgrow⟩ := h.sequences
  rw [bySequence, filter_eq_self.mpr hsealed]
  apply List.Pairwise.insertionSort_eq
  apply hgrow.imp_of_mem
  intro r r' hr hr' hlt
  obtain ⟨s, hs, -⟩ := hall r hr
  rw [hs, sequenceLE_iff]
  exact fun s' hs' => (hlt s s' hs hs').le

end Passed

variable (services) in
/-- `row'` is `row` with the metadata that its recorded canonical form denotes. -/
structure Restated (row row' : AuditLog Num) : Prop where
  sequence : row'.sequence = row.sequence
  prevHash : row'.prevHash = row.prevHash
  entryHash : row'.entryHash = row.entryHash
  metadataCanonical : row'.metadataCanonical = row.metadataCanonical
  live : row'.deletedAt = none
  content : ∃ seq canonical v, Covered services row' seq canonical ∧
    parse services.numerals canonical = some v ∧ v.Same row'.metadataOrNull.1

theorem exists_restated {seq : ℤ} {canonical : Text} (h : Covered services row seq canonical)
    (hread : Readable services row) : ∃ row', Restated services row row' := by
  obtain ⟨canonical', v, hcanonical, hparse⟩ := hread
  cases h.metadataCanonical.symm.trans hcanonical
  refine ⟨{ row with metadata := some ⟨v, parse_wf hparse⟩, deletedAt := none }, rfl, rfl, rfl, rfl,
    rfl, seq, canonical, v, ?_, hparse, rfl⟩
  exact ⟨h.sequence, h.metadataCanonical, h.entryHash⟩

theorem exists_restated_rows : ∀ {rows : Table Num}, (∀ row ∈ rows, ∃ seq canonical, Covered services row seq canonical) →
    (∀ row ∈ rows, Readable services row) → ∃ rows', Forall₂ (Restated services) rows rows'
  | [], _, _ => ⟨[], .nil⟩
  | row :: rows, hcovered, hread => by
    rw [forall_mem_cons] at hcovered hread
    obtain ⟨seq, canonical, hrow⟩ := hcovered.1
    obtain ⟨row', hrow'⟩ := exists_restated hrow hread.1
    obtain ⟨rows', hrows'⟩ := exists_restated_rows hcovered.2 hread.2
    exact ⟨row' :: rows', .cons hrow' hrows'⟩

theorem rowsHold_restated [DecidableEq Num] : ∀ {rows rows' : Table Num} {k : ℕ} {prev : Text}
    {last : Option ℤ}, Linked k prev rows → Forall₂ (Restated services) rows rows' →
    (∀ p, last = some p → p ≤ k) → RowsHold services last (some prev) rows'
  | [], _, _, _, _, _, .nil, _ => .nil
  | row :: rows, row' :: rows', k, prev, last, ⟨hseq, hprev, hash, hhash, hrows⟩, .cons hrow' hrows', hlast => by
    obtain ⟨seq, canonical, v, hcovered, hparse, hsame⟩ := hrow'.content
    have hseq' : row'.sequence = some ((k : ℤ) + 1) := hrow'.sequence.trans hseq
    cases hcovered.sequence.symm.trans hseq'
    have hfirst : RowHolds services last (some prev) row' (k + 1) := by
      refine ⟨hseq', fun p hp => ?_, fun _ => ?_⟩
      · have hle := hlast p hp
        omega
      · apply foldSealedRow_iff.mpr
        refine ⟨canonical, hcovered.metadataCanonical, hcovered.entryHash, ?_, v, hparse, hsame⟩
        rw [hrow'.prevHash, hprev]
        rfl
    have hothers : RowsHold services (some ((k : ℤ) + 1)) (some hash) rows' := by
      apply rowsHold_restated hrows hrows'
      intro p hp
      cases hp
      push_cast
      exact le_rfl
    rw [← hhash, ← hrow'.entryHash] at hothers
    exact .cons hfirst hothers

theorem restated_sealed {rows' : Table Num} {k : ℕ} {prev : Text} (h : Linked k prev rows)
    (hrows' : Forall₂ (Restated services) rows rows') :
    ∀ row' ∈ rows', row'.isSealed = true ∧ row'.deletedAt = none := by
  induction hrows' generalizing k prev with
  | nil => simp
  | @cons row row' rows rows' hrow' hrows' ih =>
    obtain ⟨-, -, hash, hhash, hrest⟩ := h
    rw [forall_mem_cons]
    refine ⟨⟨?_, hrow'.live⟩, ih hrest⟩
    rw [AuditLog.isSealed, hrow'.entryHash, hhash]
    rfl

theorem restated_last {rows' : Table Num} (hrows' : Forall₂ (Restated services) rows rows') :
    rows'.getLast?.bind (·.entryHash) = rows.getLast?.bind (·.entryHash) := by
  induction hrows' with
  | nil => rfl
  | @cons row row' rows rows' hrow' hrows' ih =>
    rw [getLast?_cons, getLast?_cons]
    cases hrows' with
    | nil => simpa using hrow'.entryHash
    | cons hrow hrows => simpa [getLast?_cons] using ih

section Evidence
variable {original start : Table Num} {tr : List (Transition (Table Num) (AuditOp Num))}

variable {head : Text}

theorem Linked.behind : ∀ {before : Table Num} {k : ℕ} {prev : Text},
    Linked k prev (before ++ row :: after) → ∃ k' hash, row.entryHash = some hash ∧ Linked k' hash after
  | [], k, _, ⟨_, _, hash, hhash, hrows⟩ => ⟨k + 1, hash, hhash, hrows⟩
  | _ :: _, _, _, ⟨_, _, _, _, hrows⟩ => hrows.behind

theorem Linked.chained : ∀ {rows : Table Num} {k : ℕ} {prev : Text}, Linked k prev rows →
    Chained AuditLog.link AuditLog.hash prev rows
  | [], _, _, _ => trivial
  | row :: rows, k, prev, ⟨_, hprev, hash, hhash, hrows⟩ => by
    refine ⟨by rw [AuditLog.link, hprev]; rfl, ?_⟩
    rw [AuditLog.hash, hhash]
    exact hrows.chained

theorem tip_hash {hash start : Text} (hlast : rows.getLast?.bind (·.entryHash) = some hash) :
    tip AuditLog.hash start rows = hash := by
  rcases eq_nil_or_concat rows with rfl | ⟨init, last, rfl⟩
  · cases hlast
  · rw [concat_eq_append] at hlast ⊢
    have hhash : last.entryHash = some hash := by simpa using hlast
    rw [tip_snoc, AuditLog.hash, hhash]
    rfl

theorem AuditLog.Intact.covered (h : row.Intact services) : ∃ seq canonical, Covered services row seq canonical := by
  obtain ⟨seq, m, hseq, -, hcanonical, hhash⟩ := h
  exact ⟨seq, _, hseq, hcanonical, hhash⟩

theorem Agree.metadata_iff {row' : AuditLog Num} {seq : ℤ} {canonical : Text} {v : Value Num}
    (h : row.Intact services) (hagree : row.metadataCanonical = row'.metadataCanonical)
    (hcovered : Covered services row' seq canonical)
    (hparse : parse services.numerals canonical = some v) (hv : v.Same row'.metadataOrNull.1) :
    row.metadataOrNull.1.Same row'.metadataOrNull.1 ↔ Plain row.metadataOrNull.1 := by
  obtain ⟨-, m, -, hsame, hcanonical, -⟩ := h
  have heq : canonicalMetadata services.numerals m.1 none = canonical := by
    rw [hagree, hcovered.metadataCanonical] at hcanonical
    exact (Option.some.inj hcanonical).symm
  rw [← plain_congr m.2 row.metadataOrNull.2 hsame, ← canonicalMetadata_denotes services.numerals m.2, heq, hparse]
  constructor
  · intro hrows
    exact ⟨v, rfl, hv.trans (hrows.symm.trans hsame.symm)⟩
  · rintro ⟨read, hread, hsame'⟩
    cases hread
    exact hsame.symm.trans (hsame'.symm.trans hv)

theorem readable_of_agree {rows rows' : Table Num} (h : Forall₂ Agree rows rows')
    (hread : ∀ row' ∈ rows', Readable services row') : ∀ row ∈ rows, Readable services row := by
  induction h with
  | nil => simp
  | @cons row row' rows rows' hrow hrows ih =>
    rw [forall_mem_cons] at hread ⊢
    refine ⟨?_, ih hread.2⟩
    obtain ⟨canonical', v, hcanonical', hparse⟩ := hread.1
    obtain ⟨seq, canonical, -, -, hcanonical, hrow', -⟩ := hrow
    cases hrow'.symm.trans hcanonical'
    exact ⟨_, v, hcanonical, hparse⟩

theorem exists_both {α β : Type} {P Q : α → β → Prop} {as : List α} {bs : List β}
    (h : Forall₂ P as bs) (h' : Forall₂ Q as bs) : ∀ a ∈ as, ∃ b, P a b ∧ Q a b := by
  induction h with
  | nil => simp
  | @cons a b as bs hab _ ih =>
    cases h' with
    | cons hab' h' =>
      rw [forall_mem_cons]
      exact ⟨⟨b, hab, hab'⟩, ih h'⟩

variable [DecidableEq Num]

variable (services) in
def FalseStart : Prop :=
  ∃ rows : Table Num, RowsHold services none (some genesisPrevHash) rows ∧
    (∀ row ∈ rows, row.isSealed = true ∧ row.deletedAt = none ∧ ∀ s, row.sequence = some s → s ≤ 0) ∧
    rows.getLast?.bind (·.entryHash) = some genesisPrevHash

variable (services) in
/-- Where nothing but the original rows leads to the head of their chain: no row but the last hashes
to the genesis hash with only readable rows behind it, and either some row is not readable, or each
has plain metadata and there is no false start. -/
structure Unforgeable (original : Table Num) : Prop where
  uncut : ∀ before row after, bySequence original = before ++ row :: after → after ≠ [] →
    row.entryHash = some genesisPrevHash → ∃ r ∈ after, ¬ Readable services r
  denotes : (∃ row ∈ bySequence original, ¬ Readable services row) ∨
    (∀ row ∈ bySequence original, Plain row.metadataOrNull.1) ∧ ¬ FalseStart services

variable (services) in
/-- A table of live sealed rows, at least one, that passes with the anchor has the original rows. -/
def Evident (original : Table Num) (head : Text) : Prop :=
  ∀ table : Table Num, (∃ row ∈ table, row.isSealed = true) →
    (∀ row ∈ table, row.isSealed = true → row.deletedAt = none) →
    (verify services table (some head)).valid = true →
    Forall₂ SameRow (bySequence original) (bySequence table)

/-- The rows of a table that passes with the anchor agree with the original ones from the end on. -/
theorem agree_of_valid (hsha : Function.Injective services.sha256) (hhead : head ≠ [])
    (hlinked : Linked 0 genesisPrevHash (bySequence original))
    (hintact : ∀ row ∈ bySequence original, row.Intact services)
    (horiginal : headHash original = some head) (hsealed : ∃ row ∈ table, row.isSealed = true)
    (hlive : ∀ row ∈ table, row.isSealed = true → row.deletedAt = none)
    (hvalid : (verify services table (some head)).valid = true) :
    RowsHold services none (some genesisPrevHash) (bySequence table) ∧
      (Forall₂ Agree (bySequence original) (bySequence table) ∨
        (∃ before row after, bySequence original = before ++ row :: after ∧
          row.hash = genesisPrevHash ∧ Forall₂ Agree after (bySequence table)) ∨
        ∃ before row after, bySequence table = before ++ row :: after ∧
          row.hash = genesisPrevHash ∧ Forall₂ Agree (bySequence original) after) := by
  obtain ⟨row, hrow, hrow'⟩ := hsealed
  have hne : bySequence table ≠ [] := ne_nil_of_mem (mem_bySequence.mpr ⟨hrow, hrow'⟩)
  obtain ⟨hholds, hanchor⟩ := ((verify_valid_iff table (some head)).mp hvalid).resolve_left hne
  have hlive' : ∀ row ∈ bySequence table, row.deletedAt = none := by
    intro row hrow
    obtain ⟨hmem, hseal⟩ := mem_bySequence.mp hrow
    exact hlive row hmem hseal
  obtain ⟨hchained, hcontent⟩ := hholds.chained hlive'
  refine ⟨hholds, aligned hlinked.chained hchained ?_ ?_⟩
  · intro a ha b hb hhash
    obtain ⟨seq, canonical, hcovered⟩ := (hintact a ha).covered
    obtain ⟨seq', canonical', v, hcovered', -⟩ := hcontent b hb
    exact agree_of_hash hsha hcovered hcovered' hhash
  · rw [tip_hash horiginal, tip_hash (hanchor head rfl hhead)]

theorem Evident.same (h : Evident services original head) (hholds : RowsHold services none (some genesisPrevHash) rows)
    (hrows : ∀ row ∈ rows, row.isSealed = true ∧ row.deletedAt = none)
    (hlast : rows.getLast?.bind (·.entryHash) = some head) :
    Forall₂ SameRow (bySequence original) rows := by
  have hself : bySequence rows = rows := bySequence_of_holds hholds fun row hrow => (hrows row hrow).1
  have hvalid : (verify services rows (some head)).valid = true := by
    apply (verify_valid_iff rows (some head)).mpr
    rw [AnchorHolds, headHash, hself]
    exact .inr ⟨hholds, fun a ha _ => hlast.trans ha⟩
  have hsome : ∃ row ∈ rows, row.isSealed = true := by
    obtain ⟨last, hmem, -⟩ := Option.bind_eq_some_iff.mp hlast
    have hin := mem_of_getLast? hmem
    exact ⟨last, hin, (hrows last hin).1⟩
  have hsame := h rows hsome (fun row hrow _ => (hrows row hrow).2) hvalid
  rwa [hself] at hsame

theorem RowsHold.append {last : AuditLog Num} : ∀ {before : Table Num} {prev : Option ℤ}
    {expected : Option Text}, RowsHold services prev expected before → before.getLast? = some last →
    RowsHold services last.sequence last.entryHash after → RowsHold services prev expected (before ++ after)
  | [row], _, _, .cons first _, hlast, hafter => by
    rw [getLast?_singleton, Option.some.injEq] at hlast
    subst hlast
    rw [first.sequence] at hafter
    exact .cons first hafter
  | _ :: row' :: rows, _, _, .cons first others, hlast, hafter => by
    rw [getLast?_cons_cons] at hlast
    exact .cons first (others.append hlast hafter)

theorem unforgeable_of_evident (hlinked : Linked 0 genesisPrevHash (bySequence original))
    (hintact : ∀ row ∈ bySequence original, row.Intact services)
    (horiginal : headHash original = some head) (h : Evident services original head) :
    Unforgeable services original := by
  constructor
  · intro before row after hrows hafter hhash
    by_contra hnone
    have hread : ∀ r ∈ after, Readable services r := by simpa using hnone
    rw [hrows] at hlinked hintact
    obtain ⟨k, hash, hhash', hbehind⟩ := hlinked.behind
    cases hhash.symm.trans hhash'
    obtain ⟨rows', hrestated⟩ := exists_restated_rows (fun r hr => (hintact r (by simp [hr])).covered) hread
    have hlast : rows'.getLast?.bind (·.entryHash) = some head := by
      rw [restated_last hrestated, ← horiginal, headHash, hrows, getLast?_append_of_ne_nil _ (by simp), getLast?_cons,
        getLast?_eq_some_getLast hafter]
      rfl
    have hsame := h.same (rowsHold_restated hbehind hrestated (by rintro _ ⟨⟩)) (restated_sealed hbehind hrestated) hlast
    have hlen := hsame.length_eq
    rw [hrows, ← hrestated.length_eq] at hlen
    simp at hlen
    omega
  · by_cases hread : ∀ row ∈ bySequence original, Readable services row
    · right
      obtain ⟨rows', hrestated⟩ := exists_restated_rows (fun r hr => (hintact r hr).covered) hread
      have hlast : rows'.getLast?.bind (·.entryHash) = some head :=
        (restated_last hrestated).trans horiginal
      constructor
      · have hsame := h.same (rowsHold_restated hlinked hrestated (by rintro _ ⟨⟩)) (restated_sealed hlinked hrestated) hlast
        intro row hrow
        obtain ⟨row', hrow', hrestate⟩ := exists_both hsame hrestated row hrow
        obtain ⟨seq, canonical, v, hcovered, hparse, hv⟩ := hrestate.content
        exact (Agree.metadata_iff (hintact row hrow) hrestate.metadataCanonical.symm hcovered hparse hv).mp hrow'.metadata
      · rintro ⟨start, hholds, hstart, hgenesis⟩
        obtain ⟨last, hmem, hhash⟩ := Option.bind_eq_some_iff.mp hgenesis
        have hrest : RowsHold services last.sequence (some genesisPrevHash) rows' :=
          rowsHold_restated hlinked hrestated (fun p hp => (hstart last (mem_of_getLast? hmem)).2.2 p hp)
        have hall := hholds.append hmem (hhash ▸ hrest)
        have hne : rows' ≠ [] := by
          rintro rfl
          cases hlast
        have hsame := h.same hall (forall_mem_append.mpr ⟨fun row hrow => ⟨(hstart row hrow).1, (hstart row hrow).2.1⟩,
            restated_sealed hlinked hrestated⟩)
          (by rwa [getLast?_append_of_ne_nil _ hne])
        have hlen := hsame.length_eq
        rw [hrestated.length_eq, length_append] at hlen
        have hpos : start.length ≠ 0 := by
          intro hzero
          rw [length_eq_zero_iff.mp hzero] at hmem
          cases hmem
        omega
    · left
      simpa using hread

theorem falseStart_prefixed (hlinked : Linked 0 genesisPrevHash (bySequence original))
    (horiginal : headHash original = some head)
    (hholds : RowsHold services none (some genesisPrevHash) (bySequence table))
    (hlive : ∀ row ∈ bySequence table, row.deletedAt = none)
    (hrows : bySequence table = before ++ row :: after) (hhash : row.hash = genesisPrevHash)
    (hafter : Forall₂ Agree (bySequence original) after) : FalseStart services := by
  have hcut : bySequence table = (before ++ [row]) ++ after := by rw [hrows, append_assoc]; rfl
  have hmem : ∀ r ∈ before ++ [row], r ∈ bySequence table := by
    intro r hr
    rw [hcut]
    exact mem_append_left _ hr
  have hsealed : ∀ r ∈ before ++ [row], r.isSealed = true := fun r hr => (mem_bySequence.mp (hmem r hr)).2
  refine ⟨before ++ [row], (hcut ▸ hholds).before_of_append, fun r hr => ⟨hsealed r hr,
    hlive r (hmem r hr), fun s hs => ?_⟩, ?_⟩
  · have hgrow := hholds.sequences.2
    rw [hcut, pairwise_append] at hgrow
    have hne : bySequence original ≠ [] := by
      intro hempty
      rw [headHash, hempty] at horiginal
      cases horiginal
    obtain ⟨first, rest, hfirst⟩ := exists_cons_of_ne_nil hne
    rw [hfirst] at hafter hlinked
    cases hafter with
    | @cons _ first' _ rest' hagree hrest =>
      obtain ⟨seq, _, hseq, hseq', -⟩ := hagree
      cases hseq.symm.trans hlinked.1
      have hlt := hgrow.2.2 r hr first' (by simp) s _ hs hseq'
      push_cast at hlt
      omega
  · obtain ⟨hash, hsome⟩ := Option.isSome_iff_exists.mp (hsealed row (by simp))
    rw [AuditLog.hash, hsome, Option.getD_some] at hhash
    rw [getLast?_append_of_ne_nil _ (by simp), getLast?_singleton, Option.bind_some, hsome, hhash]

theorem evident_of_unforgeable (hsha : Function.Injective services.sha256)
    (hhead : head ≠ []) (hlinked : Linked 0 genesisPrevHash (bySequence original))
    (hintact : ∀ row ∈ bySequence original, row.Intact services)
    (horiginal : headHash original = some head) (h : Unforgeable services original) :
    Evident services original head := by
  intro table hsealed hlive hvalid
  obtain ⟨hholds, hcases⟩ := agree_of_valid hsha hhead hlinked hintact horiginal hsealed hlive hvalid
  have hlive' : ∀ row ∈ bySequence table, row.deletedAt = none := by
    intro row hrow
    obtain ⟨hmem, hseal⟩ := mem_bySequence.mp hrow
    exact hlive row hmem hseal
  obtain ⟨-, hcontent⟩ := hholds.chained hlive'
  have hread : ∀ row ∈ bySequence table, Readable services row := by
    intro row hrow
    obtain ⟨seq, canonical, v, hcovered, hparse, -⟩ := hcontent row hrow
    exact ⟨canonical, v, hcovered.metadataCanonical, hparse⟩
  rcases hcases with hall | ⟨before, row, after, hrows, hhash, hafter⟩ |
    ⟨before, row, after, hrows, hhash, hafter⟩
  · rcases h.denotes with ⟨row, hrow, hnot⟩ | ⟨hplain, -⟩
    · exact absurd (readable_of_agree hall hread row hrow) hnot
    · rw [forall₂_iff_zip] at hall ⊢
      refine ⟨hall.1, fun {row row'} hzip => ?_⟩
      obtain ⟨hrow, hrow'⟩ := of_mem_zip hzip
      obtain ⟨seq, canonical, v, hcovered, hparse, hv⟩ := hcontent row' hrow'
      have hagree := hall.2 hzip
      apply hagree.sameRow
      obtain ⟨_, _, -, -, hcanonical, hcanonical', -⟩ := hagree
      exact (Agree.metadata_iff (hintact row hrow) (hcanonical.trans hcanonical'.symm) hcovered hparse
        hv).mpr (hplain row hrow)
  · -- The rows behind `row` would be a chain of their own.
    have hne : after ≠ [] := by
      rintro rfl
      obtain ⟨r, hr, hr'⟩ := hsealed
      have hmem := mem_bySequence.mpr ⟨hr, hr'⟩
      rw [forall₂_nil_left_iff.mp hafter] at hmem
      cases hmem
    obtain ⟨hash, hsome⟩ := hlinked.hashes row (by simp [hrows])
    rw [AuditLog.hash, hsome, Option.getD_some] at hhash
    obtain ⟨r, hr, hnot⟩ := h.uncut before row after hrows hne (hhash ▸ hsome)
    exact absurd (readable_of_agree hafter hread r hr) hnot
  · -- The rows up to `row` would be a false start.
    have hread' := readable_of_agree hafter fun r hr => hread r (by simp [hrows, hr])
    rcases h.denotes with ⟨r, hr, hnot⟩ | ⟨-, hstart⟩
    · exact absurd (hread' r hr) hnot
    · exact absurd (falseStart_prefixed hlinked horiginal hholds hlive' hrows hhash hafter) hstart

variable (services) in
theorem unsealed_valid (h : ∀ row ∈ table, row.isSealed = false) (anchor : Option Text) :
    (verify services table anchor).valid = true ∧ bySequence table = [] := by
  have hempty : bySequence table = [] := by
    apply eq_nil_iff_forall_not_mem.mpr
    intro row hrow
    obtain ⟨hmem, hsealed⟩ := mem_bySequence.mp hrow
    rw [h row hmem] at hsealed
    cases hsealed
  exact ⟨(verify_valid_iff table anchor).mpr (.inl hempty), hempty⟩

/-- For every chain that appends and backfills have built: a verification anchored at its head tells
it from every table with other sealed rows, of which there is at least one, exactly if the chain is
not forgeable; from a table without sealed rows it never does. -/
theorem tamper_evident_iff (hsha : Function.Injective services.sha256)
    (hhash : ∀ t, services.sha256 t ≠ []) (hstart : LegacyTable start)
    (h : Run (AuditStep services) start tr original) (htr : ∀ t ∈ tr, t.label.Extends) {head : Text}
    (hhead : headHash original = some head) : (Evident services original head ↔ Unforgeable services original) ∧
      ∀ table : Table Num, (∀ row ∈ table, row.isSealed = false) →
        (verify services table (some head)).valid = true ∧
          ¬ Forall₂ SameRow (bySequence original) (bySequence table) := by
  have hok : ChainOk services (fun _ => True) original :=
    h.invariant (C := fun t => t.label.Extends) (.of_legacy hstart) htr
      fun _ hstep hext hpre => hpre.after_extension hstep hext
  have hintact : ∀ row ∈ bySequence original, row.Intact services := by
    intro row hrow
    obtain ⟨hmem, hsealed⟩ := mem_bySequence.mp hrow
    exact hok.intact row hmem hsealed trivial
  obtain ⟨last, hlast, hlasthash⟩ := Option.bind_eq_some_iff.mp hhead
  have hne : head ≠ [] := by
    obtain ⟨seq, m, -, -, -, hcovers⟩ := hintact last (mem_of_getLast? hlast)
    cases hlasthash.symm.trans hcovers
    exact hhash _
  constructor
  · constructor
    · exact unforgeable_of_evident hok.linked hintact hhead
    · exact evident_of_unforgeable hsha hne hok.linked hintact hhead
  · intro table hunsealed
    obtain ⟨hvalid, hempty⟩ := unsealed_valid services hunsealed (some head)
    refine ⟨hvalid, fun hsame => ?_⟩
    rw [hempty, forall₂_nil_right_iff] at hsame
    rw [hsame] at hlast
    cases hlast

theorem unforgeable_iff (hgenesis : ∀ t, services.sha256 t ≠ genesisPrevHash)
    (hintact : ∀ row ∈ bySequence original, row.Intact services) :
    Unforgeable services original ↔ (∃ row ∈ bySequence original, ¬ Readable services row) ∨
      ∀ row ∈ bySequence original, Plain row.metadataOrNull.1 := by
  have hstart : ¬ FalseStart services := by
    rintro ⟨rows, hholds, hrows, hlast⟩
    obtain ⟨last, hmem, hlasthash⟩ := Option.bind_eq_some_iff.mp hlast
    obtain ⟨-, hcontent⟩ := hholds.chained fun row hrow => (hrows row hrow).2.1
    obtain ⟨seq, canonical, v, hcovered, -⟩ := hcontent last (mem_of_getLast? hmem)
    exact hgenesis _ (Option.some.inj (hcovered.entryHash.symm.trans hlasthash))
  constructor
  · intro h
    exact h.denotes.imp id And.left
  · intro h
    refine ⟨fun before row after hrows _ hhash => ?_, h.imp id fun hplain => ⟨hplain, hstart⟩⟩
    obtain ⟨seq, m, -, -, -, hcovers⟩ := hintact row (by simp [hrows])
    exact absurd (Option.some.inj (hcovers.symm.trans hhash)) (hgenesis _)

end Evidence

theorem marking_ne_genesis (t : Text) : Services.marking.sha256 t ≠ genesisPrevHash := by
  simp [Services.marking, genesisPrevHash, replicate_succ]

theorem backfilledSample_rows (metadata : JsonValue ℕ) :
    bySequence [backfilledSample metadata] = [backfilledSample metadata] := rfl

theorem tamper_evident_sample : Evident Services.marking [backfilledSample .empty]
    (backfilledSample .empty).hash := by
  have hstep := backfill_sample .empty
  refine (tamper_evident_iff (cons_injective) (fun _ => cons_ne_nil _ _)
    (legacySample_legacy .empty) (Run.single hstep) (by simp [AuditOp.Extends]) rfl).1.mpr ?_
  have hok : ChainOk Services.marking (fun _ => True) [backfilledSample .empty] :=
    (ChainOk.of_legacy (legacySample_legacy .empty)).after_extension hstep trivial
  rw [unforgeable_iff marking_ne_genesis fun row hrow => hok.intact row (mem_bySequence.mp hrow).1
    (mem_bySequence.mp hrow).2 trivial]
  right
  rw [backfilledSample_rows, forall_mem_singleton]
  exact plain_empty

/-- The string `1` as metadata is its own canonical form, which the number 1 matches as well. -/
theorem string_metadata_forged :
    LegacyTable [legacySample ⟨.str ['1'], .str _⟩] ∧
    AuditStep Services.marking [legacySample ⟨.str ['1'], .str _⟩] .backfill
      [backfilledSample ⟨.str ['1'], .str _⟩] ∧
    headHash [backfilledSample ⟨.str ['1'], .str _⟩] =
      some (backfilledSample ⟨.str ['1'], .str _⟩).hash ∧
    (verify Services.marking
      [{ backfilledSample ⟨.str ['1'], .str _⟩ with metadata := some ⟨.num 1, .num _⟩ }]
      (some (backfilledSample ⟨.str ['1'], .str _⟩).hash)).valid = true ∧
    ¬ Forall₂ SameRow (bySequence [backfilledSample ⟨.str ['1'], .str _⟩])
      (bySequence [{ backfilledSample ⟨.str ['1'], .str _⟩ with metadata := some ⟨.num 1, .num _⟩ }])
    := by
  refine ⟨legacySample_legacy _, backfill_sample _, rfl, by decide, fun hsame => ?_⟩
  cases hsame with
  | cons hrow _ => cases hrow.metadata

end Soter.Audit
