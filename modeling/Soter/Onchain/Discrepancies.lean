import Soter.Onchain.Reconciliation

/-! When the reconciliation reports exactly the differences between the chain and the stored rows. -/
namespace Soter.Onchain.Reconciliation
open Soter.TwoPass List

inductive Difference
  | onChainOnly (e : OnChainLedgerEntry)
  | storedOnly (s : BalanceLedger)
  | amount (onChain stored : ℚ)
  | eventType (onChain stored : String)
  deriving DecidableEq

def ReconciliationDiscrepancy.difference (d : ReconciliationDiscrepancy) : Option Difference :=
  match d.type, d.expected, d.observed with
  | .missing, .onChainEntry e, .null => some (.onChainOnly e)
  | .missing, .null, .storedEntry s => some (.storedOnly s)
  | .amountMismatch, .amount a, .amount b => some (.amount a b)
  | .countMismatch, .eventType a, .eventType b => some (.eventType a b)
  | _, _, _ => none

def apart (p onChain stored : ℚ) : Bool := p / 100 * |onChain| < |onChain - stored|

/-- What differs between two entries with one id, where `far` is the test on their amounts. -/
def differences (far : ℚ → ℚ → Bool) (e : OnChainLedgerEntry) (s : BalanceLedger) : List Difference :=
  (if far e.amount s.amount then [.amount e.amount s.amount] else []) ++
    if e.eventType ≠ s.eventType then [.eventType e.eventType s.eventType] else []

def atId (far : ℚ → ℚ → Bool) (onChainData : List OnChainLedgerEntry) (stored : List BalanceLedger)
    (id : String) : List Difference :=
  atKey (fun e => [Difference.onChainOnly e]) (fun s => [Difference.storedOnly s]) (differences far)
    (entry OnChainLedgerEntry.id onChainData id) (entry BalanceLedger.id stored id)

structure Enumerates (ids : List String) (onChainData : List OnChainLedgerEntry)
    (stored : List BalanceLedger) : Prop where
  once : ids.Nodup
  mem : ∀ id, id ∈ ids ↔ id ∈ onChainData.map OnChainLedgerEntry.id ∨ id ∈ stored.map BalanceLedger.id

/-- The two sides have the same ids, and the entries with one id the same type and amounts that are close
enough. -/
structure Agree (p : ℚ) (onChainData : List OnChainLedgerEntry) (stored : List BalanceLedger) : Prop where
  ids : ∀ id, id ∈ onChainData.map OnChainLedgerEntry.id ↔ id ∈ stored.map BalanceLedger.id
  entries : ∀ e ∈ onChainData, ∀ s ∈ stored, e.id = s.id →
    e.eventType = s.eventType ∧ |e.amount - s.amount| ≤ p / 100 * |e.amount|

def Summary.bySeverityOf (summary : Summary) : Severity → ℕ
  | .low => summary.bySeverity.low
  | .medium => summary.bySeverity.medium
  | .high => summary.bySeverity.high

def Summary.byTypeOf (summary : Summary) : DiscrepancyType → ℕ
  | .missing => summary.byType.missing
  | .amountMismatch => summary.byType.amountMismatch
  | .countMismatch => summary.byType.countMismatch

structure Summary.Counts (summary : Summary) (discrepancies : List ReconciliationDiscrepancy) : Prop where
  total : summary.totalDiscrepancies = discrepancies.length
  severity : ∀ severity, summary.bySeverityOf severity =
    discrepancies.countP fun d => d.severity = severity
  type : ∀ type, summary.byTypeOf type = discrepancies.countP fun d => d.type = type

structure Exact (p : ℚ) (onChainData : List OnChainLedgerEntry) (stored : List BalanceLedger)
    (report : ReconciliationReport) : Prop where
  clean : report.discrepancies = [] ↔ Agree p onChainData stored
  /-- An id of one side has one missing entry, an id of both one entry for each attribute that differs. -/
  each : ∀ ids, Enumerates ids onChainData stored →
    (report.discrepancies.map ReconciliationDiscrepancy.difference).Perm
      ((ids.flatMap (atId (apart p) onChainData stored)).map some)
  summary : report.summary.Counts report.discrepancies

variable {p : ℚ}
section Amounts
variable {onChain stored : ℚ}

def exceeds (p onChain stored : ℚ) : Bool := (amountDiffPercent onChain stored).above p

theorem apart_eq_false : apart p onChain stored = false ↔ |onChain - stored| ≤ p / 100 * |onChain| := by
  rw [apart, decide_eq_false_iff_not, not_lt]

/-- On a positive amount, and on none, the test is the one that is meant; on a negative one it never
succeeds. -/
theorem exceeds_iff (hp : 0 ≤ p) : exceeds p onChain stored = true ↔ 0 ≤ onChain ∧ apart p onChain stored = true := by
  have habs : 0 ≤ |onChain - stored| := abs_nonneg _
  rw [exceeds, amountDiffPercent, divide, apart, decide_eq_true_iff]
  rcases lt_trichotomy onChain 0 with hneg | hzero | hpos
  · rw [if_pos hneg.ne, Quotient.percent, Quotient.above, decide_eq_true_iff]
    have hquot : |onChain - stored| / onChain ≤ 0 := div_nonpos_of_nonneg_of_nonpos habs hneg.le
    constructor
    · intro h
      linarith
    · rintro ⟨h, -⟩
      linarith
  · rw [hzero, if_neg (not_not_intro rfl), abs_zero, mul_zero]
    rw [hzero] at habs
    by_cases h : |0 - stored| = 0
    · rw [if_pos h, h]
      simp [Quotient.percent, Quotient.above]
    · rw [if_neg h]
      have hlt : 0 < |0 - stored| := lt_of_le_of_ne habs (Ne.symm h)
      rw [Quotient.percent, Quotient.above, decide_eq_true_iff]
      · exact ⟨fun _ => ⟨le_refl 0, hlt⟩, fun _ => hlt⟩
      · exact nofun
  · rw [if_pos hpos.ne', Quotient.percent, Quotient.above, decide_eq_true_iff, abs_of_pos hpos]
    rw [div_mul_eq_mul_div, lt_div_iff₀ hpos]
    constructor
    · intro h
      exact ⟨hpos.le, by linarith⟩
    · rintro ⟨-, h⟩
      linarith

end Amounts
variable {ids : List String} {onChainData : List OnChainLedgerEntry}
section Report
variable {stored : List BalanceLedger}

theorem checkOnChainEntry_difference (e : OnChainLedgerEntry) :
    (checkOnChainEntry p stored e).map ReconciliationDiscrepancy.difference =
      (first (fun e => [Difference.onChainOnly e]) (differences (exceeds p)) e
        (entry BalanceLedger.id stored e.id)).map some := by
  rw [checkOnChainEntry]
  cases entry BalanceLedger.id stored e.id with
  | none => rfl
  | some s =>
    simp only [first, differences, map_append]
    congr 1
    · by_cases hfar : exceeds p e.amount s.amount = true
      · rw [if_pos hfar, if_pos (show (amountDiffPercent e.amount s.amount).above p = true from hfar)]
        rfl
      · rw [if_neg hfar, if_neg (show ¬ (amountDiffPercent e.amount s.amount).above p = true from hfar)]
        rfl
    · by_cases htype : e.eventType = s.eventType
      · rw [if_neg (not_not_intro htype), if_neg (not_not_intro htype)]
        rfl
      · rw [if_pos htype, if_pos htype]
        rfl

theorem checkStoredEntry_difference (s : BalanceLedger) :
    (checkStoredEntry onChainData s).map ReconciliationDiscrepancy.difference =
      (second (fun s => [Difference.storedOnly s]) s (entry OnChainLedgerEntry.id onChainData s.id)).map some := by
  rw [checkStoredEntry]
  cases entry OnChainLedgerEntry.id onChainData s.id <;> rfl

theorem report_perm (hon : (onChainData.map OnChainLedgerEntry.id).Nodup)
    (hst : (stored.map BalanceLedger.id).Nodup) (hids : Enumerates ids onChainData stored) :
    ((onChainData.flatMap (checkOnChainEntry p stored) ++
        stored.flatMap (checkStoredEntry onChainData)).map ReconciliationDiscrepancy.difference).Perm
      ((ids.flatMap (atId (exceeds p) onChainData stored)).map some) := by
  have hpasses : (passes OnChainLedgerEntry.id BalanceLedger.id (fun e => [Difference.onChainOnly e])
      (fun s => [Difference.storedOnly s]) (differences (exceeds p)) onChainData stored).Perm
      (ids.flatMap (atId (exceeds p) onChainData stored)) := passes_perm hon hst hids.once hids.mem
  refine List.Perm.trans (List.Perm.of_eq ?_) (hpasses.map some)
  rw [passes, map_append, map_append, map_flatMap, map_flatMap, map_flatMap, map_flatMap]
  congr 1
  · exact flatMap_congr fun e _ => checkOnChainEntry_difference e
  · exact flatMap_congr fun s _ => checkStoredEntry_difference s

theorem summary_foldl (discrepancies : List ReconciliationDiscrepancy) (summary : Summary) :
    let final := discrepancies.foldl (fun summary d =>
        { summary with
          bySeverity := summary.bySeverity.add d.severity
          byType := summary.byType.add d.type }) summary
    final.totalDiscrepancies = summary.totalDiscrepancies ∧ (∀ severity, final.bySeverityOf severity =
        summary.bySeverityOf severity + discrepancies.countP fun d => d.severity = severity) ∧
      ∀ type, final.byTypeOf type = summary.byTypeOf type + discrepancies.countP fun d => d.type = type := by
  induction discrepancies generalizing summary with
  | nil => exact ⟨rfl, fun _ => rfl, fun _ => rfl⟩
  | cons d rest ih =>
    obtain ⟨htotal, hseverity, htype⟩ := ih
      { summary with
        bySeverity := summary.bySeverity.add d.severity
        byType := summary.byType.add d.type }
    refine ⟨htotal, fun severity => ?_, fun type => ?_⟩
    · rw [foldl_cons, hseverity, countP_cons]
      cases hd : d.severity <;> cases severity <;>
        simp only [Summary.bySeverityOf, BySeverity.add, reduceCtorEq, decide_true, decide_false, if_true,
          Bool.false_eq_true, if_false] <;> omega
    · rw [foldl_cons, htype, countP_cons]
      cases hd : d.type <;> cases type <;>
        simp only [Summary.byTypeOf, ByType.add, reduceCtorEq, decide_true, decide_false, if_true,
          Bool.false_eq_true, if_false] <;> omega

theorem counts_calculateSummary (discrepancies : List ReconciliationDiscrepancy) :
    (calculateSummary discrepancies).Counts discrepancies := by
  obtain ⟨htotal, hseverity, htype⟩ :=
    summary_foldl discrepancies { totalDiscrepancies := discrepancies.length }
  refine ⟨htotal, fun severity => ?_, fun type => ?_⟩
  · rw [calculateSummary, hseverity]
    cases severity <;> exact Nat.zero_add _
  · rw [calculateSummary, htype]
    cases type <;> exact Nat.zero_add _

end Report
section Exactness
variable {stored : List BalanceLedger} {rows : List BalanceLedger}

variable {far : ℚ → ℚ → Bool} {e : OnChainLedgerEntry} {s : BalanceLedger} {a b : ℚ}

theorem enumerates_allKeys (hon : (onChainData.map OnChainLedgerEntry.id).Nodup)
    (hst : (stored.map BalanceLedger.id).Nodup) :
    Enumerates (allKeys OnChainLedgerEntry.id BalanceLedger.id onChainData stored) onChainData stored :=
  ⟨nodup_allKeys hon hst, fun _ => mem_allKeys⟩

theorem mem_differences_amount
    (h : Difference.amount a b ∈ differences far e s) : a = e.amount ∧ b = s.amount ∧ far a b = true := by
  rw [differences, mem_append] at h
  rcases h with h | h
  · split at h
    · rename_i hfar
      cases mem_singleton.mp h
      exact ⟨rfl, rfl, hfar⟩
    · cases h
  · split at h
    · cases mem_singleton.mp h
    · cases h

theorem far_of_mem_atId {id : String} (h : Difference.amount a b ∈ atId far onChainData stored id) : far a b = true := by
  rw [atId] at h
  cases hon : entry OnChainLedgerEntry.id onChainData id with
  | none =>
    cases hst : entry BalanceLedger.id stored id with
    | none =>
      rw [hon, hst] at h
      cases h
    | some s =>
      rw [hon, hst] at h
      cases mem_singleton.mp h
  | some e =>
    cases hst : entry BalanceLedger.id stored id with
    | none =>
      rw [hon, hst] at h
      cases mem_singleton.mp h
    | some s =>
      rw [hon, hst] at h
      exact (mem_differences_amount h).2.2

theorem differences_eq_nil :
    differences far e s = [] ↔ far e.amount s.amount = false ∧ e.eventType = s.eventType := by
  rw [differences, append_eq_nil_iff]
  by_cases hfar : far e.amount s.amount = true
  · rw [if_pos hfar, hfar]
    simp
  · rw [if_neg hfar, Bool.eq_false_iff.mpr hfar]
    by_cases htype : e.eventType = s.eventType
    · simp [htype]
    · simp [htype]

theorem agree_iff (hon : (onChainData.map OnChainLedgerEntry.id).Nodup)
    (hst : (stored.map BalanceLedger.id).Nodup) (hids : Enumerates ids onChainData stored) :
    ids.flatMap (atId (apart p) onChainData stored) = [] ↔ Agree p onChainData stored := by
  rw [flatMap_eq_nil_iff]
  constructor
  · intro h
    refine ⟨fun id => ?_, fun e he s hs hid => ?_⟩
    · by_contra hne
      have hnil := fun hmem => h id ((hids.mem id).mpr hmem)
      rw [atId] at hnil
      cases hone : entry OnChainLedgerEntry.id onChainData id with
      | none =>
        cases hste : entry BalanceLedger.id stored id with
        | none =>
          have hnone := entry_eq_none.mp hone
          have hnone' := entry_eq_none.mp hste
          tauto
        | some s =>
          rw [hone, hste] at hnil
          obtain ⟨hs, rfl⟩ := mem_of_entry hste
          cases hnil (.inr (mem_map_of_mem hs))
      | some e =>
        obtain ⟨he, rfl⟩ := mem_of_entry hone
        cases hste : entry BalanceLedger.id stored e.id with
        | none =>
          rw [hone, hste] at hnil
          cases hnil (.inl (mem_map_of_mem he))
        | some s =>
          obtain ⟨hs, hid⟩ := mem_of_entry hste
          rw [← hid] at hne
          exact hne ⟨fun _ => mem_map_of_mem hs, fun _ => hid ▸ mem_map_of_mem he⟩
    · have hnil := h e.id ((hids.mem e.id).mpr (.inl (mem_map_of_mem he)))
      rw [atId, entry_of_mem hon he, hid, entry_of_mem hst hs] at hnil
      have hnil : differences (apart p) e s = [] := hnil
      obtain ⟨hfar, htype⟩ := differences_eq_nil.mp hnil
      exact ⟨htype, apart_eq_false.mp hfar⟩
  · rintro ⟨hsame, hentries⟩ id hid
    have hboth : id ∈ onChainData.map OnChainLedgerEntry.id ∧ id ∈ stored.map BalanceLedger.id := by
      have hsame := hsame id
      have hmem := (hids.mem id).mp hid
      tauto
    obtain ⟨⟨e, he, rfl⟩, s, hs, hseq⟩ := And.imp mem_map.mp mem_map.mp hboth
    obtain ⟨htype, hclose⟩ := hentries e he s hs hseq.symm
    rw [atId, entry_of_mem hon he, ← hseq, entry_of_mem hst hs]
    exact differences_eq_nil.mpr ⟨apart_eq_false.mpr hclose, htype⟩

theorem nodup_storedEntries (hrows : (rows.map BalanceLedger.id).Nodup) (campaignId : Option String) :
    ((storedEntries rows campaignId).map BalanceLedger.id).Nodup := by
  rw [storedEntries]
  have hfilter : ((rows.filter fun row => (campaignId.filter (· ≠ "")).all (row.campaignId = ·)).map
      BalanceLedger.id).Nodup := hrows.sublist (filter_sublist.map _)
  exact ((mergeSort_perm _ _).map _).nodup_iff.mpr hfilter

/-- The ids of both sides with a negative amount on the chain have amounts that are close enough. -/
def NegativeClose (p : ℚ) (onChainData : List OnChainLedgerEntry) (stored : List BalanceLedger) : Prop :=
  ∀ e ∈ onChainData, ∀ s ∈ stored, e.id = s.id → e.amount < 0 →
    |e.amount - s.amount| ≤ p / 100 * |e.amount|

theorem atId_exceeds (hp : 0 ≤ p) (h : NegativeClose p onChainData stored) (id : String) :
    atId (exceeds p) onChainData stored id = atId (apart p) onChainData stored id := by
  rw [atId, atId]
  cases hon : entry OnChainLedgerEntry.id onChainData id with
  | none => cases entry BalanceLedger.id stored id <;> rfl
  | some e =>
    cases hst : entry BalanceLedger.id stored id with
    | none => rfl
    | some s =>
      obtain ⟨he, hid⟩ := mem_of_entry hon
      obtain ⟨hs, hid'⟩ := mem_of_entry hst
      have hsame : exceeds p e.amount s.amount = apart p e.amount s.amount := by
        rw [Bool.eq_iff_iff, exceeds_iff hp]
        constructor
        · exact And.right
        · intro hapart
          refine ⟨?_, hapart⟩
          by_contra hneg
          have hclose := apart_eq_false.mpr (h e he s hs (hid.trans hid'.symm) (not_le.mp hneg))
          rw [hapart] at hclose
          cases hclose
      simp only [atKey, differences, hsame]

/-- For every stored table, whatever the chain reports and for every threshold: the report is of exactly
the differences if and only if no entry with a negative amount on the chain differs by more than the
threshold. -/
theorem reconciliation_exact_iff (fetchOnChainData : ℤ → ℤ → List OnChainLedgerEntry)
    (rows : List BalanceLedger) (data : ReconciliationJobData) (hrows : (rows.map BalanceLedger.id).Nodup)
    (hon : ((fetchOnChainData data.startLedger data.endLedger).map OnChainLedgerEntry.id).Nodup)
    (hp : 0 ≤ data.thresholdPercent) :
    Exact data.thresholdPercent (fetchOnChainData data.startLedger data.endLedger)
        (storedEntries rows data.campaignId) (processReconciliation fetchOnChainData rows data) ↔
      NegativeClose data.thresholdPercent (fetchOnChainData data.startLedger data.endLedger)
        (storedEntries rows data.campaignId) := by
  have hst := nodup_storedEntries hrows data.campaignId
  generalize hfetched : fetchOnChainData data.startLedger data.endLedger = onChainData at hon
  generalize hstored : storedEntries rows data.campaignId = stored at hst
  generalize hthreshold : data.thresholdPercent = p at hp
  have hreport : (processReconciliation fetchOnChainData rows data).discrepancies =
      onChainData.flatMap (checkOnChainEntry p stored) ++ stored.flatMap (checkStoredEntry onChainData) := by
    rw [← hfetched, ← hstored, ← hthreshold]
    rfl
  have henum := enumerates_allKeys hon hst
  constructor
  · intro hexact e he s hs hid hneg
    rw [← apart_eq_false, ← Bool.not_eq_true]
    intro hfar
    -- the difference is due, so it is reported for some id
    have hdue : Difference.amount e.amount s.amount ∈ (allKeys OnChainLedgerEntry.id BalanceLedger.id
        onChainData stored).flatMap (atId (apart p) onChainData stored) := by
      rw [mem_flatMap]
      refine ⟨e.id, mem_allKeys.mpr (.inl (mem_map_of_mem he)), ?_⟩
      rw [atId, entry_of_mem hon he, hid, entry_of_mem hst hs]
      exact mem_append_left _ (by rw [if_pos hfar]; exact mem_singleton_self _)
    have heach := hexact.each _ henum
    rw [hreport] at heach
    have hreported := (heach.symm.trans (report_perm hon hst henum)).mem_iff.mp (mem_map_of_mem hdue)
    obtain ⟨d, hd, hsome⟩ := mem_map.mp hreported
    cases hsome
    obtain ⟨id, -, hatId⟩ := mem_flatMap.mp hd
    have hexceeds := (exceeds_iff hp).mp (far_of_mem_atId hatId)
    exact absurd hneg (not_lt.mpr hexceeds.1)
  · intro h
    have heach : ∀ ids, Enumerates ids onChainData stored →
        ((processReconciliation fetchOnChainData rows data).discrepancies.map
          ReconciliationDiscrepancy.difference).Perm
          ((ids.flatMap (atId (apart p) onChainData stored)).map some) := by
      intro ids hids
      have hsame : ids.flatMap (atId (exceeds p) onChainData stored) =
          ids.flatMap (atId (apart p) onChainData stored) :=
        flatMap_congr fun id _ => atId_exceeds hp h id
      rw [hreport, ← hsame]
      exact report_perm hon hst hids
    refine ⟨?_, heach, counts_calculateSummary _⟩
    rw [← agree_iff hon hst henum]
    have hperm := heach _ henum
    constructor
    · intro hnil
      rw [hnil] at hperm
      exact map_eq_nil_iff.mp hperm.symm.eq_nil
    · intro hnil
      rw [hnil] at hperm
      exact map_eq_nil_iff.mp hperm.eq_nil

end Exactness

def sampleOnChain (id : String) (amount : ℚ) (eventType : String) : OnChainLedgerEntry where
  id := id
  ledger := 7
  amount := amount
  eventType := eventType

def sampleRow (id : String) (amount : ℚ) (eventType : String) : BalanceLedger where
  id := id
  campaignId := "c"
  eventType := eventType
  amount := amount
  createdAt := 0

def sampleData : ReconciliationJobData where
  startLedger := 1
  endLedger := 9
  thresholdPercent := 5

theorem reconciliation_exact_lock :
    Exact 5 [sampleOnChain "a" 100 "lock"] (storedEntries [sampleRow "a" 50 "lock"] none)
      (processReconciliation (fun _ _ => [sampleOnChain "a" 100 "lock"]) [sampleRow "a" 50 "lock"]
        sampleData) := by
  refine (reconciliation_exact_iff (fun _ _ => [sampleOnChain "a" 100 "lock"]) [sampleRow "a" 50 "lock"]
    sampleData (nodup_singleton _) (nodup_singleton _) (by decide)).mpr ?_
  intro e he s _ _ hneg
  rw [mem_singleton.mp he] at hneg
  exact absurd hneg (by decide)

theorem reconciliation_exact_unlock : (processReconciliation (fun _ _ => [sampleOnChain "a" (-100) "unlock"])
        [sampleRow "a" (-50) "unlock"] sampleData).discrepancies = [] ∧
      ¬ Exact 5 [sampleOnChain "a" (-100) "unlock"] (storedEntries [sampleRow "a" (-50) "unlock"] none)
        (processReconciliation (fun _ _ => [sampleOnChain "a" (-100) "unlock"])
          [sampleRow "a" (-50) "unlock"] sampleData) := by
  have hsilent : (processReconciliation (fun _ _ => [sampleOnChain "a" (-100) "unlock"])
      [sampleRow "a" (-50) "unlock"] sampleData).discrepancies = [] := by
    decide +kernel
  refine ⟨hsilent, fun h => ?_⟩
  have hclose := (h.clean.mp hsilent).entries _ (mem_singleton_self _) (sampleRow "a" (-50) "unlock")
    (by decide +kernel) rfl
  exact absurd hclose.2 (by decide +kernel)

end Soter.Onchain.Reconciliation
