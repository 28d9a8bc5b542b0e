import Soter.Audit.ChainService

/-! What a verification without issues has seen: the paged walk visits every sealed row in the order
of the sequence, and each passes its checks. -/
namespace Soter.Audit
open Soter.Json List Walk

variable {Num : Type} {table rows done rest : Table Num} {row : AuditLog Num}

theorem sequenceLE_iff {a : ℤ} {q : Option ℤ} : sequenceLE (some a) q = true ↔ ∀ b, q = some b → a ≤ b := by
  cases q <;> simp [sequenceLE]

instance sequenceLE_total : Std.Total fun r r' : AuditLog Num =>
    sequenceLE r.sequence r'.sequence = true where
  total r r' := by
    cases r.sequence <;> cases r'.sequence <;> simp [sequenceLE]
    exact le_total _ _

instance sequenceLE_trans : IsTrans (AuditLog Num) fun r r' =>
    sequenceLE r.sequence r'.sequence = true where
  trans r r' r'' := by
    cases r.sequence <;> cases r'.sequence <;> cases r''.sequence <;> simp [sequenceLE]
    exact le_trans

theorem bySequence_perm (table : Table Num) : (bySequence table).Perm (table.filter (·.isSealed)) :=
  perm_insertionSort _ _

theorem mem_bySequence : row ∈ bySequence table ↔ row ∈ table ∧ row.isSealed = true :=
  (bySequence_perm table).mem_iff.trans mem_filter

theorem bySequence_pairwise (table : Table Num) :
    (bySequence table).Pairwise fun r r' => sequenceLE r.sequence r'.sequence = true :=
  pairwise_insertionSort _ _

variable [DecidableEq Num] {services : Services Num} {w : Walk}

section Visit

variable {id : Text} {seq : ℤ} {prev : Option ℤ} {expected headHash : Option Text}

theorem Walk.report_issues (w : Walk) (issue : ChainIssue) : (w.report issue).issues ≠ [] := by
  simp [report]

variable (services) in
/-- The checks that `row` has to pass after the sequence `prev` and the hash `expected`. -/
structure RowHolds (prev : Option ℤ) (expected : Option Text) (row : AuditLog Num) (seq : ℤ) :
    Prop where
  sequence : row.sequence = some seq
  grows : ∀ p, prev = some p → p < seq
  content : row.deletedAt = none → foldSealedRow services row seq expected = .ok ()

theorem Walk.checkOrder_grows (h : ∀ p, w.prevSeenSequence = some p → p < seq) : w.checkOrder id seq = w := by
  rw [checkOrder]
  cases hp : w.prevSeenSequence with
  | none => rfl
  | some p => exact if_neg (not_le.mpr (h p hp))

theorem Walk.checkOrder_issues (h : (w.checkOrder id seq).issues = []) :
    w.issues = [] ∧ ∀ p, w.prevSeenSequence = some p → p < seq := by
  rw [checkOrder] at h
  cases hp : w.prevSeenSequence with
  | none =>
    rw [hp] at h
    exact ⟨h, by simp⟩
  | some p =>
    rw [hp] at h
    simp only at h
    split at h
    · exact absurd h (report_issues _ _)
    · rename_i hlt
      exact ⟨h, by simpa using hlt⟩

theorem Walk.checkContent_issues (h : (w.checkContent services row seq).issues = []) :
    w.issues = [] ∧ (row.deletedAt = none → foldSealedRow services row seq w.expectedPrevHash = .ok ()) := by
  rw [checkContent] at h
  split at h
  · rename_i hdel
    exact ⟨h, fun hlive => absurd hlive hdel⟩
  · cases hfold : foldSealedRow services row seq w.expectedPrevHash with
    | ok u =>
      rw [hfold] at h
      exact ⟨h, fun _ => rfl⟩
    | error reason =>
      rw [hfold] at h
      exact absurd h (report_issues _ _)

structure Walk.Stands (w : Walk) (prev : Option ℤ) (expected headHash : Option Text) : Prop where
  issues : w.issues = []
  prevSeenSequence : w.prevSeenSequence = prev
  expectedPrevHash : w.expectedPrevHash = expected
  headHash : w.headHash = headHash

theorem Walk.checkContent_stands (hw : w.Stands prev expected headHash)
    (h : row.deletedAt = none → foldSealedRow services row seq expected = .ok ()) :
    (w.checkContent services row seq).Stands prev expected headHash := by
  rw [checkContent]
  split
  · exact ⟨hw.issues, hw.prevSeenSequence, hw.expectedPrevHash, hw.headHash⟩
  · rename_i hdel
    rw [hw.expectedPrevHash, h (not_ne_iff.mp hdel)]
    exact hw

theorem Walk.visit_stands (hw : w.Stands prev expected headHash) (h : RowHolds services prev expected row seq) :
    (w.visit services row).Stands (some seq) row.entryHash row.entryHash := by
  have hopen : ¬ maxIssues ≤ w.issues.length := by simp [hw.issues, maxIssues]
  have hseen : ({ w with sealedCount := w.sealedCount + 1 } : Walk).Stands prev expected headHash :=
    ⟨hw.issues, hw.prevSeenSequence, hw.expectedPrevHash, hw.headHash⟩
  rw [visit, if_neg hopen, h.sequence]
  simp only
  rw [checkOrder_grows (by simpa [hw.prevSeenSequence] using h.grows)]
  have hordered : ({ w with sealedCount := w.sealedCount + 1, prevSeenSequence := some seq } :
      Walk).Stands (some seq) expected headHash :=
    ⟨hw.issues, rfl, hw.expectedPrevHash, hw.headHash⟩
  have hcontent := checkContent_stands hordered h.content
  exact ⟨hcontent.issues, hcontent.prevSeenSequence, rfl, rfl⟩

theorem Walk.visit_issues (h : (w.visit services row).issues = []) : w.issues = [] ∧
      ∃ seq, RowHolds services w.prevSeenSequence w.expectedPrevHash row seq := by
  rw [visit] at h
  split at h
  · rename_i hfull
    simp [h, maxIssues] at hfull
  · cases hseq : row.sequence with
    | none =>
      rw [hseq] at h
      exact absurd h (report_issues _ _)
    | some seq =>
      rw [hseq] at h
      obtain ⟨horder, hcontent⟩ := checkContent_issues h
      obtain ⟨hw, hgrows⟩ := checkOrder_issues horder
      rw [checkOrder_grows hgrows] at hcontent
      exact ⟨hw, seq, hseq, hgrows, hcontent⟩

theorem Walk.foldl_visit_issues : ∀ (rows : Table Num) {w : Walk},
    (rows.foldl (visit services) w).issues = [] → w.issues = []
  | [], _, h => h
  | _ :: rows, _, h => (visit_issues (foldl_visit_issues rows h)).1

variable (services) in
inductive RowsHold : Option ℤ → Option Text → Table Num → Prop
  | nil {prev : Option ℤ} {expected : Option Text} : RowsHold prev expected []
  | cons {prev : Option ℤ} {expected : Option Text} {row : AuditLog Num} {rows : Table Num} {seq : ℤ}
      (first : RowHolds services prev expected row seq)
      (others : RowsHold (some seq) row.entryHash rows) : RowsHold prev expected (row :: rows)

theorem Walk.foldl_visit_iff : ∀ {rows : Table Num} {w : Walk}, w.issues = [] →
    ((rows.foldl (visit services) w).issues = [] ↔ RowsHold services w.prevSeenSequence w.expectedPrevHash rows)
  | [], w, hw => ⟨fun _ => .nil, fun _ => hw⟩
  | row :: rows, w, hw => by
    have hstands : w.Stands w.prevSeenSequence w.expectedPrevHash w.headHash := ⟨hw, rfl, rfl, rfl⟩
    constructor
    · intro h
      have hrest := foldl_visit_issues rows h
      obtain ⟨-, seq, hrow⟩ := visit_issues hrest
      have hnext := visit_stands hstands hrow
      have hrows := (foldl_visit_iff hnext.issues).mp h
      rw [hnext.prevSeenSequence, hnext.expectedPrevHash] at hrows
      exact .cons hrow hrows
    · intro h
      cases h with
      | cons first others =>
        have hnext := visit_stands hstands first
        apply (foldl_visit_iff hnext.issues).mpr
        rwa [hnext.prevSeenSequence, hnext.expectedPrevHash]

theorem Walk.foldl_visit_headHash : ∀ {rows : Table Num} {w : Walk},
    (rows.foldl (visit services) w).issues = [] → (rows.foldl (visit services) w).headHash =
      ((rows.getLast?).map (·.entryHash)).getD w.headHash
  | [], _, _ => rfl
  | row :: rows, w, h => by
    have hstep := foldl_visit_issues rows h
    obtain ⟨hw, seq, hrow⟩ := visit_issues hstep
    have hnext := visit_stands ⟨hw, rfl, rfl, rfl⟩ hrow
    rw [foldl_cons] at h ⊢
    rw [foldl_visit_headHash h, hnext.headHash]
    cases rows with
    | nil => rfl
    | cons row' rows => simp [getLast?_cons]

theorem RowsHold.sequences (h : RowsHold services prev expected rows) :
    (∀ row ∈ rows, ∃ seq, row.sequence = some seq ∧ ∀ p, prev = some p → p < seq) ∧
      rows.Pairwise fun r r' => ∀ s s', r.sequence = some s → r'.sequence = some s' → s < s' := by
  induction h with
  | nil => exact ⟨by simp, .nil⟩
  | @cons prev expected row rows seq first others ih =>
    obtain ⟨hall, hpair⟩ := ih
    refine ⟨?_, pairwise_cons.mpr ⟨?_, hpair⟩⟩
    · rw [forall_mem_cons]
      refine ⟨⟨seq, first.sequence, first.grows⟩, fun r hr => ?_⟩
      obtain ⟨s, hs, hlt⟩ := hall r hr
      exact ⟨s, hs, fun p hp => (first.grows p hp).trans (hlt seq rfl)⟩
    · intro r hr s s' hs hs'
      obtain ⟨s'', hs'', hlt⟩ := hall r hr
      rw [first.sequence] at hs
      cases hs
      cases hs'.symm.trans hs''
      exact hlt seq rfl

end Visit

/-- Behind rows that were visited without issues, the next page starts with the rows that are left. -/
theorem page_eq {prev : Option ℤ} {expected : Option Text} (hdone : bySequence table = done ++ rest)
    (hholds : RowsHold services prev expected done) :
    page table (done.getLast?.bind (·.sequence)) = rest.take verifyPageSize := by
  rcases eq_nil_or_concat done with rfl | ⟨init, last, rfl⟩
  · exact congrArg (take verifyPageSize) hdone
  · rw [concat_eq_append] at hdone hholds ⊢
    obtain ⟨hall, hgrow⟩ := hholds.sequences
    obtain ⟨l, hl, -⟩ := hall last (by simp)
    have hsorted := bySequence_pairwise table
    rw [hdone, append_assoc, pairwise_append] at hsorted
    have hinit : init.filter (fun r => sequenceLE (some l) r.sequence) = [] := by
      apply filter_eq_nil_iff.mpr
      intro r hr hle
      obtain ⟨s, hs, -⟩ := hall r (by simp [hr])
      have hlt : s < l := (pairwise_append.mp hgrow).2.2 r hr last (by simp) s l hs hl
      have hge : l ≤ s := sequenceLE_iff.mp hle s hs
      omega
    have hself : sequenceLE (some l) last.sequence = true := by simp [hl, sequenceLE]
    have hrest : rest.filter (fun r => sequenceLE (some l) r.sequence) = rest := by
      apply filter_eq_self.mpr
      intro r hr
      have hle := rel_of_pairwise_cons hsorted.2.1 hr
      rwa [hl] at hle
    rw [getLast?_append_of_ne_nil _ (by simp), getLast?_singleton, Option.bind_some, hl, page]
    simp only [hdone, filter_append, hinit, hrest, filter_cons, hself, nil_append]
    rfl

theorem walkPages_issues {sealedTotal : ℕ} : ∀ {fuel : ℕ} {w : Walk} {lastSequence : Option ℤ} {processed : ℕ},
    (walkPages services table sealedTotal fuel w lastSequence processed).issues = [] → w.issues = []
  | 0, _, _, _, h => h
  | fuel + 1, w, lastSequence, processed, h => by
    rw [walkPages] at h
    split at h
    · split at h
      · exact h
      · exact foldl_visit_issues _ (walkPages_issues h)
    · exact h

/-- The paged walk reports an issue if and only if the walk over all rows does, and otherwise ends
where that one ends. -/
theorem walkPages_spec : ∀ {fuel : ℕ} {done rest : Table Num} {w : Walk},
    bySequence table = done ++ rest → rest.length ≤ fuel → w = done.foldl (visit services) {} →
    w.issues = [] → (walkPages services table (done ++ rest).length fuel w (done.getLast?.bind (·.sequence))
        done.length = rest.foldl (visit services) w) ∨
      (walkPages services table (done ++ rest).length fuel w (done.getLast?.bind (·.sequence))
        done.length).issues ≠ [] ∧ (rest.foldl (visit services) w).issues ≠ []
  | fuel, done, [], w, _, _, _, _ => by
    left
    cases fuel with
    | zero => rfl
    | succ fuel => rw [walkPages, if_neg (by simp)]; rfl
  | fuel + 1, done, row :: rest, w, hdone, hfuel, hw, hclean => by
    have hholds : RowsHold services none (some genesisPrevHash) done :=
      (foldl_visit_iff (w := {}) rfl).mp (hw ▸ hclean)
    have hopen : done.length < (done ++ row :: rest).length ∧ w.issues.length < maxIssues := by
      simp [hclean, maxIssues]
    have hpage : page table (done.getLast?.bind (·.sequence)) =
        row :: rest.take (verifyPageSize - 1) := page_eq hdone hholds
    have hcut : row :: rest = (row :: rest.take (verifyPageSize - 1)) ++ rest.drop (verifyPageSize - 1) := by
      rw [cons_append, take_append_drop]
    generalize rest.take (verifyPageSize - 1) = others at hpage hcut
    have hlast : (done ++ row :: others).getLast?.bind (·.sequence) =
        ((row :: others).getLast (cons_ne_nil row others)).sequence := by
      rw [getLast?_append_of_ne_nil _ (by simp), getLast?_eq_some_getLast (by simp)]
      rfl
    have hcount : (done ++ row :: others).length = done.length + (row :: others).length :=
      length_append
    have hstep : walkPages services table (done ++ row :: rest).length (fuel + 1) w
        (done.getLast?.bind (·.sequence)) done.length =
        walkPages services table (done ++ row :: rest).length fuel ((row :: others).foldl (visit services) w)
          ((done ++ row :: others).getLast?.bind (·.sequence)) (done ++ row :: others).length := by
      rw [walkPages, if_pos hopen, hpage, hlast, hcount]
    rw [hstep, hcut, foldl_append, ← append_assoc]
    by_cases hnext : ((row :: others).foldl (visit services) w).issues = []
    · have hleft : (rest.drop (verifyPageSize - 1)).length ≤ fuel := by
        rw [length_drop]
        rw [length_cons] at hfuel
        omega
      have hrows : bySequence table = (done ++ row :: others) ++ rest.drop (verifyPageSize - 1) := by
        rw [hdone, hcut, append_assoc]
      exact walkPages_spec hrows hleft (by rw [hw, foldl_append]) hnext
    · right
      exact ⟨fun h => hnext (walkPages_issues h), fun h => hnext (foldl_visit_issues _ h)⟩

variable (services) in
def walkRows (table : Table Num) : Walk := (bySequence table).foldl (visit services) {}

variable (services) in
theorem walkPages_eq (table : Table Num) :
    walkPages services table (bySequence table).length (bySequence table).length {} none 0 = walkRows services table ∨
      (walkPages services table (bySequence table).length (bySequence table).length {} none 0).issues
          ≠ [] ∧ (walkRows services table).issues ≠ [] :=
  walkPages_spec (nil_append _).symm le_rfl rfl rfl

def headHash (table : Table Num) : Option Text := (bySequence table).getLast?.bind (·.entryHash)

def AnchorHolds (table : Table Num) (anchor : Option Text) : Prop :=
  ∀ a, anchor = some a → a ≠ [] → headHash table = some a

theorem walkRows_headHash (hrows : bySequence table ≠ []) (h : (walkRows services table).issues = []) :
    (walkRows services table).headHash = headHash table ∧ headHash table ≠ none := by
  have hlast := getLast?_eq_some_getLast hrows
  have hsealed : ((bySequence table).getLast hrows).isSealed = true :=
    (mem_bySequence.mp (getLast_mem hrows)).2
  rw [walkRows, foldl_visit_headHash h, headHash, hlast]
  exact ⟨rfl, Option.isSome_iff_ne_none.mp hsealed⟩

theorem Walk.checkAnchor_issues {anchor found : Option Text} (hw : w.headHash = found)
    (hfound : found ≠ none) : (w.checkAnchor anchor).issues = [] ↔
      w.issues = [] ∧ ∀ a, anchor = some a → a ≠ [] → found = some a := by
  obtain ⟨hash, rfl⟩ := Option.ne_none_iff_exists'.mp hfound
  unfold checkAnchor
  rw [hw]
  cases anchor with
  | none => simp
  | some a =>
    simp only [Option.some.injEq, forall_eq']
    split
    · rename_i hdiff
      simp only [report_issues, false_iff, not_and]
      exact fun _ h => hdiff.2 (h hdiff.1)
    · rename_i hsame
      rw [not_and] at hsame
      exact ⟨fun h => ⟨h, fun hne => not_ne_iff.mp (hsame hne)⟩, fun h => h.1⟩

theorem Walk.checkAnchor_report {anchor : Option Text} (h : (w.checkAnchor anchor).issues = []) :
    w.issues = [] := by
  unfold checkAnchor at h
  split at h
  · split at h
    · exact absurd h (report_issues _ _)
    · exact h
  · exact h

theorem verify_issues (table : Table Num) (anchor : Option Text) :
    (verify services table anchor).valid = true ↔ (verify services table anchor).issues = [] := by
  rw [verify]
  split <;> simp

/-- The verdict: a table without sealed rows is valid; any other is valid exactly when all its sealed
rows pass their checks and the last of them has the hash of the anchor. -/
theorem verify_valid_iff (table : Table Num) (anchor : Option Text) :
    (verify services table anchor).valid = true ↔ bySequence table = [] ∨
      RowsHold services none (some genesisPrevHash) (bySequence table) ∧ AnchorHolds table anchor := by
  have hlen : (table.filter (·.isSealed)).length = (bySequence table).length :=
    (bySequence_perm table).length_eq.symm
  by_cases hrows : bySequence table = []
  · rw [verify, hlen, hrows]
    simp
  · have hpos : (bySequence table).length ≠ 0 := by simpa using hrows
    rw [verify_issues, verify, hlen]
    simp only [if_neg hpos, hrows, false_or]
    have hwalk : (walkRows services table).issues = [] ↔
        RowsHold services none (some genesisPrevHash) (bySequence table) :=
      foldl_visit_iff rfl
    rcases walkPages_eq services table with heq | ⟨hpaged, hplain⟩
    · rw [heq]
      constructor
      · intro h
        have hclean := checkAnchor_report h
        obtain ⟨hhead, hsome⟩ := walkRows_headHash hrows hclean
        exact ⟨hwalk.mp hclean, ((checkAnchor_issues hhead hsome).mp h).2⟩
      · rintro ⟨hholds, hanchor⟩
        have hclean : (walkRows services table).issues = [] := hwalk.mpr hholds
        obtain ⟨hhead, hsome⟩ := walkRows_headHash hrows hclean
        exact (checkAnchor_issues hhead hsome).mpr ⟨hclean, hanchor⟩
    · constructor
      · intro h
        exact absurd (checkAnchor_report h) hpaged
      · rintro ⟨hholds, -⟩
        exact absurd (hwalk.mpr hholds) hplain

end Soter.Audit
