import Soter.DecisionAudit.Log

/-! What has been recorded is there after every restart, as long as no record is appended to a torn line and no restart misses
records that it should have read. -/
namespace Soter.DecisionAudit
open Soter.Json Soter.PyJson Soter.Runs List AuditMemory AuditWorld

variable {Num : Type}
section Statement
variable (settings : AuditSettings Num)

structure Query.Selects (q : Query) (r : DecisionAuditRecord Num) : Prop where
  traceId : ∀ v ∈ q.traceId, v ≠ [] → r.traceId = some v
  claimId : ∀ v ∈ q.claimId, v ≠ [] → r.claimId = some v
  campaignRef : ∀ v ∈ q.campaignRef, v ≠ [] → r.campaignRef = some v
  decisionType : ∀ v ∈ q.decisionType, v ≠ [] → r.decisionType = v

def Query.IsUncut (q : Query) (m : AuditMemory Num) : Prop := q.limit ≤ 0 ∨ ((m.found settings q).length : ℤ) ≤ q.limit

structure IsDurable (w : AuditWorld Num) : Prop where
  /-- What `record` has returned is found, while it is young. -/
  kept : ∀ s, w.store = some s → ∀ a ∈ w.attempts, a.returned = true → settings.IsYoung w.now a.record →
    ∀ q : Query, q.Selects a.record → q.IsUncut settings s.memory →
      ∃ r ∈ s.memory.query settings q, r.ordered = a.record.ordered
  /-- What is found has been written in full. -/
  whole : ∀ s, w.store = some s → ∀ q, ∀ r ∈ s.memory.query settings q, ∃ a ∈ w.attempts,
    r.ordered = a.record.ordered ∧ (settings.text a.record).length ≤ a.written
  indexed : ∀ s, w.store = some s → s.memory = .reindex s.memory.records

/-- No record is appended to a torn line, and a log that cannot be read holds none that is young. -/
def Admits (t : AuditTransition Num) : Prop :=
  match t.label with
  | .record _ .done _ => ¬ IsTorn t.pre.file
  | .restart false _ => ∀ l ∈ lines t.pre.file, ∀ r ∈ settings.readLine l, ¬ settings.IsYoung t.pre.now r
  | _ => True

instance (now : ℚ) (r : DecisionAuditRecord Num) : Decidable (settings.IsYoung now r) :=
  inferInstanceAs (Decidable (_ ∨ _))

instance (t : AuditTransition Num) : Decidable (Admits settings t) :=
  match t with
  | ⟨pre, .record _ .done _, _⟩ => inferInstanceAs (Decidable (¬ IsTorn pre.file))
  | ⟨pre, .restart false _, _⟩ =>
    inferInstanceAs (Decidable (∀ l ∈ lines pre.file, ∀ r ∈ settings.readLine l, ¬ settings.IsYoung pre.now r))
  | ⟨_, .record _ (.error _) _, _⟩ | ⟨_, .record _ (.crash _) _, _⟩ | ⟨_, .prune _, _⟩ | ⟨_, .crash, _⟩ | ⟨_, .restart true _, _⟩
  | ⟨_, .pass _, _⟩ => inferInstanceAs (Decidable True)

end Statement
variable {m : AuditMemory Num} {r : DecisionAuditRecord Num}
section Queries
variable {settings : AuditSettings Num} {q : Query} {rs : List (DecisionAuditRecord Num)} {i : Text}

theorem mem_intersect {lookups : List (Option Text × (Text → List Text))}
    (h : ∀ lookup ∈ lookups, ∀ v ∈ lookup.1, v ≠ [] → i ∈ lookup.2 v) : ∀ {ids : Option (List Text)}, (∀ l ∈ ids, i ∈ l) →
      ∀ l ∈ lookups.foldl intersect ids, i ∈ l := by
  induction lookups with
  | nil => exact id
  | cons lookup lookups ih =>
    intro ids hids
    apply ih (fun lookup' hlookup' => h lookup' (mem_cons_of_mem lookup hlookup'))
    intro l hl
    unfold intersect at hl
    split at hl
    · exact hids l hl
    · exact hids l hl
    · rename_i c value hvalue
      have hfound : i ∈ (lookup.2 (c :: value)).dedup :=
        mem_dedup.mpr (h lookup mem_cons_self _ hvalue (cons_ne_nil c value))
      simp only [Option.mem_def, Option.some.injEq] at hl
      subst hl
      cases ids with
      | none => exact hfound
      | some l => exact mem_filter.mpr ⟨hids l rfl, decide_eq_true hfound⟩

theorem candidate_of_selects (hr : r ∈ rs) (hq : q.Selects r) : ∀ ids ∈ (reindex rs).candidateIds q, r.recordId ∈ ids := by
  apply mem_intersect
  · simp only [forall_mem_cons, not_mem_nil, false_implies, implies_true, and_true]
    refine ⟨fun v hv hne => ?_, fun v hv hne => ?_, fun v hv hne => ?_⟩
    · exact mem_reindex (·.byTrace) (·.traceId) (fun _ _ => rfl) hr (hq.traceId v hv hne) hne
    · exact mem_reindex (·.byClaim) (·.claimId) (fun _ _ => rfl) hr (hq.claimId v hv hne) hne
    · exact mem_reindex (·.byCampaign) (·.campaignRef) (fun _ _ => rfl) hr (hq.campaignRef v hv hne) hne
  · nofun

def AuditMemory.candidates (m : AuditMemory Num) (q : Query) : List (DecisionAuditRecord Num) :=
  match m.candidateIds q with
  | none => m.records
  | some ids => ids.filterMap m.byId

def Query.select (q : Query) (candidates : List (DecisionAuditRecord Num)) : List (DecisionAuditRecord Num) :=
  match q.decisionType with
  | none | some [] => candidates
  | some (c :: decisionType) => candidates.filter (·.decisionType = c :: decisionType)

theorem found_eq (settings : AuditSettings Num) (m : AuditMemory Num) (q : Query) :
    m.found settings q = (q.select (m.candidates q)).insertionSort fun r r' =>
      settings.seconds r'.createdAt ≤ settings.seconds r.createdAt := rfl

theorem found_of_selects (settings : AuditSettings Num) (hr : r ∈ rs) (hq : q.Selects r) (hid : ∀ r' ∈ rs, r'.recordId = r.recordId → r'.ordered = r.ordered) :
    ∃ r' ∈ (reindex rs).found settings q, r'.ordered = r.ordered := by
  have hcandidate : ∃ r' ∈ (reindex rs).candidates q, r'.ordered = r.ordered := by
    rw [candidates]
    cases hids : (reindex rs).candidateIds q with
    | none => exact ⟨r, by rw [reindex_records]; exact hr, rfl⟩
    | some ids =>
      obtain ⟨r', hr'⟩ := byId_of_mem hr
      obtain ⟨hmem, hsame⟩ := byId_some hr'
      exact ⟨r', mem_filterMap.mpr ⟨_, candidate_of_selects hr hq ids hids, hr'⟩, hid r' hmem hsame⟩
  obtain ⟨r', hr', heq⟩ := hcandidate
  refine ⟨r', ?_, heq⟩
  rw [found_eq, mem_insertionSort]
  unfold Query.select
  split
  · exact hr'
  · exact hr'
  · rename_i c decisionType htype
    have hdecision : r'.decisionType = r.decisionType := congrArg (·.decisionType) heq
    refine mem_filter.mpr ⟨hr', decide_eq_true ?_⟩
    rw [hdecision]
    exact hq.decisionType _ htype (cons_ne_nil c decisionType)

theorem query_of_uncut (hq : q.IsUncut settings m) : m.query settings q = m.found settings q := by
  unfold query
  split
  · rename_i hlimit
    apply take_of_length_le
    have hlength := hq.resolve_left (by omega)
    omega
  · rfl

theorem mem_of_query (h : r ∈ (reindex rs).query settings q) : r ∈ rs := by
  have hfound : r ∈ (reindex rs).found settings q := by
    unfold query at h
    split at h
    · exact mem_of_mem_take h
    · exact h
  rw [found_eq, mem_insertionSort] at hfound
  have hcandidate : r ∈ (reindex rs).candidates q := by
    unfold Query.select at hfound
    split at hfound
    · exact hfound
    · exact hfound
    · exact mem_of_mem_filter hfound
  unfold candidates at hcandidate
  split at hcandidate
  · rwa [reindex_records] at hcandidate
  · obtain ⟨i, -, hi⟩ := mem_filterMap.mp hcandidate
    exact (byId_some hi).1

end Queries
section Invariant
variable (settings : AuditSettings Num) (attempts : List (Attempt Num))

/-- The line has been made by appends, each of which has got some way into the text of its record. -/
def IsJoined (l : Text) : Prop :=
  ∃ pieces : List Text, l = pieces.flatten ∧
    ∀ p ∈ pieces, p ≠ [] ∧ ∃ a ∈ attempts, p <+: settings.text a.record ∧ p.length ≤ a.written

def IsWritten (r : DecisionAuditRecord Num) : Prop :=
  ∃ a ∈ attempts, r.ordered = a.record.ordered ∧ (settings.text a.record).length ≤ a.written

structure AuditWorld.IsSound (w : AuditWorld Num) : Prop where
  disabled : settings.enabled = false → w.attempts = []
  ids : (w.attempts.map (·.record.recordId)).Nodup
  wf : ∀ a ∈ w.attempts, a.record.IsWF
  joined : ∀ l ∈ lines w.file, IsJoined settings w.attempts l
  indexed : ∀ s, w.store = some s → s.memory = .reindex s.memory.records
  written : ∀ s, w.store = some s → ∀ r ∈ s.memory.records, IsWritten settings w.attempts r

def AuditWorld.Owes (w : AuditWorld Num) (r : DecisionAuditRecord Num) : Prop :=
  ∃ a ∈ w.attempts, a.returned = true ∧ a.record = r ∧ settings.IsYoung w.now r

structure AuditWorld.Keeps (w : AuditWorld Num) : Prop where
  memory : ∀ s, w.store = some s → ∀ r, w.Owes settings r → ∃ r' ∈ s.memory.records, r'.ordered = r.ordered
  /-- Each has a line of its own, and a line break behind it. -/
  file : ∀ r, w.Owes settings r → settings.text r ∈ (lines w.file).dropLast

end Invariant
section Steps
variable {settings : AuditSettings Num} {w w' : AuditWorld Num} {s : AuditStore Num} {rewrite : RewriteOutcome}
  {attempts : List (Attempt Num)} {a : Attempt Num} {l p t f : Text}

variable {r' : DecisionAuditRecord Num}

theorem IsJoined.mono (h : IsJoined settings attempts l) (a : Attempt Num) : IsJoined settings (attempts ++ [a]) l := by
  obtain ⟨pieces, hl, hpieces⟩ := h
  refine ⟨pieces, hl, fun p hp => ?_⟩
  obtain ⟨hne, a', ha', hprefix⟩ := hpieces p hp
  exact ⟨hne, a', mem_append_left _ ha', hprefix⟩

theorem IsWritten.mono (h : IsWritten settings attempts r) (a : Attempt Num) : IsWritten settings (attempts ++ [a]) r := by
  obtain ⟨a', ha', hr⟩ := h
  exact ⟨a', mem_append_left _ ha', hr⟩

theorem isJoined_nil (settings : AuditSettings Num) (attempts : List (Attempt Num)) : IsJoined settings attempts [] :=
  ⟨[], rfl, nofun⟩

theorem IsJoined.append (h : IsJoined settings attempts l) (hp : p <+: settings.text a.record) (hlength : p.length ≤ a.written) :
    IsJoined settings (attempts ++ [a]) (l ++ p) := by
  obtain ⟨pieces, hl, hpieces⟩ := h.mono a
  by_cases hne : p = []
  · exact ⟨pieces, by rw [hne, append_nil, hl], hpieces⟩
  · refine ⟨pieces ++ [p], by simp [hl], fun p' hp' => ?_⟩
    rcases mem_append.mp hp' with hp' | hp'
    · exact hpieces p' hp'
    · rw [mem_singleton.mp hp']
      exact ⟨hne, a, by simp, hp, hlength⟩

theorem written_of_read (hwf : ∀ a ∈ attempts, a.record.IsWF) (hl : IsJoined settings attempts l)
    (h : settings.readLine l = some r) : IsWritten settings attempts r := by
  obtain ⟨pieces, rfl, hpieces⟩ := hl
  have hare : ArePieces pieces := by
    intro p hp
    obtain ⟨hne, a, ha, hprefix, -⟩ := hpieces p hp
    exact ⟨hne, _, text_whole settings (hwf a ha), hprefix⟩
  have hparsed : ∃ v, parse settings.numerals (strip pieces.flatten) = some v := by
    unfold AuditSettings.readLine at h
    split at h
    · rename_i data hdata
      exact ⟨_, hdata⟩
    · cases h
  obtain ⟨v, hv⟩ := hparsed
  obtain ⟨p, rfl, hwhole⟩ := whole_of_parsed hare hv
  obtain ⟨-, a, ha, hprefix, hlength⟩ := hpieces p (mem_singleton_self p)
  have htext : p = settings.text a.record := hwhole _ (text_whole settings (hwf a ha)) hprefix
  have hread : settings.readLine (settings.text a.record) = some a.record.ordered := readLine_text (hwf a ha)
  rw [flatten_singleton, htext, hread, Option.some.injEq] at h
  refine ⟨a, ha, ?_, by rw [← htext]; exact hlength⟩
  rw [← h]
  exact ordered_ordered_record (hwf a ha)

theorem read_of_line (hwf : r.IsWF) (h : settings.text r ∈ lines f) : r.ordered ∈ (lines f).filterMap settings.readLine :=
  mem_filterMap.mpr ⟨_, h, readLine_text hwf⟩

theorem joined_rewritten (hwritten : ∀ r ∈ m.records, IsWritten settings attempts r) (hwf : ∀ a ∈ attempts, a.record.IsWF) :
    ∀ l ∈ lines (settings.rewritten m), IsJoined settings attempts l := by
  intro l hl
  rw [AuditSettings.rewritten, lines_rewritten] at hl
  rcases mem_append.mp hl with hl | hl
  · obtain ⟨r, hr, rfl⟩ := mem_map.mp hl
    obtain ⟨a, ha, heq, hlength⟩ := hwritten r hr
    have htext : settings.text r = settings.text a.record := text_congr settings heq
    refine ⟨[settings.text r], by simp, ?_⟩
    rw [forall_mem_singleton, htext]
    have hne : settings.text a.record ≠ [] := by
      obtain ⟨c, t, ht, -⟩ := (text_whole settings (hwf a ha)).starts
      rw [ht]
      exact cons_ne_nil _ _
    exact ⟨hne, a, ha, prefix_rfl, hlength⟩
  · rw [mem_singleton.mp hl]
    exact isJoined_nil settings attempts

theorem line_rewritten (hr' : r' ∈ m.records) (heq : r'.ordered = r.ordered) :
    settings.text r ∈ (lines (settings.rewritten m)).dropLast := by
  rw [AuditSettings.rewritten, lines_rewritten, dropLast_concat, ← text_congr settings heq]
  exact mem_map_of_mem hr'

theorem pruned_cases (settings : AuditSettings Num) (w : AuditWorld Num) (s : AuditStore Num) (rewrite : RewriteOutcome)
    (hs : s.memory = .reindex s.memory.records) :
    ∃ (m : AuditMemory Num) (f : Text) (store : Option (AuditStore Num)), s.memory.Pruned settings w.now m ∧
      w.pruned settings s rewrite = { w with file := f, store } ∧ (f = w.file ∨ f = settings.rewritten m) ∧
        (∀ s' ∈ store, s'.memory = m) := by
  have hpruned := pruneLocked_pruned settings w.now hs
  unfold pruned
  dsimp only
  split
  · cases rewrite with
    | done => exact ⟨_, _, _, hpruned, rfl, .inr rfl, by rintro s' ⟨⟩; rfl⟩
    | error => exact ⟨_, _, _, hpruned, rfl, .inl rfl, by rintro s' ⟨⟩; rfl⟩
    | crash replaced =>
      cases replaced with
      | true => exact ⟨_, _, _, hpruned, rfl, .inr rfl, nofun⟩
      | false => exact ⟨_, _, _, hpruned, rfl, .inl rfl, nofun⟩
  · exact ⟨s.memory, w.file, some s, ⟨hs, fun _ hr => hr, fun _ hr _ => hr⟩, rfl, .inl rfl, by rintro s' ⟨⟩; rfl⟩

theorem pruned_sound (hw : w.IsSound settings) (hs : s.memory = .reindex s.memory.records)
    (hwritten : ∀ r ∈ s.memory.records, IsWritten settings w.attempts r) : (w.pruned settings s rewrite).IsSound settings := by
  obtain ⟨m, f, store, hpruned, heq, hfile, hstore⟩ := pruned_cases settings w s rewrite hs
  have hm : ∀ r ∈ m.records, IsWritten settings w.attempts r := fun r hr => hwritten r (hpruned.subset r hr)
  rw [heq]
  refine ⟨hw.disabled, hw.ids, hw.wf, ?_, fun s' hs' => ?_, fun s' hs' r hr => ?_⟩
  · rcases hfile with rfl | rfl
    · exact hw.joined
    · exact joined_rewritten hm hw.wf
  · rw [hstore s' hs']
    exact hpruned.indexed
  · rw [hstore s' hs'] at hr
    exact hm r hr

theorem pruned_keeps (hs : s.memory = .reindex s.memory.records)
    (hmemory : ∀ r, w.Owes settings r → ∃ r' ∈ s.memory.records, r'.ordered = r.ordered)
    (hfile : ∀ r, w.Owes settings r → settings.text r ∈ (lines w.file).dropLast) : (w.pruned settings s rewrite).Keeps settings := by
  obtain ⟨m, f, store, hpruned, heq, hf, hstore⟩ := pruned_cases settings w s rewrite hs
  have hm : ∀ r, w.Owes settings r → ∃ r' ∈ m.records, r'.ordered = r.ordered := by
    intro r hr
    obtain ⟨r', hr', hsame⟩ := hmemory r hr
    obtain ⟨-, -, -, -, hyoung⟩ := hr
    have hcreated : r'.createdAt = r.createdAt := congrArg (·.createdAt) hsame
    refine ⟨r', hpruned.young r' hr' ?_, hsame⟩
    unfold AuditSettings.IsYoung at hyoung ⊢
    rw [hcreated]
    exact hyoung
  rw [heq]
  refine ⟨fun s' hs' r hr => ?_, fun r hr => ?_⟩
  · rw [hstore s' hs']
    exact hm r hr
  · rcases hf with rfl | rfl
    · exact hfile r hr
    · obtain ⟨r', hr', hsame⟩ := hm r hr
      exact line_rewritten hr' hsame

theorem lines_cut (f : Text) : ∃ ls t, lines f = ls ++ [t] := by
  obtain ⟨ls, t, h⟩ := (eq_nil_or_concat (lines f)).resolve_left (lines_ne_nil f)
  exact ⟨ls, t, by rw [h, concat_eq_append]⟩

theorem line_appended (p : Text) (h : l ∈ (lines f).dropLast) : l ∈ (lines (f ++ p)).dropLast := by
  obtain ⟨ls, t, ht⟩ := lines_cut f
  rw [ht, dropLast_concat] at h
  rw [lines_append p ht, dropLast_append_of_ne_nil (lines_ne_nil _)]
  exact mem_append_left _ h

theorem joined_appended (hjoined : ∀ l ∈ lines f, IsJoined settings attempts l) (hp : p <+: settings.line a.record)
    (hlength : p.length ≤ a.written) : ∀ l ∈ lines (f ++ p), IsJoined settings (attempts ++ [a]) l := by
  obtain ⟨ls, t, ht⟩ := lines_cut f
  have hunbroken : '\n' ∉ t := unbroken_of_lines (f := f) (by rw [ht]; simp)
  have htail : IsJoined settings attempts t := hjoined t (by rw [ht]; simp)
  rw [lines_append p ht]
  intro l hl
  rcases mem_append.mp hl with hl | hl
  · exact (hjoined l (by rw [ht]; exact mem_append_left _ hl)).mono a
  · rw [AuditSettings.line, prefix_concat_iff] at hp
    rcases hp with rfl | hp
    · have htext : '\n' ∉ t ++ settings.text a.record := by
        rw [mem_append, not_or]
        exact ⟨hunbroken, text_unbroken settings a.record⟩
      rw [← append_assoc, lines_break htext] at hl
      rw [length_append] at hlength
      rcases mem_cons.mp hl with rfl | hl
      · exact htail.append prefix_rfl (by omega)
      · rw [lines, mem_singleton] at hl
        rw [hl]
        exact isJoined_nil settings _
    · have hp' : '\n' ∉ t ++ p := by
        rw [mem_append, not_or]
        exact ⟨hunbroken, fun hmem => text_unbroken settings a.record (hp.subset hmem)⟩
      rw [lines_unbroken hp', mem_singleton] at hl
      rw [hl]
      exact htail.append hp hlength

theorem tried_sound (hw : w.IsSound settings) (henabled : settings.enabled ≠ false) (hr : r.IsWF) (hid : r.recordId ∉ w.attempts.map (·.record.recordId))
    (hp : p <+: settings.line r) (returned : Bool) : ((w.appended p).tried r p returned).IsSound settings := by
  refine ⟨fun hdisabled => absurd hdisabled henabled, ?_, ?_, ?_, hw.indexed, fun s hs r' hr' => (hw.written s hs r' hr').mono _⟩
  · show ((w.attempts ++ [_]).map _).Nodup
    rw [map_append, map_singleton, ← concat_eq_append, nodup_concat]
    exact ⟨hid, hw.ids⟩
  · show ∀ a ∈ w.attempts ++ [_], _
    rw [forall_mem_append, forall_mem_singleton]
    exact ⟨hw.wf, hr⟩
  · exact joined_appended hw.joined hp le_rfl

theorem owes_tried {returned : Bool} (h : ((w.appended p).tried r p returned).Owes settings r') :
    w.Owes settings r' ∨ returned = true ∧ r' = r := by
  obtain ⟨a, ha, hreturned, hrecord, hyoung⟩ := h
  rcases mem_append.mp ha with ha | ha
  · exact .inl ⟨a, ha, hreturned, hrecord, hyoung⟩
  · rw [mem_singleton] at ha
    subst ha
    exact .inr ⟨hreturned, hrecord.symm⟩

theorem tried_keeps (hw : w.Keeps settings) : ((w.appended p).tried r p false).Keeps settings := by
  refine ⟨fun s hs r' hr' => ?_, fun r' hr' => ?_⟩
  · rcases owes_tried hr' with hr' | ⟨hfalse, -⟩
    · exact hw.memory s hs r' hr'
    · cases hfalse
  · rcases owes_tried hr' with hr' | ⟨hfalse, -⟩
    · exact line_appended p (hw.file r' hr')
    · cases hfalse

theorem stopped_sound (hw : w.IsSound settings) : ({ w with store := none } : AuditWorld Num).IsSound settings :=
  ⟨hw.disabled, hw.ids, hw.wf, hw.joined, nofun, nofun⟩

theorem stopped_keeps (hw : w.Keeps settings) : ({ w with store := none } : AuditWorld Num).Keeps settings := ⟨nofun, hw.file⟩

theorem indexed_tried (settings : AuditSettings Num) (w : AuditWorld Num) (s : AuditStore Num) (r : DecisionAuditRecord Num)
    (rewrite : RewriteOutcome) (p : Text) (returned : Bool) :
    (w.indexed settings s r rewrite).tried r p returned = (w.tried r p returned).indexed settings s r rewrite := by
  unfold indexed pruned
  dsimp only
  split
  · have hnow : (w.tried r p returned).now = w.now := rfl
    rw [hnow]
    split
    · cases rewrite <;> rfl
    · rfl
  · rfl

theorem index_reindex (hm : m = .reindex m.records) (r : DecisionAuditRecord Num) : m.index r = .reindex (m.index r).records := by
  have hrecords : (m.index r).records = m.records ++ [r] := rfl
  rw [hrecords, reindex_snoc, ← hm]

theorem indexed_sound (hw : w.IsSound settings) (hs : w.store = some s) (hr : IsWritten settings w.attempts r) :
    (w.indexed settings s r rewrite).IsSound settings := by
  have hindexed := index_reindex (hw.indexed s hs) r
  have hwritten : ∀ r' ∈ (s.memory.index r).records, IsWritten settings w.attempts r' := by
    show ∀ r' ∈ s.memory.records ++ [r], _
    rw [forall_mem_append, forall_mem_singleton]
    exact ⟨hw.written s hs, hr⟩
  unfold indexed
  dsimp only
  split
  · exact pruned_sound hw hindexed hwritten
  · exact ⟨hw.disabled, hw.ids, hw.wf, hw.joined, by rintro s' ⟨⟩; exact hindexed, by rintro s' ⟨⟩; exact hwritten⟩

theorem indexed_keeps (hindexed : s.memory = .reindex s.memory.records)
    (hmemory : ∀ r', w.Owes settings r' → ∃ r'' ∈ s.memory.records ++ [r], r''.ordered = r'.ordered)
    (hfile : ∀ r', w.Owes settings r' → settings.text r' ∈ (lines w.file).dropLast) :
    (w.indexed settings s r rewrite).Keeps settings := by
  unfold indexed
  dsimp only
  split
  · exact pruned_keeps (index_reindex hindexed r) hmemory hfile
  · exact ⟨by rintro s' ⟨⟩; exact hmemory, hfile⟩

theorem load_sound (hw : w.IsSound settings) (readable : Bool) (rewrite : RewriteOutcome) :
    (w.load settings readable rewrite).IsSound settings := by
  unfold load
  split
  · apply pruned_sound hw
    · show reindex _ = _
      rw [reindex_records]
    · show ∀ r ∈ (reindex _).records, _
      rw [reindex_records]
      intro r hr
      obtain ⟨l, hl, hread⟩ := mem_filterMap.mp hr
      exact written_of_read hw.wf (hw.joined l hl) hread
  · exact ⟨hw.disabled, hw.ids, hw.wf, hw.joined, by rintro s' ⟨⟩; rfl, by rintro s' ⟨⟩ r hr; exact absurd hr not_mem_nil⟩

theorem owes_wf (hw : w.IsSound settings) (hr : w.Owes settings r) : r.IsWF := by
  obtain ⟨a, ha, -, rfl, -⟩ := hr
  exact hw.wf a ha

theorem load_keeps (hw : w.IsSound settings) (hkeeps : w.Keeps settings) {readable : Bool}
    (hreads : readable = false → ∀ l ∈ lines w.file, ∀ r ∈ settings.readLine l, ¬ settings.IsYoung w.now r) :
    (w.load settings readable rewrite).Keeps settings := by
  have hline : ∀ r, w.Owes settings r → settings.text r ∈ lines w.file :=
    fun r hr => dropLast_subset _ (hkeeps.file r hr)
  unfold load
  split
  · apply pruned_keeps
    · show reindex _ = _
      rw [reindex_records]
    · intro r hr
      show ∃ r' ∈ (reindex _).records, _
      rw [reindex_records]
      have hwf := owes_wf hw hr
      exact ⟨r.ordered, read_of_line hwf (hline r hr), ordered_ordered_record hwf⟩
    · exact hkeeps.file
  · rename_i hskipped
    have hnone : ∀ r, ¬ w.Owes settings r := by
      intro r hr
      cases henabled : settings.enabled with
      | false =>
        obtain ⟨a, ha, -⟩ := hr
        rw [hw.disabled henabled] at ha
        cases ha
      | true =>
        have hunreadable : readable = false := by simpa [henabled] using hskipped
        obtain ⟨-, -, -, -, hyoung⟩ := id hr
        exact hreads hunreadable _ (hline r hr) _ (readLine_text (owes_wf hw hr)) hyoung
    exact ⟨fun s' _ r hr => absurd hr (hnone r), hkeeps.file⟩

variable {event : AuditEvent Num}

theorem record_cases {args : DecisionAuditRecord Num} {append : AppendOutcome}
    (h : w.record settings args append rewrite s = some w') :
    w' = w ∨ settings.enabled ≠ false ∧ args.recordId ∉ w.attempts.map (·.record.recordId) ∧ ((∃ returned, append = .done ∧
          w' = ((w.appended (settings.line args.made)).tried args.made (settings.line args.made) returned).indexed settings s
            args.made rewrite) ∨
        ∃ p, p <+: settings.line args.made ∧
          (w' = (w.appended p).tried args.made p false ∨ w' = { (w.appended p).tried args.made p false with store := none })) := by
  unfold record at h
  split at h
  · cases h
    exact .inl rfl
  rename_i henabled
  split at h
  · cases h
  rename_i hid
  refine .inr ⟨henabled, hid, ?_⟩
  cases append with
  | done =>
    cases h
    exact .inl ⟨_, rfl, indexed_tried ..⟩
  | error written =>
    cases h
    exact .inr ⟨_, take_prefix _ _, .inl rfl⟩
  | crash written =>
    cases h
    exact .inr ⟨_, take_prefix _ _, .inr rfl⟩

theorem take_sound (hw : w.IsSound settings) (h : w.take settings event = some w') : w'.IsSound settings := by
  cases event with
  | record args append rewrite =>
    obtain ⟨s, hs, h⟩ := Option.bind_eq_some_iff.mp h
    have hr : args.1.made.IsWF := args.2
    rcases record_cases h with rfl | ⟨henabled, hid, ⟨returned, -, rfl⟩ | ⟨p, hp, rfl | rfl⟩⟩
    · exact hw
    · have htried := tried_sound hw henabled hr hid prefix_rfl returned
      apply indexed_sound htried hs
      refine ⟨_, mem_append_right _ (mem_singleton_self _), rfl, ?_⟩
      simp [AuditSettings.line]
    · exact tried_sound hw henabled hr hid hp false
    · exact stopped_sound (tried_sound hw henabled hr hid hp false)
  | prune rewrite =>
    obtain ⟨s, hs, rfl⟩ := Option.map_eq_some_iff.mp h
    exact pruned_sound hw (hw.indexed s hs) (hw.written s hs)
  | crash =>
    cases h
    exact stopped_sound hw
  | restart readable rewrite =>
    cases h
    exact load_sound hw readable rewrite
  | pass duration =>
    simp only [AuditWorld.take] at h
    split at h
    · cases h
      exact ⟨hw.disabled, hw.ids, hw.wf, hw.joined, hw.indexed, hw.written⟩
    · cases h

theorem take_keeps (hw : w.IsSound settings) (hkeeps : w.Keeps settings) (hadmits : Admits settings ⟨w, event, w'⟩)
    (h : w.take settings event = some w') : w'.Keeps settings := by
  cases event with
  | record args append rewrite =>
    obtain ⟨s, hs, h⟩ := Option.bind_eq_some_iff.mp h
    rcases record_cases h with rfl | ⟨henabled, hid, ⟨returned, rfl, rfl⟩ | ⟨p, hp, rfl | rfl⟩⟩
    · exact hkeeps
    · -- the line starts at the start of a line, and has a line break behind it
      obtain ⟨ls, hls⟩ := lines_of_not_torn hadmits
      have hlines : (lines (w.file ++ settings.line args.1.made)).dropLast = ls ++ [settings.text args.1.made] := by
        rw [lines_append _ hls, nil_append, AuditSettings.line, lines_break (text_unbroken settings _), lines]
        exact dropLast_append_of_ne_nil (by simp)
      apply indexed_keeps (hw.indexed s hs)
      · intro r' hr'
        rcases owes_tried hr' with hr' | ⟨-, rfl⟩
        · obtain ⟨r'', hr'', hsame⟩ := hkeeps.memory s hs r' hr'
          exact ⟨r'', mem_append_left _ hr'', hsame⟩
        · exact ⟨_, mem_append_right _ (mem_singleton_self _), rfl⟩
      · intro r' hr'
        rcases owes_tried hr' with hr' | ⟨-, rfl⟩
        · exact line_appended _ (hkeeps.file r' hr')
        · show _ ∈ (lines (w.file ++ _)).dropLast
          rw [hlines]
          exact mem_append_right _ (mem_singleton_self _)
    · exact tried_keeps hkeeps
    · exact stopped_keeps (tried_keeps hkeeps)
  | prune rewrite =>
    obtain ⟨s, hs, rfl⟩ := Option.map_eq_some_iff.mp h
    exact pruned_keeps (hw.indexed s hs) (hkeeps.memory s hs) hkeeps.file
  | crash =>
    cases h
    exact stopped_keeps hkeeps
  | restart readable rewrite =>
    cases h
    apply load_keeps hw hkeeps
    rintro rfl
    exact hadmits
  | pass duration =>
    simp only [AuditWorld.take] at h
    split at h
    · rename_i hduration
      cases h
      -- what is young later on is young now
      have howes : ∀ r, ({ w with now := w.now + duration } : AuditWorld Num).Owes settings r → w.Owes settings r := by
        rintro r ⟨a, ha, hreturned, hrecord, hyoung⟩
        refine ⟨a, ha, hreturned, hrecord, hyoung.imp_right fun hle => ?_⟩
        have hnow : w.now ≤ w.now + duration := by linarith
        exact (sub_le_sub_right hnow _).trans hle
      exact ⟨fun s hs r hr => hkeeps.memory s hs r (howes r hr), fun r hr => hkeeps.file r (howes r hr)⟩
    · cases h

variable {tr : List (AuditTransition Num)}

theorem initial_sound (settings : AuditSettings Num) : (initial : AuditWorld Num).IsSound settings where
  disabled _ := rfl
  ids := nodup_nil
  wf a ha := absurd ha not_mem_nil
  joined l hl := by
    rw [mem_singleton.mp (show l ∈ [[]] from hl)]
    exact isJoined_nil settings []
  indexed s hs := by
    cases hs
    rfl
  written s hs r hr := by
    cases hs
    exact absurd hr not_mem_nil

theorem initial_keeps (settings : AuditSettings Num) : (initial : AuditWorld Num).Keeps settings where
  memory s _ r hr := by
    obtain ⟨a, ha, -⟩ := hr
    cases ha
  file r hr := by
    obtain ⟨a, ha, -⟩ := hr
    cases ha

theorem equal_of_id (hw : w.IsSound settings) {a : Attempt Num} {r r' : DecisionAuditRecord Num} (ha : a ∈ w.attempts)
    (hr : r.ordered = a.record.ordered) (hr' : IsWritten settings w.attempts r') (hid : r'.recordId = r.recordId) :
    r'.ordered = r.ordered := by
  obtain ⟨a', ha', hsame, -⟩ := hr'
  have hids : a'.record.recordId = a.record.recordId := by
    have h : r.recordId = a.record.recordId := congrArg (·.recordId) hr
    have h' : r'.recordId = a'.record.recordId := congrArg (·.recordId) hsame
    rw [← h', hid, h]
  rw [hsame, hr, inj_on_of_nodup_map hw.ids ha' ha hids]

theorem durable_of (hw : w.IsSound settings) (hkeeps : w.Keeps settings) : IsDurable settings w where
  kept s hs a ha hreturned hyoung q hselects huncut := by
    obtain ⟨r, hr, hsame⟩ := hkeeps.memory s hs a.record ⟨a, ha, hreturned, rfl, hyoung⟩
    have hselects' : q.Selects r := by
      obtain ⟨htrace, hclaim, hcampaign, htype⟩ := hselects
      have hsameTrace : r.traceId = a.record.traceId := congrArg (·.traceId) hsame
      have hsameClaim : r.claimId = a.record.claimId := congrArg (·.claimId) hsame
      have hsameCampaign : r.campaignRef = a.record.campaignRef := congrArg (·.campaignRef) hsame
      have hsameType : r.decisionType = a.record.decisionType := congrArg (·.decisionType) hsame
      constructor
      · rwa [hsameTrace]
      · rwa [hsameClaim]
      · rwa [hsameCampaign]
      · rwa [hsameType]
    have hindexed := hw.indexed s hs
    rw [query_of_uncut huncut, hindexed]
    have hequal : ∀ r' ∈ s.memory.records, r'.recordId = r.recordId → r'.ordered = r.ordered :=
      fun r' hr' hid => equal_of_id hw ha hsame (hw.written s hs r' hr') hid
    obtain ⟨r', hr', hequal⟩ := found_of_selects settings hr hselects' hequal
    exact ⟨r', hr', hequal.trans hsame⟩
  whole s hs q r hr := by
    rw [hw.indexed s hs] at hr
    exact hw.written s hs r (mem_of_query hr)
  indexed := hw.indexed

theorem durable (hrun : Run (Step settings) .initial tr w) (hadmits : ∀ t ∈ tr, Admits settings t) : IsDurable settings w := by
  have hboth : w.IsSound settings ∧ w.Keeps settings :=
    hrun.invariant (I := fun w => w.IsSound settings ∧ w.Keeps settings) ⟨initial_sound settings, initial_keeps settings⟩ hadmits fun t hstep hadmit hpre =>
      ⟨take_sound hpre.1 hstep, take_keeps hpre.1 hpre.2 hadmit hstep⟩
  exact durable_of hboth.1 hboth.2

end Steps

def oneDay : AuditSettings ℕ where
  numerals := .nat
  seconds n := n
  retentionDays := 1
  enabled := true

def decision (id : String) (claim : String) (createdAt : ℕ) : { r : DecisionAuditRecord ℕ // r.IsWF } where
  val := {
    decisionType := "fraud_detection".toList
    outcome := "flagged".toList
    recordId := id.toList
    createdAt
    claimId := some claim.toList
    campaignRef := some "relief".toList
    confidence := some 1
    reasons := ["duplicate \"payee\"".toList] }
  property := ⟨.obj nodup_nil nofun, .obj nodup_nil nofun⟩

abbrev auditRun (events : List (AuditEvent ℕ)) : List (AuditTransition ℕ) × AuditWorld ℕ :=
  play (take oneDay) .initial events

/-- A record expires, a write breaks off and the process is stopped; the next restart reads what is left, and writes it anew. -/
def tornAndPruned : List (AuditEvent ℕ) :=
  [.record (decision "da_1" "claim-a" 0) .done .done, .pass 80000, .record (decision "da_2" "claim-b" 80000) .done .done,
    .record (decision "da_3" "claim-c" 80000) (.crash 40) .done, .pass 10000, .restart true .done,
    .record (decision "da_4" "claim-b" 90000) .done .done, .crash, .restart true .done]

theorem durable_torn : IsDurable oneDay (auditRun tornAndPruned).2 :=
  durable (play_run (fun _ _ _ h => h) tornAndPruned initial) (by decide +kernel)

def joinedLine : List (AuditEvent ℕ) :=
  [.record (decision "da_1" "claim-a" 0) (.error 40) .done, .record (decision "da_2" "claim-b" 0) .done .done, .restart true .done]

def unreadLog : List (AuditEvent ℕ) := [.record (decision "da_1" "claim-a" 0) .done .done, .restart false .done]

def byClaim (claim : String) : Query where
  claimId := some claim.toList

theorem torn_line_joined : ¬ IsDurable oneDay (auditRun joinedLine).2 ∧ ¬ IsDurable oneDay (auditRun unreadLog).2 := by
  have hlost (events : List (AuditEvent ℕ)) (claim : String) (i : ℕ)
      (hrecorded : (auditRun events).2.attempts[i]?.map (fun a =>
        (a.returned, decide (oneDay.IsYoung (auditRun events).2.now a.record), a.record.claimId)) =
          some (true, true, some claim.toList))
      (hquery : (auditRun events).2.store.map (fun s => ((s.memory.found oneDay (byClaim claim)).length,
        (s.memory.query oneDay (byClaim claim)).length)) = some (0, 0)) : ¬ IsDurable oneDay (auditRun events).2 := by
    intro h
    obtain ⟨a, ha, hrecord⟩ := Option.map_eq_some_iff.mp hrecorded
    simp only [Prod.mk.injEq, decide_eq_true_eq] at hrecord
    obtain ⟨hreturned, hyoung, hclaim⟩ := hrecord
    obtain ⟨s, hs, hfound⟩ := Option.map_eq_some_iff.mp hquery
    rw [Prod.mk.injEq] at hfound
    have hselects : (byClaim claim).Selects a.record := by
      refine ⟨nofun, fun v hv _ => ?_, nofun, nofun⟩
      cases hv
      exact hclaim
    have huncut : (byClaim claim).IsUncut oneDay s.memory := by
      right
      rw [hfound.1]
      exact Int.natCast_nonneg 100
    obtain ⟨r, hr, -⟩ := h.kept s hs a (mem_of_getElem? ha) hreturned hyoung _ hselects huncut
    rw [length_eq_zero_iff.mp hfound.2] at hr
    cases hr
  exact ⟨hlost joinedLine "claim-b" 1 (by decide +kernel) (by decide +kernel),
    hlost unreadLog "claim-a" 0 (by decide +kernel) (by decide +kernel)⟩

end Soter.DecisionAudit
