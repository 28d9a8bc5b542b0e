import Soter.DecisionAudit.Store

/-! What the log of the decision audit store holds: a record is read from a line that is all of its text, and from no other line
that pieces of texts make up. -/
namespace Soter.DecisionAudit
open Soter.Json Soter.PyJson

variable {Num : Type} {settings : AuditSettings Num} {r r' : DecisionAuditRecord Num}

section Texts

variable {α : Type} {c : Char}

theorem ordered_null_or {f : α → Value Num} (hf : ∀ a, ordered (f a) = f a) (o : Option α) :
    ordered (o.elim .null f) = o.elim .null f := by
  cases o with
  | none => rfl
  | some a => exact hf a

theorem ordered_texts (ts : List Text) : ordered (.arr (ts.map .str) : Value Num) = .arr (ts.map .str) := by
  rw [ordered, orderedItems_eq, List.map_map]
  rfl

theorem orderedMembers_toDict (r : DecisionAuditRecord Num) : orderedMembers r.toDict = r.ordered.toDict := by
  have hstr : ∀ s : Text, ordered (.str s : Value Num) = .str s := fun _ => rfl
  have hnum : ∀ n : Num, ordered (.num n : Value Num) = .num n := fun _ => rfl
  have hobj : ∀ ms : List (Text × Value Num), ordered (.obj ms) = .obj (sortKeys (orderedMembers ms)) := fun _ => rfl
  simp only [DecisionAuditRecord.toDict, orderedMembers, hstr, hnum, ordered_null_or hstr, ordered_null_or hnum, ordered_texts, hobj]
  rfl

theorem text_eq (settings : AuditSettings Num) (r : DecisionAuditRecord Num) :
    settings.text r = written settings.numerals (.obj (sortKeys r.ordered.toDict)) := by
  rw [AuditSettings.text, dumps, ordered, orderedMembers_toDict]

theorem text_congr (settings : AuditSettings Num) (h : r.ordered = r'.ordered) : settings.text r = settings.text r' := by
  rw [text_eq, text_eq, h]

theorem ordered_ordered_record (hr : r.IsWF) : r.ordered.ordered = r.ordered := by
  have hdict {ms : List (Text × Value Num)} (h : (Value.obj ms).WF) :
      sortKeys (orderedMembers (sortKeys (orderedMembers ms))) = sortKeys (orderedMembers ms) := by
    have hvalue := ordered_ordered h
    simp only [ordered, Value.obj.injEq] at hvalue
    exact hvalue
  simp only [DecisionAuditRecord.ordered, hdict hr.1, hdict hr.2]

def fieldNames : List Text :=
  ["decision_type".toList, "outcome".toList, "record_id".toList, "created_at".toList, "trace_id".toList, "claim_id".toList,
    "campaign_ref".toList, "package_id".toList, "org_id".toList, "provider".toList, "model".toList, "prompt_version".toList,
    "prompt_variant".toList, "confidence".toList, "reasons".toList, "inputs".toList, "metadata".toList, "schema_version".toList]

theorem toDict_keys (r : DecisionAuditRecord Num) : r.toDict.map Prod.fst = fieldNames := rfl

theorem fieldNames_nodup : fieldNames.Nodup := by decide +kernel

theorem fieldNames_start : ∀ k ∈ fieldNames, ∃ c t, k = c :: t ∧ 'a' ≤ c ∧ c ≤ 'z' := by
  have hhead : ∀ k ∈ fieldNames, (k.head?.any fun c => 'a' ≤ c ∧ c ≤ 'z') = true := by decide +kernel
  intro k hk
  have hletter := hhead k hk
  cases k with
  | nil => cases hletter
  | cons c t => exact ⟨c, t, rfl, of_decide_eq_true hletter⟩

theorem toDict_wf (hr : r.IsWF) : (Value.obj r.toDict).WF := by
  have hoption {α : Type} {f : α → Value Num} (hf : ∀ a, (f a).WF) (o : Option α) : (o.elim .null f).WF := by
    cases o with
    | none => exact .null
    | some a => exact hf a
  refine .obj fieldNames_nodup ?_
  simp only [DecisionAuditRecord.toDict, List.forall_mem_cons, List.not_mem_nil, false_implies, implies_true, and_true]
  refine ⟨.str _, .str _, .str _, .num _, hoption .str _, hoption .str _, hoption .str _, hoption .str _, hoption .str _,
    hoption .str _, hoption .str _, hoption .str _, hoption .str _, hoption .num _, .arr ?_, hr.1, hr.2, .str _⟩
  intro v hv
  obtain ⟨t, -, rfl⟩ := List.mem_map.mp hv
  exact .str t

theorem sortKeys_keys {β : Type} {ms : List (Text × β)} (h : (ms.map Prod.fst).Nodup) : ((sortKeys ms).map Prod.fst).Nodup :=
  ((sortKeys_perm ms).map Prod.fst).nodup_iff.mpr h

theorem lookup_sorted (r : DecisionAuditRecord Num) : ∀ m ∈ r.toDict, (sortKeys r.toDict).lookup m.1 = some m.2 := by
  have hkeys : (r.toDict.map Prod.fst).Nodup := by
    rw [toDict_keys]
    exact fieldNames_nodup
  exact fun m hm => lookup_of_mem (sortKeys_keys hkeys) ((sortKeys_perm r.toDict).mem_iff.mpr hm)

theorem asOptional_elim {f : Value Num → Option α} {g : α → Value Num} (hfg : ∀ a, f (g a) = some a)
    (hg : ∀ a, g a ≠ .null) (o : Option α) : asOptional f (o.elim .null g) = some o := by
  cases o with
  | none => rfl
  | some a =>
    rw [Option.elim_some, asOptional, hfg, Option.map_some]
    exact hg a

theorem asTexts_texts (ts : List Text) : asTexts (.arr (ts.map .str) : Value Num) = some ts := by
  have hmap : (ts.map (.str : Text → Value Num)).mapM asText = some ts := by
    induction ts with
    | nil => rfl
    | cons t ts ih =>
      rw [List.map_cons, List.mapM_cons, ih]
      rfl
  exact hmap

theorem fromDict_sorted (r : DecisionAuditRecord Num) : DecisionAuditRecord.fromDict (sortKeys r.toDict) = some r := by
  have htext (o : Option Text) : asOptional asText (o.elim .null .str : Value Num) = some o :=
    asOptional_elim (f := asText) (g := .str) (fun _ => rfl) (fun _ h => by cases h) o
  have hnum (o : Option Num) : asOptional asNum (o.elim .null .num) = some o :=
    asOptional_elim (f := asNum) (g := .num) (fun _ => rfl) (fun _ h => by cases h) o
  have hfields := lookup_sorted r
  generalize sortKeys r.toDict = data at hfields
  simp only [DecisionAuditRecord.toDict, List.forall_mem_cons, List.not_mem_nil, false_implies, implies_true, and_true] at hfields
  simp only [DecisionAuditRecord.fromDict, field, hfields, Option.bind_some, htext, hnum, asTexts_texts, asText, asNum, asDict]
  rfl

theorem parse_text (hr : r.IsWF) : parse settings.numerals (settings.text r) = some (.obj (sortKeys r.ordered.toDict)) := by
  rw [AuditSettings.text, parse_dumps (toDict_wf hr), ordered, orderedMembers_toDict]

theorem writtenMembers_end (numerals : Numerals Num) (ms : List (Text × Value Num)) :
    ∃ t, writtenMembers numerals ms = t ++ ['}'] := by
  induction ms with
  | nil => exact ⟨[], rfl⟩
  | cons member ms ih =>
    obtain ⟨k, v⟩ := member
    cases ms with
    | nil => exact ⟨PyJson.quote k ++ (':' :: ' ' :: written numerals v), by simp [writtenMembers]⟩
    | cons m ms =>
      obtain ⟨t, ht⟩ := ih
      exact ⟨PyJson.quote k ++ (':' :: ' ' :: (written numerals v ++ (',' :: ' ' :: t))), by simp [writtenMembers, ht]⟩

theorem lex_letter (hlow : 'a' ≤ c) (hhigh : c ≤ 'z') (d : ℕ) : lex (.within d .unquoted) c = .broken := by
  have hnot {e : Char} (he : ¬ 'a' ≤ e ∨ ¬ e ≤ 'z') : c ≠ e := by
    rintro rfl
    exact he.elim (absurd hlow) (absurd hhigh)
  have hblank : isBlank c = false := by
    simp only [isBlank, decide_eq_false_iff_not, List.mem_cons, List.not_mem_nil, or_false, not_or]
    refine ⟨?_, ?_, ?_, ?_, ?_, ?_, ?_, ?_, ?_, ?_⟩ <;> exact hnot (by decide)
  have hbrace : c ≠ '}' := hnot (by decide)
  have hbracket : c ≠ ']' := hnot (by decide)
  have hcomma : c ≠ ',' := hnot (by decide)
  have hcolon : c ≠ ':' := hnot (by decide)
  simp [lex, hblank, hbrace, hbracket, hcomma, hcolon]

theorem escapeChar_letter (hlow : 'a' ≤ c) (hhigh : c ≤ 'z') : PyJson.escapeChar c = [c] := by
  have hnot {e : Char} (he : ¬ 'a' ≤ e ∨ ¬ e ≤ 'z') : c ≠ e := by
    rintro rfl
    exact he.elim (absurd hlow) (absurd hhigh)
  have hlow' : 97 ≤ c.toNat := hlow
  have hhigh' : c.toNat ≤ 122 := hhigh
  have hprintable : 0x20 ≤ c.toNat ∧ c.toNat ≤ 0x7E := by omega
  rw [PyJson.escapeChar, if_neg (hnot (by decide)), if_neg (hnot (by decide)), if_neg (hnot (by decide)), if_neg (hnot (by decide)),
    if_neg (hnot (by decide)), if_neg (hnot (by decide)), if_neg (hnot (by decide)), if_pos hprintable]

theorem text_whole (settings : AuditSettings Num) (hr : r.IsWF) : IsWhole (settings.text r) := by
  have hkeys : ∀ m ∈ sortKeys r.ordered.toDict, m.1 ∈ fieldNames := by
    intro m hm
    rw [← toDict_keys r.ordered]
    exact List.mem_map_of_mem ((sortKeys_perm _).mem_iff.mp hm)
  obtain ⟨t, ht⟩ : ∃ t, settings.text r = '{' :: t := ⟨_, text_eq settings r⟩
  refine ⟨?_, ?_, ?_⟩
  · rw [text_eq]
    cases hms : sortKeys r.ordered.toDict with
    | nil =>
      have hperm := (sortKeys_perm r.ordered.toDict).length_eq
      rw [hms] at hperm
      cases hperm
    | cons m ms =>
      obtain ⟨c, k, hk, hlow, hhigh⟩ := fieldNames_start m.1 (hkeys m (by rw [hms]; exact List.mem_cons_self))
      have hquote : PyJson.quote m.1 = '"' :: c :: (k.flatMap PyJson.escapeChar ++ ['"']) := by
        rw [hk, PyJson.quote, List.flatMap_cons, escapeChar_letter hlow hhigh]
        rfl
      obtain ⟨t', ht'⟩ : ∃ t', writtenMembers settings.numerals (m :: ms) = PyJson.quote m.1 ++ t' := by
        cases ms with
        | nil | cons m' ms => exact ⟨_, rfl⟩
      refine ⟨c, k.flatMap PyJson.escapeChar ++ ['"'] ++ t', ?_, lex_letter hlow hhigh⟩
      rw [written, ht', hquote]
      rfl
  · obtain ⟨t', ht'⟩ := writtenMembers_end settings.numerals (sortKeys r.ordered.toDict)
    refine ⟨'{' :: t', ?_⟩
    rw [text_eq, written, ht']
    rfl
  · have hparse : parse settings.numerals (settings.text r) = _ := parse_text hr
    rw [ht] at hparse ⊢
    exact lex_parsed hparse

theorem text_unbroken (settings : AuditSettings Num) (r : DecisionAuditRecord Num) : '\n' ∉ settings.text r := by
  intro hmem
  have hprintable : isPrintable '\n' = true := written_printable _ _ hmem
  cases hprintable

theorem readLine_text (hr : r.IsWF) : settings.readLine (settings.text r) = some r.ordered := by
  rw [AuditSettings.readLine, strip_whole (text_whole settings hr), parse_text hr]
  exact fromDict_sorted r.ordered

end Texts
section Lines
variable {f g t p : Text} {ls : List Text}

theorem lines_ne_nil : ∀ f : Text, lines f ≠ []
  | [] => by simp [lines]
  | c :: cs => by
    rw [lines]
    split
    · simp
    · split <;> simp

theorem lines_unbroken : ∀ {t : Text}, '\n' ∉ t → lines t = [t]
  | [], _ => rfl
  | c :: cs, h => by
    rw [List.mem_cons, not_or] at h
    rw [lines, if_neg (Ne.symm h.1), lines_unbroken h.2]

theorem lines_append (g : Text) : ∀ {f t : Text} {ls : List Text}, lines f = ls ++ [t] → lines (f ++ g) = ls ++ lines (t ++ g)
  | [], t, ls, h => by
    have hlength := congrArg List.length h
    simp only [lines, List.length_append, List.length_singleton] at hlength
    have hnil : ls = [] := List.length_eq_zero_iff.mp (by omega)
    subst hnil
    cases h
    rfl
  | c :: cs, t, ls, h => by
    rw [lines] at h
    rw [List.cons_append, lines]
    split at h
    · rename_i hbreak
      rw [if_pos hbreak]
      cases ls with
      | nil =>
        rw [List.nil_append, List.cons.injEq] at h
        exact absurd h.2 (lines_ne_nil cs)
      | cons l ls =>
        rw [List.cons_append, List.cons.injEq] at h
        rw [lines_append g h.2, ← h.1]
        rfl
    · rename_i hbreak
      rw [if_neg hbreak]
      cases hcs : lines cs with
      | nil => exact absurd hcs (lines_ne_nil cs)
      | cons l ls' =>
        rw [hcs] at h
        cases ls with
        | nil =>
          rw [List.nil_append, List.cons.injEq] at h
          obtain ⟨rfl, rfl⟩ := h
          rw [@lines_append g cs l [] hcs, List.nil_append, List.nil_append, List.cons_append, lines, if_neg hbreak]
        | cons l' ls =>
          rw [List.cons_append, List.cons.injEq] at h
          obtain ⟨rfl, rfl⟩ := h
          rw [@lines_append g cs t (l :: ls) hcs]
          rfl

theorem lines_break (ht : '\n' ∉ t) : lines (t ++ '\n' :: g) = t :: lines g := by
  have htail : lines ('\n' :: g) = [] :: lines g := rfl
  induction t with
  | nil => exact htail
  | cons c t ih =>
    rw [List.mem_cons, not_or] at ht
    rw [List.cons_append, lines, if_neg (Ne.symm ht.1), ih ht.2]

theorem unbroken_of_lines : ∀ {f l : Text}, l ∈ lines f → '\n' ∉ l
  | [], l, h => by
    rw [lines, List.mem_singleton] at h
    rw [h]
    exact List.not_mem_nil
  | c :: cs, l, h => by
    rw [lines] at h
    split at h
    · rcases List.mem_cons.mp h with rfl | h
      · exact List.not_mem_nil
      · exact unbroken_of_lines h
    · rename_i hbreak
      cases hcs : lines cs with
      | nil => exact absurd hcs (lines_ne_nil cs)
      | cons l' ls =>
        rw [hcs] at h
        rcases List.mem_cons.mp h with rfl | h
        · rw [List.mem_cons, not_or]
          exact ⟨Ne.symm hbreak, unbroken_of_lines (by rw [hcs]; exact List.mem_cons_self)⟩
        · exact unbroken_of_lines (by rw [hcs]; exact List.mem_cons_of_mem l' h)

def IsTorn (f : Text) : Prop := f ≠ [] ∧ f.getLast? ≠ some '\n'

instance (f : Text) : Decidable (IsTorn f) := inferInstanceAs (Decidable (_ ∧ _))

theorem lines_of_not_torn (h : ¬ IsTorn f) : ∃ ls, lines f = ls ++ [[]] := by
  rcases List.eq_nil_or_concat f with rfl | ⟨f', c, rfl⟩
  · exact ⟨[], rfl⟩
  · rw [List.concat_eq_append] at h ⊢
    have hbreak : c = '\n' := by
      by_contra hc
      exact h ⟨by simp, by simpa using hc⟩
    obtain ⟨ls, t, ht⟩ := (List.eq_nil_or_concat (lines f')).resolve_left (lines_ne_nil f')
    rw [List.concat_eq_append] at ht
    have hunbroken : '\n' ∉ t := unbroken_of_lines (f := f') (by rw [ht]; simp)
    refine ⟨ls ++ [t], ?_⟩
    rw [hbreak, lines_append _ ht, lines_break hunbroken, List.append_assoc]
    rfl

theorem lines_rewritten (settings : AuditSettings Num) : ∀ rs : List (DecisionAuditRecord Num),
    lines (rs.flatMap settings.line) = rs.map settings.text ++ [[]]
  | [] => rfl
  | r :: rs => by
    rw [List.flatMap_cons, AuditSettings.line, List.append_assoc, List.singleton_append,
      lines_break (text_unbroken settings r), lines_rewritten settings rs]
    rfl

end Lines
section Memory
variable {m m' : AuditMemory Num} {rs : List (DecisionAuditRecord Num)} {v i : Text} {now : ℚ}

theorem reindex_snoc (rs : List (DecisionAuditRecord Num)) (r : DecisionAuditRecord Num) :
    AuditMemory.reindex (rs ++ [r]) = (AuditMemory.reindex rs).index r := by
  rw [AuditMemory.reindex, List.foldl_append]
  rfl

theorem reindex_records (rs : List (DecisionAuditRecord Num)) : (AuditMemory.reindex rs).records = rs := by
  induction rs using List.reverseRecOn with
  | nil => rfl
  | append_singleton rs r ih =>
    rw [reindex_snoc]
    exact congrArg (· ++ [r]) ih

theorem mem_addTo {index : Text → List Text} {key : Option Text} {id : Text} (hv : v ≠ [])
    (h : i ∈ index v ∨ i = id ∧ key = some v) : i ∈ addTo index key id v := by
  obtain ⟨c, v, rfl⟩ := List.exists_cons_of_ne_nil hv
  rcases h with h | ⟨rfl, rfl⟩
  · unfold addTo
    split
    · exact h
    · exact h
    · rename_i c' k
      by_cases hk : c :: v = c' :: k
      · rw [hk, Function.update_self]
        rw [hk] at h
        exact List.mem_append_left _ h
      · rw [Function.update_of_ne hk]
        exact h
  · rw [addTo, Function.update_self]
    exact List.mem_append_right _ (List.mem_singleton_self i)

theorem mem_reindex (project : AuditMemory Num → Text → List Text) (key : DecisionAuditRecord Num → Option Text)
    (hproject : ∀ m r, project (m.index r) = addTo (project m) (key r) r.recordId) (hr : r ∈ rs) (hkey : key r = some v)
    (hv : v ≠ []) : r.recordId ∈ project (.reindex rs) v := by
  induction rs using List.reverseRecOn with
  | nil => cases hr
  | append_singleton rs r' ih =>
    rw [reindex_snoc, hproject]
    apply mem_addTo hv
    rcases List.mem_append.mp hr with hr | hr
    · exact .inl (ih hr)
    · rw [List.mem_singleton] at hr
      subst hr
      exact .inr ⟨rfl, hkey⟩

theorem byId_some (h : (AuditMemory.reindex rs).byId i = some r) : r ∈ rs ∧ r.recordId = i := by
  induction rs using List.reverseRecOn with
  | nil => cases h
  | append_singleton rs r' ih =>
    rw [reindex_snoc] at h
    change Function.update (AuditMemory.reindex rs).byId r'.recordId (some r') i = some r at h
    by_cases hi : i = r'.recordId
    · rw [hi, Function.update_self, Option.some.injEq] at h
      subst h
      exact ⟨by simp, hi.symm⟩
    · rw [Function.update_of_ne hi] at h
      exact ⟨List.mem_append_left _ (ih h).1, (ih h).2⟩

theorem byId_of_mem (hr : r ∈ rs) : ∃ r', (AuditMemory.reindex rs).byId r.recordId = some r' := by
  induction rs using List.reverseRecOn with
  | nil => cases hr
  | append_singleton rs r' ih =>
    rw [reindex_snoc]
    change ∃ r'', Function.update (AuditMemory.reindex rs).byId r'.recordId (some r') r.recordId = some r''
    by_cases hi : r.recordId = r'.recordId
    · rw [hi, Function.update_self]
      exact ⟨r', rfl⟩
    · rw [Function.update_of_ne hi]
      apply ih
      rcases List.mem_append.mp hr with hr | hr
      · exact hr
      · rw [List.mem_singleton] at hr
        exact absurd (congrArg _ hr) hi

/-- Pruning leaves the records that are young, and indexes that are made from what is left. -/
structure AuditMemory.Pruned (settings : AuditSettings Num) (now : ℚ) (m m' : AuditMemory Num) : Prop where
  indexed : m' = .reindex m'.records
  subset : ∀ r ∈ m'.records, r ∈ m.records
  young : ∀ r ∈ m.records, settings.IsYoung now r → r ∈ m'.records

theorem pruneLocked_pruned (settings : AuditSettings Num) (now : ℚ) (hm : m = .reindex m.records) :
    m.Pruned settings now (m.pruneLocked settings now).2 := by
  have hsame : m.Pruned settings now m := ⟨hm, fun _ hr => hr, fun _ hr _ => hr⟩
  unfold AuditMemory.pruneLocked
  split
  · exact hsame
  rename_i hexpires
  dsimp only
  split
  · exact hsame
  · refine ⟨by rw [reindex_records], fun r hr => ?_, fun r hr hyoung => ?_⟩
    · rw [reindex_records] at hr
      exact List.mem_of_mem_filter hr
    · rw [reindex_records, List.mem_filter]
      exact ⟨hr, decide_eq_true (hyoung.resolve_left hexpires)⟩

end Memory
end Soter.DecisionAudit
