import Soter.Audit.ChainUtil

/-! What the canonical form of metadata determines: two values are deeply equal exactly when they are
the same, and the canonical form of a value reads back as that value exactly when it is plain. -/
namespace Soter.Audit
open Soter.Json List Value

variable {Num : Type} {v w : Value Num}

theorem sortMembers_idem {β : Type} (ms : List (Text × β)) : sortMembers (sortMembers ms) = sortMembers ms :=
  (sortMembers_pairwise ms).insertionSort_eq

theorem sorted_sorted (hv : v.WF) : v.sorted.sorted = v.sorted := by
  induction hv with
  | null | bool b | num n | str s => rfl
  | arr each ih =>
    simp only [sorted, sortedItems_eq, map_map]
    exact congrArg arr (map_congr_left ih)
  | @obj members keys each ih =>
    simp only [sorted, sortedMembers_eq]
    rw [← sortMembers_map, sortMembers_idem, map_map]
    apply congrArg (fun ms => obj (sortMembers ms))
    apply map_congr_left
    intro m hm
    simp only [Function.comp_apply, ih m hm]

theorem sorted_eq_str {s : Text} : v.sorted = .str s ↔ v = .str s := by
  cases v <;> simp [sorted]

theorem sortedKeys_perm {β : Type} (ms : List (Text × β)) : (sortedKeys ms).Perm (ms.map Prod.fst) :=
  (sortMembers_perm ms).map Prod.fst

theorem sortedKeys_map {β γ : Type} (f : β → γ) (ms : List (Text × β)) :
    sortedKeys (ms.map fun m => (m.1, f m.2)) = sortedKeys ms := by
  rw [sortedKeys, sortMembers_map, map_fst_map, sortedKeys]

/-- Two objects are the same exactly when they have the same keys, and the same value under each. -/
theorem same_obj_iff {as bs : List (Text × Value Num)} (ha : (as.map Prod.fst).Nodup)
    (hb : (bs.map Prod.fst).Nodup) : (obj as).Same (.obj bs) ↔ sortedKeys as = sortedKeys bs ∧
      ∀ m ∈ as, ∃ b, bs.lookup m.1 = some b ∧ m.2.Same b := by
  simp only [Same, sorted, obj.injEq, sortedMembers_eq]
  constructor
  · intro h
    have hperm : (as.map fun m => (m.1, m.2.sorted)).Perm (bs.map fun m => (m.1, m.2.sorted)) := by
      apply (sortMembers_perm _).symm.trans
      rw [h]
      exact sortMembers_perm _
    constructor
    · rw [← sortedKeys_map sorted as, ← sortedKeys_map sorted bs, sortedKeys, h, sortedKeys]
    · intro m hm
      have hmem := hperm.mem_iff.mp (mem_map_of_mem hm)
      obtain ⟨m', hm', heq⟩ := mem_map.mp hmem
      obtain ⟨hk, hval⟩ := Prod.mk.inj heq
      exact ⟨m'.2, hk ▸ lookup_of_mem hb hm', hval.symm⟩
  · rintro ⟨hkeys, hvals⟩
    have hkeysA : ((as.map fun m => (m.1, m.2.sorted)).map Prod.fst).Nodup := by
      rwa [map_fst_map]
    have hlen : as.length = bs.length := by
      have hperm := (sortedKeys_perm as).symm.trans (hkeys ▸ sortedKeys_perm bs)
      simpa using hperm.length_eq
    have hsub : (as.map fun m => (m.1, m.2.sorted)) ⊆ bs.map fun m => (m.1, m.2.sorted) := by
      intro x hx
      obtain ⟨m, hm, rfl⟩ := mem_map.mp hx
      obtain ⟨b, hb, hsame⟩ := hvals m hm
      rw [hsame]
      exact mem_map_of_mem (f := fun m => (m.1, m.2.sorted)) (mem_of_lookup hb)
    have hsubperm := subperm_of_subset hkeysA.of_map hsub
    exact sortMembers_of_perm hkeysA (hsubperm.perm_of_length_le (by simp [hlen]))

section DeepEqual
variable [DecidableEq Num]

theorem itemsEqual_iff : ∀ {as bs : List (Value Num)}, as.length = bs.length →
    (itemsEqual as bs = true ↔ Forall₂ (fun a b => jsonDeepEqual a b = true) as bs)
  | [], [], _ => by simp [itemsEqual]
  | a :: as, b :: bs, h => by
    rw [itemsEqual, Bool.and_eq_true, forall₂_cons, itemsEqual_iff (Nat.succ.inj h)]

theorem membersEqual_iff {bs : List (Text × Value Num)} : ∀ {as : List (Text × Value Num)},
    membersEqual as bs = true ↔ ∀ m ∈ as, ∃ b, bs.lookup m.1 = some b ∧ jsonDeepEqual m.2 b = true
  | [] => by simp [membersEqual]
  | (k, a) :: as => by
    rw [membersEqual, Bool.and_eq_true, forall_mem_cons, membersEqual_iff]
    apply and_congr_left'
    cases bs.lookup k <;> simp

theorem jsonDeepEqual_iff (hv : v.WF) (hw : w.WF) : jsonDeepEqual v w = true ↔ v.Same w := by
  induction hv generalizing w with
  | null | bool b | num n | str s => cases w <;> simp [jsonDeepEqual, Same, sorted]
  | @arr items each ih =>
    cases hw with
    | @arr items' each' =>
      rw [same_arr, jsonDeepEqual, Bool.and_eq_true, beq_iff_eq]
      have hiff : ∀ a b, (a, b) ∈ items.zip items' → (jsonDeepEqual a b = true ↔ a.Same b) := by
        intro a b hab
        obtain ⟨ha, hb⟩ := of_mem_zip hab
        exact ih a ha (each' b hb)
      constructor
      · rintro ⟨hlen, hitems⟩
        rw [itemsEqual_iff hlen, forall₂_iff_zip] at hitems
        exact forall₂_iff_zip.mpr ⟨hlen, fun hab => (hiff _ _ hab).mp (hitems.2 hab)⟩
      · intro hsame
        have hlen := hsame.length_eq
        rw [forall₂_iff_zip] at hsame
        rw [itemsEqual_iff hlen, forall₂_iff_zip]
        exact ⟨hlen, hlen, fun hab => (hiff _ _ hab).mpr (hsame.2 hab)⟩
    | _ => simp [jsonDeepEqual, Same, sorted]
  | @obj members keys each ih =>
    cases hw with
    | @obj members' keys' each' =>
      rw [same_obj_iff keys keys', jsonDeepEqual, Bool.and_eq_true, beq_iff_eq, membersEqual_iff]
      apply and_congr_right'
      apply forall₂_congr
      intro m hm
      apply exists_congr
      intro b
      apply and_congr_right
      intro hb
      exact ih m hm (each' _ (mem_of_lookup hb))
    | _ => simp [jsonDeepEqual, Same, sorted]

end DeepEqual

inductive NoProto : Value Num → Prop
  | null : NoProto .null
  | bool (b : Bool) : NoProto (.bool b)
  | num (n : Num) : NoProto (.num n)
  | str (s : Text) : NoProto (.str s)
  | arr {items : List (Value Num)} (each : ∀ v ∈ items, NoProto v) : NoProto (.arr items)
  | obj {members : List (Text × Value Num)} (keys : ∀ m ∈ members, m.1 ≠ protoKey)
      (each : ∀ m ∈ members, NoProto m.2) : NoProto (.obj members)

/-- Metadata whose canonical form denotes it: it is not a string, and no member of it is lost. -/
structure Plain (metadata : Value Num) : Prop where
  not_str : ∀ s, metadata ≠ .str s
  noProto : NoProto metadata

theorem sortDeep_eq_sorted (h : NoProto v) : sortDeep v = v.sorted := by
  induction h with
  | null | bool b | num n | str s => rfl
  | arr each ih =>
    rw [sortDeep, sorted, sortDeepItems_eq, sortedItems_eq, map_congr_left ih]
  | @obj members keys each ih =>
    have hmap : (members.map fun m => (m.1, sortDeep m.2)) = members.map fun m => (m.1, m.2.sorted) := by
      apply map_congr_left
      intro m hm
      rw [ih m hm]
    rw [sortDeep, sorted, sortDeepMembers_eq, sortedMembers_eq, hmap]
    apply congrArg obj
    apply filter_eq_self.mpr
    intro m hm
    obtain ⟨m', hm', rfl⟩ := mem_map.mp ((sortMembers_perm _).mem_iff.mp hm)
    simpa using keys m' hm'

theorem sortDeep_wf (hv : v.WF) : (sortDeep v).WF := by
  induction hv with
  | null => exact .null
  | bool b => exact .bool b
  | num n => exact .num n
  | str s => exact .str s
  | arr each ih =>
    rw [sortDeep, sortDeepItems_eq]
    exact .arr (forall_mem_map.mpr ih)
  | @obj members keys each ih =>
    rw [sortDeep, sortDeepMembers_eq]
    apply Value.WF.obj
    · have hkeys : ((sortMembers (members.map fun m => (m.1, sortDeep m.2))).map Prod.fst).Nodup := by
        apply ((sortedKeys_perm _).nodup_iff).mpr
        rwa [map_fst_map]
      exact hkeys.sublist (filter_sublist.map Prod.fst)
    · intro m hm
      obtain ⟨m', hm', rfl⟩ :=
        mem_map.mp ((sortMembers_perm _).mem_iff.mp (mem_of_mem_filter hm))
      exact ih m' hm'

theorem noProto_sortDeep (hv : v.WF) : NoProto (sortDeep v) := by
  induction hv with
  | null => exact .null
  | bool b => exact .bool b
  | num n => exact .num n
  | str s => exact .str s
  | arr each ih =>
    rw [sortDeep, sortDeepItems_eq]
    exact .arr (forall_mem_map.mpr ih)
  | @obj members keys each ih =>
    rw [sortDeep, sortDeepMembers_eq]
    apply NoProto.obj
    · intro m hm
      simpa using (mem_filter.mp hm).2
    · intro m hm
      obtain ⟨m', hm', rfl⟩ :=
        mem_map.mp ((sortMembers_perm _).mem_iff.mp (mem_of_mem_filter hm))
      exact ih m' hm'

theorem noProto_sorted (hv : v.WF) : NoProto v.sorted ↔ NoProto v := by
  induction hv with
  | null | bool b | num n | str s => rfl
  | @arr items each ih =>
    rw [sorted, sortedItems_eq]
    constructor
    · rintro (h | h | h | h | h | h)
      exact .arr fun v hv => (ih v hv).mp (h _ (mem_map_of_mem hv))
    · rintro (h | h | h | h | h | h)
      exact .arr (forall_mem_map.mpr fun v hv => (ih v hv).mpr (h v hv))
  | @obj members keys each ih =>
    rw [sorted, sortedMembers_eq]
    have hmem : ∀ m, m ∈ sortMembers (members.map fun m => (m.1, m.2.sorted)) ↔
        ∃ m' ∈ members, (m'.1, m'.2.sorted) = m := fun m =>
      (sortMembers_perm _).mem_iff.trans mem_map
    constructor
    · rintro (_ | _ | _ | _ | _ | ⟨hkeys, hvals⟩)
      apply NoProto.obj
      · intro m hm
        exact hkeys (m.1, m.2.sorted) ((hmem _).mpr ⟨m, hm, rfl⟩)
      · intro m hm
        exact (ih m hm).mp (hvals (m.1, m.2.sorted) ((hmem _).mpr ⟨m, hm, rfl⟩))
    · rintro (_ | _ | _ | _ | _ | ⟨hkeys, hvals⟩)
      apply NoProto.obj
      · intro m hm
        obtain ⟨m', hm', rfl⟩ := (hmem m).mp hm
        exact hkeys m' hm'
      · intro m hm
        obtain ⟨m', hm', rfl⟩ := (hmem m).mp hm
        exact (ih m' hm').mpr (hvals m' hm')

theorem noProto_congr (hv : v.WF) (hw : w.WF) (h : v.Same w) : NoProto v ↔ NoProto w := by
  rw [← noProto_sorted hv, h, noProto_sorted hw]

theorem sortDeep_same_iff (hv : v.WF) : (sortDeep v).Same v ↔ NoProto v := by
  constructor
  · intro h
    exact (noProto_congr (sortDeep_wf hv) hv h).mp (noProto_sortDeep hv)
  · intro h
    rw [sortDeep_eq_sorted h]
    exact sorted_sorted hv

theorem plain_congr (hv : v.WF) (hw : w.WF) (h : v.Same w) : Plain v ↔ Plain w := by
  have hstr : (∀ s, v ≠ .str s) ↔ ∀ s, w ≠ .str s := by
    apply forall_congr'
    intro s
    exact not_congr (sorted_eq_str.symm.trans (h ▸ sorted_eq_str))
  have hproto := noProto_congr hv hw h
  exact ⟨fun hp => ⟨hstr.mp hp.not_str, hproto.mp hp.noProto⟩, fun hp => ⟨hstr.mpr hp.not_str, hproto.mpr hp.noProto⟩⟩

section ReadBack
variable (numerals : Numerals Num)

theorem canonicalMetadata_of_not_str (h : ∀ s, v ≠ .str s) :
    canonicalMetadata numerals v none = canonicalJson numerals v := by
  cases v with
  | str s => exact absurd rfl (h s)
  | _ => rfl

theorem canonicalMetadata_denotes (hv : v.WF) :
    (∃ read, parse numerals (canonicalMetadata numerals v none) = some read ∧ read.Same v) ↔ Plain v := by
  by_cases hstr : ∃ s, v = .str s
  · obtain ⟨s, rfl⟩ := hstr
    constructor
    · rintro ⟨read, hread, hsame⟩
      have hread' : read = .str s := sorted_eq_str.mp hsame
      subst hread'
      exact absurd (parse_str_length hread) (lt_irrefl _)
    · intro h
      exact absurd rfl (h.not_str s)
  · have hstr : ∀ s, v ≠ .str s := fun s hs => hstr ⟨s, hs⟩
    have hparse : parse numerals (stringify numerals 2 (sortDeep v)) = some (sortDeep v).visited :=
      parse_stringify (sortDeep_wf hv)
    have hvisited := visited_same (sortDeep_wf hv)
    rw [canonicalMetadata_of_not_str numerals hstr, canonicalJson, hparse]
    constructor
    · rintro ⟨read, hread, hsame⟩
      cases hread
      exact ⟨hstr, (sortDeep_same_iff hv).mp (hvisited.symm.trans hsame)⟩
    · intro h
      exact ⟨_, rfl, hvisited.trans ((sortDeep_same_iff hv).mpr h.noProto)⟩

end ReadBack
end Soter.Audit
