import Soter.Audit.Canonical

/-! When the canonical form, its hash and the deep comparison of the audit chain tell JSON values apart. -/
namespace Soter.Audit
open Soter.Json List

variable {Num : Type} {v w : Value Num}

mutual
/-- The value with the members called `__proto__` left out of all its objects. -/
def withoutProto : Value Num → Value Num
  | .null => .null
  | .bool b => .bool b
  | .num n => .num n
  | .str s => .str s
  | .arr items => .arr (withoutProtoItems items)
  | .obj members => .obj (withoutProtoMembers members)

def withoutProtoItems : List (Value Num) → List (Value Num)
  | [] => []
  | v :: vs => withoutProto v :: withoutProtoItems vs

def withoutProtoMembers : List (Text × Value Num) → List (Text × Value Num)
  | [] => []
  | (k, v) :: ms => if k ≠ protoKey then (k, withoutProto v) :: withoutProtoMembers ms else withoutProtoMembers ms
end

theorem withoutProtoItems_eq : ∀ vs : List (Value Num), withoutProtoItems vs = vs.map withoutProto
  | [] => rfl
  | v :: vs => by rw [withoutProtoItems, withoutProtoItems_eq vs, map_cons]

theorem withoutProtoMembers_eq : ∀ ms : List (Text × Value Num),
    withoutProtoMembers ms = (ms.filter (·.1 ≠ protoKey)).map fun m => (m.1, withoutProto m.2)
  | [] => rfl
  | (k, v) :: ms => by
    rw [withoutProtoMembers, withoutProtoMembers_eq ms, filter_cons]
    by_cases hk : k = protoKey <;> simp [hk]

theorem sortDeep_eq (hv : v.WF) : sortDeep v = withoutProto v.sorted := by
  induction hv with
  | null | bool b | num n | str s => rfl
  | arr each ih =>
    rw [sortDeep, Value.sorted, withoutProto, sortDeepItems_eq, sortedItems_eq, withoutProtoItems_eq, map_map]
    exact congrArg Value.arr (map_congr_left ih)
  | @obj members keys each ih =>
    have hmembers : (members.map fun m => (m.1, sortDeep m.2)) = members.map fun m => (m.1, withoutProto m.2.sorted) := by
      apply map_congr_left
      intro m hm
      rw [ih m hm]
    rw [sortDeep, Value.sorted, withoutProto, sortDeepMembers_eq, sortedMembers_eq, withoutProtoMembers_eq, hmembers,
      sortMembers_map Value.sorted, sortMembers_map fun v : Value Num => withoutProto v.sorted, filter_map, filter_map, map_map]
    rfl

theorem sorted_sortDeep (hv : v.WF) : (sortDeep v).sorted = sortDeep v := by
  induction hv with
  | null | bool b | num n | str s => rfl
  | arr each ih =>
    rw [sortDeep, Value.sorted, sortDeepItems_eq, sortedItems_eq, map_map]
    exact congrArg Value.arr (map_congr_left ih)
  | @obj members keys each ih =>
    rw [sortDeep, Value.sorted, sortDeepMembers_eq, sortedMembers_eq, sortMembers_map Value.sorted]
    have hsorted := (sortMembers_pairwise (members.map fun m => (m.1, sortDeep m.2))).filter (·.1 ≠ protoKey)
    have hvalues : ∀ m ∈ (sortMembers (members.map fun m => (m.1, sortDeep m.2))).filter (·.1 ≠ protoKey),
        (m.1, m.2.sorted) = id m := by
      intro m hm
      obtain ⟨m', hm', rfl⟩ := mem_map.mp ((sortMembers_perm _).mem_iff.mp (mem_of_mem_filter hm))
      exact congrArg (Prod.mk m'.1) (ih m' hm')
    apply congrArg Value.obj
    exact (congrArg _ hsorted.insertionSort_eq).trans ((map_congr_left hvalues).trans (map_id _))

section Decides
variable (numerals : Numerals Num)

/-- The values are equal up to the order of members, and up to those called `__proto__`. -/
def SameWithoutProto (v w : Value Num) : Prop := withoutProto v.sorted = withoutProto w.sorted

theorem canonicalJson_eq_iff (hv : v.WF) (hw : w.WF) :
    canonicalJson numerals v = canonicalJson numerals w ↔ SameWithoutProto v w := by
  rw [SameWithoutProto, ← sortDeep_eq hv, ← sortDeep_eq hw]
  constructor
  · intro h
    have hsame : (sortDeep v).sorted = (sortDeep w).sorted := stringify_injective (sortDeep_wf hv) (sortDeep_wf hw) h
    rwa [sorted_sortDeep hv, sorted_sortDeep hw] at hsame
  · intro h
    rw [canonicalJson, canonicalJson, h]

variable [DecidableEq Num] (sha256 : Text → Text)

/-- All three ways to compare two values tell whether they are equal up to the order of members. -/
structure DecidesEquality (v w : Value Num) : Prop where
  canonical : canonicalJson numerals v = canonicalJson numerals w ↔ v.Same w
  deepEqual : jsonDeepEqual v w = true ↔ v.Same w
  hash : metadataHash sha256 (canonicalJson numerals v) = metadataHash sha256 (canonicalJson numerals w) ↔ v.Same w

variable {sha256}

/-- The comparisons agree unless two values differ in members called `__proto__`, and otherwise in their order only. -/
theorem decidesEquality_iff (hsha256 : Function.Injective sha256) :
    (Equivalence fun v w : {v : Value Num // v.WF} => jsonDeepEqual v.1 w.1 = true) ∧
      ∀ v w : Value Num, v.WF → w.WF → (DecidesEquality numerals sha256 v w ↔ (SameWithoutProto v w → v.Same w)) := by
  constructor
  · exact ⟨fun v => (jsonDeepEqual_iff v.2 v.2).mpr rfl,
      fun {v w} h => (jsonDeepEqual_iff w.2 v.2).mpr ((jsonDeepEqual_iff v.2 w.2).mp h).symm,
      fun {u v w} h h' => (jsonDeepEqual_iff u.2 w.2).mpr
        (((jsonDeepEqual_iff u.2 v.2).mp h).trans ((jsonDeepEqual_iff v.2 w.2).mp h'))⟩
  · intro v w hv hw
    have hiff := canonicalJson_eq_iff numerals hv hw
    constructor
    · intro h hsame
      exact h.canonical.mp (hiff.mpr hsame)
    · intro h
      have hcanonical : canonicalJson numerals v = canonicalJson numerals w ↔ v.Same w :=
        hiff.trans ⟨h, congrArg withoutProto⟩
      exact ⟨hcanonical, jsonDeepEqual_iff hv hw, hsha256.eq_iff.trans hcanonical⟩

theorem decidesEquality_swapped :
    DecidesEquality Numerals.nat id (.obj [(['b'], .num 1), (['a'], .null)]) (.obj [(['a'], .null), (['b'], .num 1)]) :=
  ((decidesEquality_iff Numerals.nat Function.injective_id).2 _ _
    (.obj (by decide) (forall_mem_cons.mpr ⟨.num 1, forall_mem_cons.mpr ⟨.null, forall_mem_nil _⟩⟩))
    (.obj (by decide) (forall_mem_cons.mpr ⟨.null, forall_mem_cons.mpr ⟨.num 1, forall_mem_nil _⟩⟩))).mpr fun _ => rfl

/-- The object with a member called `__proto__` has the canonical form of the empty object. -/
theorem proto_like_empty : ¬ DecidesEquality Numerals.nat id (.obj [(protoKey, .num 1)]) (.obj []) := by
  intro h
  have hsame : (Value.obj [(protoKey, .num 1)]).Same (.obj []) := h.canonical.mp rfl
  cases hsame

end Decides
end Soter.Audit
