import Mathlib.Data.List.Lex
import Mathlib.Data.List.Sort

/-! JSON values. The members of an object stand in the order in which they were set; two values are
the same if they differ in that order only. -/
namespace Soter.Json

open List

abbrev Text := List Char

instance : LawfulBEq Text := inferInstance

inductive Value (Num : Type)
  | null
  | bool (b : Bool)
  | num (n : Num)
  | str (s : Text)
  | arr (items : List (Value Num))
  | obj (members : List (Text × Value Num))

section Keys
variable {β γ : Type} {ms ms' : List (Text × β)} {k k' : Text}

/-- The place of a character in the order of UTF-16 code units, in which the surrogate pairs stand
before U+E000. -/
def utf16Rank (c : Char) : ℕ :=
  if 0xE000 ≤ c.toNat ∧ c.toNat < 0x10000 then c.toNat + 0x110000 else c.toNat

theorem utf16Rank_injective : Function.Injective utf16Rank := by
  intro c d h
  have hc : c.toNat < 0x110000 := by
    rcases c.valid with hlow | ⟨-, hhigh⟩
    · exact hlow.trans (by decide)
    · exact hhigh
  have hd : d.toNat < 0x110000 := by
    rcases d.valid with hlow | ⟨-, hhigh⟩
    · exact hlow.trans (by decide)
    · exact hhigh
  apply Char.toNat_inj.mp
  simp only [utf16Rank] at h
  split at h <;> split at h <;> omega

def KeyLE (k k' : Text) : Prop := k.map utf16Rank ≤ k'.map utf16Rank

instance : DecidableRel KeyLE := fun k k' =>
  inferInstanceAs (Decidable (k.map utf16Rank ≤ k'.map utf16Rank))

theorem KeyLE.antisymm (h : KeyLE k k') (h' : KeyLE k' k) : k = k' :=
  utf16Rank_injective.list_map (le_antisymm h h')

instance : Std.Total KeyLE := ⟨fun k k' => le_total (k.map utf16Rank) (k'.map utf16Rank)⟩

instance : IsTrans Text KeyLE := ⟨fun _ _ _ h h' => le_trans (α := List ℕ) h h'⟩

def sortMembers (ms : List (Text × β)) : List (Text × β) :=
  ms.insertionSort fun m m' => KeyLE m.1 m'.1

theorem sortMembers_perm (ms : List (Text × β)) : (sortMembers ms).Perm ms :=
  perm_insertionSort _ ms

theorem sortMembers_map (f : β → γ) (ms : List (Text × β)) :
    sortMembers (ms.map fun m => (m.1, f m.2)) = (sortMembers ms).map fun m => (m.1, f m.2) :=
  (map_insertionSort (fun m m' : Text × β => KeyLE m.1 m'.1)
    (fun m m' : Text × γ => KeyLE m.1 m'.1) (fun m => (m.1, f m.2)) ms fun _ _ _ _ => Iff.rfl).symm

theorem sortMembers_pairwise (ms : List (Text × β)) : (sortMembers ms).Pairwise fun m m' => KeyLE m.1 m'.1 := by
  have htotal : Std.Total fun m m' : Text × β => KeyLE m.1 m'.1 :=
    ⟨fun m m' => Std.Total.total m.1 m'.1⟩
  have htrans : IsTrans (Text × β) fun m m' => KeyLE m.1 m'.1 :=
    ⟨fun a b c h h' => IsTrans.trans a.1 b.1 c.1 h h'⟩
  exact pairwise_insertionSort _ ms

theorem sortMembers_of_perm (hkeys : (ms.map Prod.fst).Nodup) (h : ms.Perm ms') :
    sortMembers ms = sortMembers ms' := by
  have hperm : (sortMembers ms).Perm (sortMembers ms') :=
    ((sortMembers_perm ms).trans h).trans (sortMembers_perm ms').symm
  apply hperm.eq_of_pairwise _ (sortMembers_pairwise ms) (sortMembers_pairwise ms')
  intro m m' hm hm' hle hle'
  have hmem : m ∈ ms := (sortMembers_perm ms).mem_iff.mp hm
  have hmem' : m' ∈ ms := h.mem_iff.mpr ((sortMembers_perm ms').mem_iff.mp hm')
  exact inj_on_of_nodup_map hkeys hmem hmem' (hle.antisymm hle')

theorem lookup_of_mem {m : Text × β} (hkeys : (ms.map Prod.fst).Nodup) (hm : m ∈ ms) :
    ms.lookup m.1 = some m.2 := by
  induction ms with
  | nil => cases hm
  | cons m' ms ih =>
    rw [map_cons, nodup_cons] at hkeys
    rcases mem_cons.mp hm with rfl | hm
    · exact lookup_cons_self
    · have hne : m.1 ≠ m'.1 := by
        intro heq
        exact hkeys.1 (heq ▸ mem_map_of_mem hm)
      rw [lookup_cons, beq_eq_false_iff_ne.mpr hne]
      exact ih hkeys.2 hm

theorem mem_of_lookup {v : β} (h : ms.lookup k = some v) : (k, v) ∈ ms := by
  induction ms with
  | nil => cases h
  | cons m ms ih =>
    rw [lookup_cons] at h
    split at h
    · rename_i hk
      cases h
      rw [eq_of_beq hk]
      exact mem_cons_self
    · exact mem_cons_of_mem m (ih h)

end Keys

section Sorted
variable {Num : Type}

mutual
/-- The value with the members of its objects in the order of their keys. -/
def Value.sorted : Value Num → Value Num
  | .null => .null
  | .bool b => .bool b
  | .num n => .num n
  | .str s => .str s
  | .arr items => .arr (sortedItems items)
  | .obj members => .obj (sortMembers (sortedMembers members))

def sortedItems : List (Value Num) → List (Value Num)
  | [] => []
  | v :: vs => v.sorted :: sortedItems vs

def sortedMembers : List (Text × Value Num) → List (Text × Value Num)
  | [] => []
  | (k, v) :: ms => (k, v.sorted) :: sortedMembers ms
end

theorem sortedItems_eq : ∀ vs : List (Value Num), sortedItems vs = vs.map Value.sorted
  | [] => rfl
  | v :: vs => by rw [sortedItems, sortedItems_eq vs, map_cons]

theorem sortedMembers_eq : ∀ ms : List (Text × Value Num), sortedMembers ms = ms.map fun m => (m.1, m.2.sorted)
  | [] => rfl
  | (k, v) :: ms => by rw [sortedMembers, sortedMembers_eq ms, map_cons]

def Value.Same (a b : Value Num) : Prop := a.sorted = b.sorted

/-- A value as a program can hold it: no object has two members of one key. -/
inductive Value.WF : Value Num → Prop
  | null : Value.WF .null
  | bool (b : Bool) : Value.WF (.bool b)
  | num (n : Num) : Value.WF (.num n)
  | str (s : Text) : Value.WF (.str s)
  | arr {items : List (Value Num)} (each : ∀ v ∈ items, v.WF) : Value.WF (.arr items)
  | obj {members : List (Text × Value Num)} (keys : (members.map Prod.fst).Nodup)
      (each : ∀ m ∈ members, m.2.WF) : Value.WF (.obj members)

theorem Value.wf_empty : (Value.obj [] : Value Num).WF :=
  .obj nodup_nil fun _ hm => absurd hm not_mem_nil

variable {items items' : List (Value Num)} {members members' : List (Text × Value Num)}

theorem same_arr : (Value.arr items).Same (.arr items') ↔ Forall₂ Value.Same items items' := by
  simp only [Value.Same, Value.sorted, Value.arr.injEq, sortedItems_eq]
  rw [← forall₂_eq_eq_eq, forall₂_map_left_iff, forall₂_map_right_iff]
  exact Iff.rfl

end Sorted
end Soter.Json
