import Mathlib.Data.List.Nodup

/-! Two keyed lists compared in two passes: the first looks each entry of the one list up in the other, the
second looks for the entries of the other that the first has not met. -/
namespace Soter.TwoPass

open List

variable {A B K D : Type*} [DecidableEq K] {keyA : A → K} {keyB : B → K}

/-- The entry with a key. -/
def entry (key : A → K) (xs : List A) (k : K) : Option A := xs.find? fun a => key a = k

/-- What there is to say of one key. -/
def atKey (left : A → List D) (right : B → List D) (both : A → B → List D) :
    Option A → Option B → List D
  | none, none => []
  | some a, none => left a
  | none, some b => right b
  | some a, some b => both a b

/-- What the first pass says of an entry, given what it finds on the other side. -/
def first (left : A → List D) (both : A → B → List D) (a : A) : Option B → List D
  | none => left a
  | some b => both a b

/-- What the second pass says of an entry: nothing, if the first has met it. -/
def second (right : B → List D) (b : B) : Option A → List D
  | none => right b
  | some _ => []

/-- What the two passes say. -/
def passes (keyA : A → K) (keyB : B → K) (left : A → List D) (right : B → List D)
    (both : A → B → List D) (as : List A) (bs : List B) : List D :=
  (as.flatMap fun a => first left both a (entry keyB bs (keyA a))) ++
    bs.flatMap fun b => second right b (entry keyA as (keyB b))

section Entries
variable {xs : List A} {a : A} {k : K}

theorem mem_of_entry (h : entry keyA xs k = some a) : a ∈ xs ∧ keyA a = k :=
  ⟨mem_of_find?_eq_some h, of_decide_eq_true (@find?_some _ (fun a => decide (keyA a = k)) a xs h)⟩

theorem entry_eq_none : entry keyA xs k = none ↔ k ∉ xs.map keyA := by
  rw [entry, find?_eq_none, mem_map]
  constructor
  · rintro h ⟨a, ha, hk⟩
    exact h a ha (decide_eq_true hk)
  · intro h a ha hk
    exact h ⟨a, ha, of_decide_eq_true hk⟩

theorem entry_of_mem (hnodup : (xs.map keyA).Nodup) (ha : a ∈ xs) : entry keyA xs (keyA a) = some a := by
  cases hentry : entry keyA xs (keyA a) with
  | none => exact absurd (mem_map_of_mem ha) (entry_eq_none.mp hentry)
  | some a' =>
    have hmem := mem_of_entry hentry
    rw [inj_on_of_nodup_map hnodup hmem.1 ha hmem.2]

end Entries

/-- The keys of the one list, and those of the other that are not among them. -/
def allKeys (keyA : A → K) (keyB : B → K) (as : List A) (bs : List B) : List K :=
  as.map keyA ++ (bs.map keyB).filter (· ∉ as.map keyA)

theorem mem_allKeys {as : List A} {bs : List B} {k : K} :
    k ∈ allKeys keyA keyB as bs ↔ k ∈ as.map keyA ∨ k ∈ bs.map keyB := by
  rw [allKeys, mem_append, mem_filter, decide_eq_true_iff]
  tauto

theorem nodup_allKeys {as : List A} {bs : List B} (has : (as.map keyA).Nodup)
    (hbs : (bs.map keyB).Nodup) : (allKeys keyA keyB as bs).Nodup := by
  refine nodup_append.mpr ⟨has, hbs.filter _, ?_⟩
  intro k hk k' hk' heq
  rw [mem_filter, decide_eq_true_iff] at hk'
  rw [heq] at hk
  exact hk'.2 hk

variable {left : A → List D} {right : B → List D} {both : A → B → List D} {as : List A} {bs : List B}

theorem passes_eq (has : (as.map keyA).Nodup) (hbs : (bs.map keyB).Nodup) :
    passes keyA keyB left right both as bs = (allKeys keyA keyB as bs).flatMap fun k =>
        atKey left right both (entry keyA as k) (entry keyB bs k) := by
  rw [passes, allKeys, flatMap_append, flatMap_map]
  congr 1
  · apply flatMap_congr
    intro a ha
    rw [entry_of_mem has ha]
    cases entry keyB bs (keyA a) <;> rfl
  · -- the second pass is silent on the keys that are left out
    have hsilent : ∀ l : List B, (∀ b ∈ l, b ∈ bs) → (l.flatMap fun b => second right b (entry keyA as (keyB b))) =
        ((l.map keyB).filter (· ∉ as.map keyA)).flatMap fun k =>
          atKey left right both (entry keyA as k) (entry keyB bs k) := by
      intro l
      induction l with
      | nil => exact fun _ => rfl
      | cons b l ih =>
        intro hl
        have hrest := ih fun b' hb' => hl b' (mem_cons_of_mem b hb')
        rw [flatMap_cons, hrest, map_cons]
        cases hentry : entry keyA as (keyB b) with
        | none =>
          have hkept : (keyB b :: l.map keyB).filter (· ∉ as.map keyA) =
              keyB b :: (l.map keyB).filter (· ∉ as.map keyA) :=
            filter_cons_of_pos (decide_eq_true (entry_eq_none.mp hentry))
          rw [hkept, flatMap_cons, hentry, entry_of_mem hbs (hl b mem_cons_self)]
          rfl
        | some a =>
          have hmem : keyB b ∈ as.map keyA := by
            by_contra hnot
            rw [entry_eq_none.mpr hnot] at hentry
            cases hentry
          have hdropped : (keyB b :: l.map keyB).filter (· ∉ as.map keyA) = (l.map keyB).filter (· ∉ as.map keyA) :=
            filter_cons_of_neg fun h => of_decide_eq_true h hmem
          rw [hdropped]
          rfl
    exact hsilent bs fun _ h => h

theorem passes_perm (has : (as.map keyA).Nodup) (hbs : (bs.map keyB).Nodup) {keys : List K}
    (hnodup : keys.Nodup) (hkeys : ∀ k, k ∈ keys ↔ k ∈ as.map keyA ∨ k ∈ bs.map keyB) :
    (passes keyA keyB left right both as bs).Perm
      (keys.flatMap fun k => atKey left right both (entry keyA as k) (entry keyB bs k)) := by
  rw [passes_eq has hbs]
  apply List.Perm.flatMap_right
  refine (perm_ext_iff_of_nodup (nodup_allKeys has hbs) hnodup).mpr fun k => ?_
  rw [mem_allKeys, hkeys]

end Soter.TwoPass
