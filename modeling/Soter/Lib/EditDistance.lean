import Mathlib.Order.Bounds.Basic

/-! Edits of single characters, and the least number of them between two texts. -/
namespace Soter.EditDistance

variable {α : Type*}

inductive Edit : List α → List α → Prop
  | insert (l r : List α) (x : α) : Edit (l ++ r) (l ++ x :: r)
  | delete (l r : List α) (x : α) : Edit (l ++ x :: r) (l ++ r)
  | substitute (l r : List α) (x y : α) : Edit (l ++ x :: r) (l ++ y :: r)

/-- The second text is reached from the first by so many edits. -/
inductive Edits : ℕ → List α → List α → Prop
  | refl (a : List α) : Edits 0 a a
  | tail {n a b c} (h : Edits n a b) (e : Edit b c) : Edits (n + 1) a c

/-- A way to write the second text from the first in one pass, with its cost. -/
inductive Aligned : ℕ → List α → List α → Prop
  | nil : Aligned 0 [] []
  | keep (x : α) {n a b} (h : Aligned n a b) : Aligned n (x :: a) (x :: b)
  | substitute (x y : α) {n a b} (h : Aligned n a b) : Aligned (n + 1) (x :: a) (y :: b)
  | insert (y : α) {n a b} (h : Aligned n a b) : Aligned (n + 1) a (y :: b)
  | delete (x : α) {n a b} (h : Aligned n a b) : Aligned (n + 1) (x :: a) b

variable {a b c : List α} {x y : α} {n m : ℕ}

theorem Edit.symm (h : Edit a b) : Edit b a := by
  cases h with
  | insert l r x => exact .delete l r x
  | delete l r x => exact .insert l r x
  | substitute l r x y => exact .substitute l r y x

theorem Edit.reverse (h : Edit a b) : Edit a.reverse b.reverse := by
  cases h with
  | insert l r x => simpa using Edit.insert r.reverse l.reverse x
  | delete l r x => simpa using Edit.delete r.reverse l.reverse x
  | substitute l r x y => simpa using Edit.substitute r.reverse l.reverse x y

theorem Edit.cons (x : α) (h : Edit a b) : Edit (x :: a) (x :: b) := by
  cases h with
  | insert l r y => exact .insert (x :: l) r y
  | delete l r y => exact .delete (x :: l) r y
  | substitute l r y z => exact .substitute (x :: l) r y z

theorem Edits.trans (h : Edits n a b) (h' : Edits m b c) : Edits (n + m) a c := by
  induction h' with
  | refl => exact h
  | tail _ e ih => exact (ih h).tail e

theorem Edits.symm (h : Edits n a b) : Edits n b a := by
  induction h with
  | refl a => exact .refl a
  | @tail n a b c _ e ih =>
    rw [Nat.add_comm]
    exact ((Edits.refl c).tail e.symm).trans ih

theorem Edits.map {f : List α → List α} (hf : ∀ {a b}, Edit a b → Edit (f a) (f b)) (h : Edits n a b) :
    Edits n (f a) (f b) := by
  induction h with
  | refl a => exact .refl (f a)
  | tail _ e ih => exact ih.tail (hf e)

theorem Aligned.refl : ∀ a : List α, Aligned 0 a a
  | [] => .nil
  | x :: a => .keep x (refl a)

theorem Aligned.symm (h : Aligned n a b) : Aligned n b a := by
  induction h with
  | nil => exact .nil
  | keep x _ ih => exact .keep x ih
  | substitute x y _ ih => exact .substitute y x ih
  | insert y _ ih => exact .delete y ih
  | delete x _ ih => exact .insert x ih

theorem Aligned.edits (h : Aligned n a b) : Edits n a b := by
  induction h with
  | nil => exact .refl []
  | keep x _ ih => exact ih.map (Edit.cons x)
  | @substitute x y n a b _ ih => exact (ih.map (Edit.cons x)).tail (.substitute [] b x y)
  | @insert y n a b _ ih => exact ih.tail (.insert [] b y)
  | @delete x n a b _ ih => exact (ih.map (Edit.cons x)).tail (.delete [] b x)

/-- An edit in front of an alignment costs at most one. -/
def Near (a b : List α) : Prop := ∀ (c : List α) (n : ℕ), Aligned n b c → ∃ k ≤ n + 1, Aligned k a c

theorem near_insert (x : α) (a : List α) : Near a (x :: a) := by
  intro c
  induction c with
  | nil =>
    intro n h
    cases h with
    | delete _ h => exact ⟨_, by omega, h⟩
  | cons y c ih =>
    intro n h
    cases h with
    | keep _ h => exact ⟨_, le_rfl, .insert _ h⟩
    | substitute _ _ h => exact ⟨_, by omega, .insert y h⟩
    | delete _ h => exact ⟨_, by omega, h⟩
    | insert _ h =>
      obtain ⟨k, hk, h⟩ := ih _ h
      exact ⟨k + 1, by omega, .insert y h⟩

theorem near_substitute (x y : α) (a : List α) : Near (x :: a) (y :: a) := by
  intro c
  induction c with
  | nil =>
    intro n h
    cases h with
    | delete _ h => exact ⟨_, by omega, .delete x h⟩
  | cons z c ih =>
    intro n h
    cases h with
    | keep _ h => exact ⟨_, le_rfl, .substitute x _ h⟩
    | substitute _ _ h => exact ⟨_, by omega, .substitute x z h⟩
    | delete _ h => exact ⟨_, by omega, .delete x h⟩
    | insert _ h =>
      obtain ⟨k, hk, h⟩ := ih _ h
      exact ⟨k + 1, by omega, .insert z h⟩

theorem Near.cons (x : α) (hab : Near a b) : Near (x :: a) (x :: b) := by
  intro c
  induction c with
  | nil =>
    intro n h
    cases h with
    | delete _ h =>
      obtain ⟨k, hk, h⟩ := hab _ _ h
      exact ⟨k + 1, by omega, .delete x h⟩
  | cons z c ih =>
    intro n h
    cases h with
    | keep _ h =>
      obtain ⟨k, hk, h⟩ := hab _ _ h
      exact ⟨k, hk, .keep x h⟩
    | substitute _ _ h =>
      obtain ⟨k, hk, h⟩ := hab _ _ h
      exact ⟨k + 1, by omega, .substitute x z h⟩
    | delete _ h =>
      obtain ⟨k, hk, h⟩ := hab _ _ h
      exact ⟨k + 1, by omega, .delete x h⟩
    | insert _ h =>
      obtain ⟨k, hk, h⟩ := ih _ h
      exact ⟨k + 1, by omega, .insert z h⟩

theorem Near.append : ∀ l : List α, Near a b → Near (l ++ a) (l ++ b)
  | [], h => h
  | x :: l, h => (append l h).cons x

theorem Edit.near (h : Edit a b) : Near a b := by
  cases h with
  | insert l r x => exact .append l (near_insert x r)
  | delete l r x => exact .append l fun c n h => ⟨n + 1, le_rfl, .delete x h⟩
  | substitute l r x y => exact .append l (near_substitute x y r)

theorem Edits.aligned (h : Edits n a b) (hbc : Aligned m b c) : ∃ k ≤ n + m, Aligned k a c := by
  induction h generalizing m c with
  | refl => exact ⟨m, by omega, hbc⟩
  | tail _ e ih =>
    obtain ⟨k, hk, hbc⟩ := e.near _ _ hbc
    obtain ⟨l, hl, hac⟩ := ih hbc
    exact ⟨l, by omega, hac⟩

theorem aligned_length : ∀ a : List α, Aligned a.length [] a
  | [] => .nil
  | x :: a => .insert x (aligned_length a)

theorem Aligned.length_le (h : Aligned n a b) : b.length ≤ a.length + n := by
  induction h with
  | nil => rfl
  | _ => simp only [List.length_cons]; omega

theorem exists_aligned_max : ∀ a b : List α, ∃ n ≤ max a.length b.length, Aligned n a b
  | [], b => ⟨b.length, le_max_right _ _, aligned_length b⟩
  | x :: a, [] => ⟨(x :: a).length, le_max_left _ _, (aligned_length (x :: a)).symm⟩
  | x :: a, y :: b => by
    obtain ⟨n, hn, h⟩ := exists_aligned_max a b
    exact ⟨n + 1, by simp only [List.length_cons]; omega, .substitute x y h⟩

section Metric
variable {d : List α → List α → ℕ} (hd : ∀ a b, IsLeast {n | Edits n a b} (d a b))
include hd

theorem symm_of_isLeast (a b : List α) : d a b = d b a :=
  le_antisymm ((hd a b).2 (hd b a).1.symm) ((hd b a).2 (hd a b).1.symm)

theorem eq_zero_of_isLeast (a b : List α) : d a b = 0 ↔ a = b := by
  constructor
  · intro h
    have hedits : Edits (d a b) a b := (hd a b).1
    rw [h] at hedits
    cases hedits
    rfl
  · rintro rfl
    exact Nat.le_zero.mp ((hd a a).2 (.refl a))

theorem triangle_of_isLeast (a b c : List α) : d a c ≤ d a b + d b c := (hd a c).2 ((hd a b).1.trans (hd b c).1)

theorem le_max_of_isLeast (a b : List α) : d a b ≤ max a.length b.length := by
  obtain ⟨n, hn, h⟩ := exists_aligned_max a b
  exact ((hd a b).2 h.edits).trans hn

end Metric

variable [DecidableEq α]

/-- The recursion on the first characters, where equal ones are left as they are. -/
def distance : List α → List α → ℕ
  | [], b => b.length
  | a, [] => a.length
  | x :: a, y :: b =>
    if x = y then distance a b
    else min (min (distance a b + 1) (distance (x :: a) b + 1)) (distance a (y :: b) + 1)
termination_by a b => a.length + b.length

theorem aligned_distance (a b : List α) : Aligned (distance a b) a b := by
  fun_induction distance a b with
  | case1 b => exact aligned_length b
  | case2 a => exact (aligned_length a).symm
  | case3 a y b ih => exact .keep y ih
  | case4 x a y b hne ih1 ih2 ih3 =>
    exact min_rec' (fun k => Aligned k _ _) (min_rec' (fun k => Aligned k _ _) (.substitute x y ih1) (.insert y ih2))
      (.delete x ih3)

theorem distance_le (h : Aligned n a b) : distance a b ≤ n := by
  fun_induction distance a b generalizing n with
  | case1 b => simpa using h.length_le
  | case2 a => simpa using h.symm.length_le
  | case3 a y b ih =>
    cases h with
    | keep _ h => exact ih h
    | substitute _ _ h => exact (ih h).trans (Nat.le_succ _)
    | insert _ h =>
      obtain ⟨k, hk, h⟩ := near_insert y a _ _ h
      exact (ih h).trans hk
    | delete _ h =>
      obtain ⟨k, hk, h⟩ := near_insert y b _ _ h.symm
      exact (ih h.symm).trans hk
  | case4 x a y b hne ih1 ih2 ih3 =>
    cases h with
    | keep _ h => exact absurd rfl hne
    | substitute _ _ h =>
      have hle := ih1 h
      omega
    | insert _ h =>
      have hle := ih2 h
      omega
    | delete _ h =>
      have hle := ih3 h
      omega

theorem isLeast_distance (a b : List α) : IsLeast {n | Edits n a b} (distance a b) := by
  constructor
  · exact (aligned_distance a b).edits
  · intro n h
    obtain ⟨k, hk, h⟩ := h.aligned (Aligned.refl b)
    exact (distance_le h).trans hk

/-- The order of the characters does not matter. -/
theorem isLeast_distance_reverse (a b : List α) : IsLeast {n | Edits n a b} (distance b.reverse a.reverse) := by
  have hedits (n : ℕ) : Edits n a b ↔ Edits n b.reverse a.reverse := by
    constructor
    · exact fun h => (h.map Edit.reverse).symm
    · exact fun h => by simpa using (h.map Edit.reverse).symm
  simp only [hedits]
  exact isLeast_distance _ _

end Soter.EditDistance
