import Mathlib.Order.Lattice

/-! The numbers below a bound, cut into windows of one length. -/
namespace Soter.Windows

variable {α : Type*}

/-- The numbers from `start` on, `size` of them, as far as they lie below `bound`. -/
def window (size bound start : ℕ) : List ℕ := List.range' start (min (start + size) bound - start)

theorem length_window_le (size bound start : ℕ) : (window size bound start).length ≤ size := by
  rw [window, List.length_range']
  omega

theorem window_eq_nil {size bound start : ℕ} (h : bound ≤ start) : window size bound start = [] := by
  have hlength : min (start + size) bound - start = 0 := by omega
  rw [window, hlength]
  rfl

theorem flatMap_window (size bound : ℕ) : ∀ pages : ℕ,
    (List.range pages).flatMap (fun k => window size bound (k * size)) = List.range (min (pages * size) bound)
  | 0 => by
    rw [Nat.zero_mul, Nat.zero_min]
    rfl
  | pages + 1 => by
    have hnext : (pages + 1) * size = pages * size + size := Nat.succ_mul pages size
    rw [List.range_succ, List.flatMap_append, flatMap_window size bound pages, List.flatMap_singleton, window, hnext]
    by_cases hleft : pages * size ≤ bound
    · have hsplit : min (pages * size + size) bound = pages * size + (min (pages * size + size) bound - pages * size) := by
        omega
      rw [Nat.min_eq_left hleft]
      conv_rhs => rw [hsplit]
      rw [List.range_eq_range', List.range_eq_range', ← List.range'_append_1, Nat.zero_add]
    · have hnone : min (pages * size + size) bound - pages * size = 0 := by omega
      have hsame : min (pages * size + size) bound = min (pages * size) bound := by omega
      rw [hnone, hsame]
      exact List.append_nil _

theorem flatMap_window_filter {size bound pages : ℕ} (P : ℕ → Bool) (h : bound ≤ pages * size) :
    (List.range pages).flatMap (fun k => (window size bound (k * size)).filter P) = (List.range bound).filter P := by
  have hall := congrArg (List.filter P) (flatMap_window size bound pages)
  rw [Nat.min_eq_right h, List.filter_flatMap] at hall
  exact hall

end Soter.Windows
