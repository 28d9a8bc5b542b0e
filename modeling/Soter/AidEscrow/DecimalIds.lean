import Mathlib.Data.Nat.Digits.Defs
import Soter.AidEscrow.Merkle

/-! What `parse_u64` reads, and that its buffer and its arithmetic never trap. -/
namespace Soter.AidEscrow
open Soter.Fallible

/-- The subtraction of bytes under `overflow-checks`. -/
def subU8 (a b : UInt8) : Result UInt8 := if b ≤ a then .ok (a - b) else .error .trap

def checkedMul (a b : ℕ) : Option ℕ := if a * b < 2 ^ 64 then some (a * b) else none

def checkedAdd (a b : ℕ) : Option ℕ := if a + b < 2 ^ 64 then some (a + b) else none

/-- The slice `[..len]` of a buffer, which traps beyond its end. -/
def sliceTo (bytes : List UInt8) (len : ℕ) : Result (List UInt8) :=
  if len ≤ bytes.length then .ok (bytes.take len) else .error .trap

def copyIntoSlice (value : Text) (slice : List UInt8) : Result (List UInt8) :=
  if value.length = slice.length then .ok value else .error .trap

def digitLoop : List UInt8 → ℕ → Result (Option ℕ)
  | [], out => .ok (some out)
  | b :: bs, out =>
    if isAsciiDigit b then
      match checkedMul out 10 with
      | none => .ok none
      | some tens => do
        let digit ← subU8 b 48
        match checkedAdd tens digit.toNat with
        | none => .ok none
        | some out => digitLoop bs out
    else .ok none

/-- `parse_u64` with the steps at which it could trap. -/
def parseU64InBuffer (value : Text) : Result (Option ℕ) :=
  let len := value.length
  if len = 0 ∨ 20 < len then .ok none
  else do
    let bytes := List.replicate 20 0
    let slice ← copyIntoSlice value (← sliceTo bytes len)
    digitLoop (← sliceTo (slice ++ bytes.drop len) len) 0

def decimalValue (digits : Text) : ℕ := Nat.ofDigits 10 (digits.reverse.map fun b => b.toNat - 48)

variable {b : UInt8} {bs s : Text}

theorem digitLoop_eq : ∀ (bs : List UInt8) (out : ℕ), digitLoop bs out = .ok (parseDigits bs out)
  | [], out => rfl
  | b :: bs, out => by
    rw [digitLoop, parseDigits]
    by_cases hb : isAsciiDigit b = true
    · have hle : 48 ≤ b := of_decide_eq_true (Bool.and_eq_true_iff.mp hb).1
      by_cases hmul : out * 10 < 2 ^ 64
      · simp only [if_pos hb, if_pos hmul, checkedMul, subU8, if_pos hle, ok_bind, checkedAdd]
        by_cases hadd : out * 10 + (b - 48).toNat < 2 ^ 64
        · simp only [if_pos hadd, digitLoop_eq bs]
        · simp only [if_neg hadd]
      · simp only [if_pos hb, if_neg hmul, checkedMul]
    · simp only [if_neg hb]

theorem parseU64InBuffer_eq (s : Text) : parseU64InBuffer s = .ok (parseU64 s) := by
  rw [parseU64InBuffer, parseU64]
  split
  · rfl
  · rename_i hlen
    have hfits : s.length ≤ 20 := by omega
    simp [sliceTo, copyIntoSlice, hfits, digitLoop_eq]

theorem decimalValue_cons : decimalValue (b :: bs) = (b.toNat - 48) * 10 ^ bs.length + decimalValue bs := by
  rw [decimalValue, List.reverse_cons, List.map_append, Nat.ofDigits_append]
  simp [decimalValue, Nat.mul_comm, Nat.add_comm]

theorem parseDigits_eq_some {v : ℕ} : ∀ {bs : List UInt8} {out : ℕ}, out < 2 ^ 64 → (parseDigits bs out = some v ↔
      (∀ b ∈ bs, isAsciiDigit b = true) ∧ out * 10 ^ bs.length + decimalValue bs = v ∧ v < 2 ^ 64)
  | [], out, hout => by
    simp only [parseDigits, decimalValue, List.reverse_nil, List.map_nil, Nat.ofDigits_nil, List.length_nil, pow_zero]
    constructor
    · intro h
      cases h
      exact ⟨nofun, by omega, hout⟩
    · intro h
      exact congrArg some (by omega)
  | b :: bs, out, hout => by
    rw [parseDigits, List.forall_mem_cons, decimalValue_cons, List.length_cons, pow_succ 10]
    by_cases hb : isAsciiDigit b = true
    · have hle : 48 ≤ b := of_decide_eq_true (Bool.and_eq_true_iff.mp hb).1
      have hdigit : (b - 48).toNat = b.toNat - 48 := UInt8.toNat_sub_of_le _ _ hle
      have hpos : 0 < 10 ^ bs.length := Nat.pow_pos (by decide)
      have hvalue : (out * 10 + (b.toNat - 48)) * 10 ^ bs.length + decimalValue bs =
          out * (10 ^ bs.length * 10) + ((b.toNat - 48) * 10 ^ bs.length + decimalValue bs) := by ring
      rw [if_pos hb, hdigit, ← hvalue]
      by_cases hadd : out * 10 + (b.toNat - 48) < 2 ^ 64
      · rw [if_pos (by omega), if_pos hadd, parseDigits_eq_some hadd]
        simp only [hb, true_and]
      · -- what the loop has read so far only grows
        have hgrows := Nat.le_mul_of_pos_right (out * 10 + (b.toNat - 48)) hpos
        rw [if_neg hadd, ite_self]
        simp only [reduceCtorEq, false_iff]
        omega
    · rw [if_neg hb]
      simp only [hb, reduceCtorEq, false_and]

theorem parseU64_exact (s : Text) : parseU64InBuffer s = .ok (parseU64 s) ∧
    ∀ v, parseU64 s = some v ↔
      (1 ≤ s.length ∧ s.length ≤ 20 ∧ ∀ b ∈ s, isAsciiDigit b = true) ∧ decimalValue s = v ∧ v ≤ 2 ^ 64 - 1 := by
  constructor
  · exact parseU64InBuffer_eq s
  · intro v
    have hmax : v ≤ 2 ^ 64 - 1 ↔ v < 2 ^ 64 := by omega
    rw [parseU64, hmax]
    split
    · rename_i hlen
      simp only [reduceCtorEq, false_iff]
      omega
    · rename_i hlen
      rw [parseDigits_eq_some (by decide), Nat.zero_mul, Nat.zero_add]
      constructor
      · intro h
        exact ⟨⟨by omega, by omega, h.1⟩, h.2⟩
      · intro h
        exact ⟨h.1.2.2, h.2⟩

end Soter.AidEscrow
