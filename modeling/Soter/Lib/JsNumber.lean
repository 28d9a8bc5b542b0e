import Mathlib.Data.List.TakeWhile
import Mathlib.Tactic.Ring

/-! Integral numbers as JavaScript keeps them: rounding to a number of bits, the numerals of a string and
what `parseInt` makes of them. -/
namespace Soter.JsNumbers

section Rounding
variable {bits n : ℕ}

/-- The quotient rounded to the nearest integer, and to the even one of two. -/
def divRound (n d : ℕ) : ℕ :=
  if 2 * (n % d) < d ∨ 2 * (n % d) = d ∧ n / d % 2 = 0 then n / d else n / d + 1

/-- How many of the binary digits come after the first `bits`. -/
def excess (bits n : ℕ) : ℕ := n.log2 + 1 - bits

/-- The nearest number with `bits` significant binary digits. -/
def round (bits n : ℕ) : ℕ := divRound n (2 ^ excess bits n) * 2 ^ excess bits n

def Representable (bits n : ℕ) : Prop := ∃ m k, m < 2 ^ bits ∧ n = m * 2 ^ k

theorem divRound_le (n d : ℕ) : divRound n d ≤ n / d + 1 := by
  rw [divRound]
  split <;> omega

theorem divRound_of_dvd {d : ℕ} (hd : 0 < d) (h : d ∣ n) : divRound n d = n / d := by
  have hmod : n % d = 0 := Nat.mod_eq_zero_of_dvd h
  rw [divRound, if_pos (Or.inl (by omega))]

theorem div_two_pow_excess_lt (bits n : ℕ) : n / 2 ^ excess bits n < 2 ^ bits := by
  rw [Nat.div_lt_iff_lt_mul (Nat.two_pow_pos _), ← Nat.pow_add]
  calc
    n < 2 ^ (n.log2 + 1) := Nat.lt_log2_self
    _ ≤ 2 ^ (bits + excess bits n) := by
      apply Nat.pow_le_pow_right (by decide)
      rw [excess]
      omega

theorem round_representable (hbits : 0 < bits) (n : ℕ) : Representable bits (round bits n) := by
  have hq : divRound n (2 ^ excess bits n) ≤ 2 ^ bits := by
    have hle := divRound_le n (2 ^ excess bits n)
    have hlt := div_two_pow_excess_lt bits n
    omega
  rcases Nat.lt_or_eq_of_le hq with hlt | heq
  · exact ⟨_, _, hlt, rfl⟩
  · -- rounded up to a power of two
    refine ⟨1, bits + excess bits n, Nat.one_lt_two_pow hbits.ne', ?_⟩
    rw [round, heq, Nat.pow_add, one_mul]

theorem two_pow_excess_dvd (h : Representable bits n) : 2 ^ excess bits n ∣ n := by
  obtain ⟨m, k, hm, rfl⟩ := h
  rcases Nat.eq_zero_or_pos (m * 2 ^ k) with hzero | hpos
  · rw [hzero]
    exact dvd_zero _
  · have hlog : (m * 2 ^ k).log2 < bits + k := by
      apply (Nat.log2_lt hpos.ne').mpr
      rw [Nat.pow_add]
      exact (Nat.mul_lt_mul_right (Nat.two_pow_pos k)).mpr hm
    have hexcess : excess bits (m * 2 ^ k) ≤ k := by
      rw [excess]
      omega
    exact (Nat.pow_dvd_pow 2 hexcess).trans (Nat.dvd_mul_left (2 ^ k) m)

theorem round_eq_self_iff (hbits : 0 < bits) : round bits n = n ↔ Representable bits n := by
  constructor
  · intro h
    rw [← h]
    exact round_representable hbits n
  · intro h
    have hdvd := two_pow_excess_dvd h
    rw [round, divRound_of_dvd (Nat.two_pow_pos _) hdvd, Nat.div_mul_cancel hdvd]

end Rounding
section Parsing

/-- An integral number, or no number. -/
inductive JsNumber
  | nan
  | int (z : ℤ)
  deriving DecidableEq

def numberBits : ℕ := 53

def isSpace (c : Char) : Bool :=
  c.toNat ∈ [0x9, 0xA, 0xB, 0xC, 0xD, 0x20, 0xA0, 0x1680, 0x2028, 0x2029, 0x202F, 0x205F, 0x3000, 0xFEFF] ||
    (0x2000 ≤ c.toNat && c.toNat ≤ 0x200A)

/-- `s.trim()`, on the characters. -/
def trim (text : List Char) : List Char := ((text.dropWhile isSpace).reverse.dropWhile isSpace).reverse

def splitSign : List Char → ℤ × List Char
  | '-' :: rest => (-1, rest)
  | '+' :: rest => (1, rest)
  | cs => (1, cs)

/-- `parseInt(s, 10)`: the digits up to the first other character, if there are any. -/
def parseInt (s : String) : JsNumber :=
  let signed := splitSign (s.toList.dropWhile isSpace)
  let digits := signed.2.takeWhile Char.isDigit
  if digits = [] then .nan
  else .int (signed.1 * round numberBits (Nat.ofDigitChars 10 digits 0))

/-- The string is a decimal numeral of `v`: digits and nothing else. -/
structure Denotes (s : String) (v : ℕ) : Prop where
  nonempty : s.toList ≠ []
  digits : s.toList.all Char.isDigit = true
  value : Nat.ofDigitChars 10 s.toList 0 = v

variable {s : String} {v : ℕ} {c : Char}

theorem isSpace_of_isDigit (h : c.isDigit = true) : isSpace c = false := by
  simp only [Char.isDigit, Bool.and_eq_true, decide_eq_true_eq, ge_iff_le, UInt32.le_iff_toNat_le] at h
  have hlow : 48 ≤ c.toNat := h.1
  have hhigh : c.toNat ≤ 57 := h.2
  simp only [isSpace, List.mem_cons, List.not_mem_nil, or_false, Bool.or_eq_false_iff,
    Bool.and_eq_false_iff, decide_eq_false_iff_not]
  omega

theorem splitSign_of_isDigit (h : c.isDigit = true) (rest : List Char) :
    splitSign (c :: rest) = (1, c :: rest) := by
  unfold splitSign
  split
  · rename_i heq
    cases heq
    cases h
  · rename_i heq
    cases heq
    cases h
  · rfl

theorem parseInt_of_denotes (h : Denotes s v) : parseInt s = .int (round numberBits v) := by
  have hvalue := h.value
  have hall := h.digits
  have hne := h.nonempty
  rw [parseInt]
  cases hs : s.toList with
  | nil => exact absurd hs hne
  | cons c rest =>
    rw [hs] at hall hvalue
    have hc : c.isDigit = true := by
      rw [List.all_cons, Bool.and_eq_true] at hall
      exact hall.1
    have htake : (c :: rest).takeWhile Char.isDigit = c :: rest :=
      List.takeWhile_eq_self_iff.mpr (List.all_eq_true.mp hall)
    rw [List.dropWhile_cons_of_neg (by rw [isSpace_of_isDigit hc]; decide)]
    simp only [splitSign_of_isDigit hc, htake, reduceCtorEq, if_false, hvalue, one_mul]

end Parsing

/-- The value of a digit in base `base`. -/
def digitValue (base : ℕ) (c : Char) : Option ℕ :=
  let v :=
    if c.isDigit then c.toNat - '0'.toNat
    else if 'a' ≤ c ∧ c ≤ 'f' then c.toNat - 'a'.toNat + 10
    else if 'A' ≤ c ∧ c ≤ 'F' then c.toNat - 'A'.toNat + 10
    else base
  if v < base then some v else none

def numeral (base : ℕ) (cs : List Char) : Option ℕ :=
  if cs = [] then none
  else cs.foldlM (fun acc c => (digitValue base c).map (acc * base + ·)) 0

/-- `BigInt(s)`, which reads no other text than integers between spaces, and reads nothing as zero. -/
def bigInt (s : String) : Option ℤ :=
  let cs := ((s.toList.dropWhile isSpace).reverse.dropWhile isSpace).reverse
  match cs with
  | [] => some 0
  | '0' :: 'x' :: rest | '0' :: 'X' :: rest => (numeral 16 rest).map Int.ofNat
  | '0' :: 'o' :: rest | '0' :: 'O' :: rest => (numeral 8 rest).map Int.ofNat
  | '0' :: 'b' :: rest | '0' :: 'B' :: rest => (numeral 2 rest).map Int.ofNat
  | _ => (numeral 10 (splitSign cs).2).map fun n => (splitSign cs).1 * n

theorem numeral_of_digits {cs : List Char} (hne : cs ≠ []) (hdigits : cs.all Char.isDigit = true) :
    numeral 10 cs = some (Nat.ofDigitChars 10 cs 0) := by
  rw [numeral, if_neg hne]
  generalize 0 = acc
  clear hne
  induction cs generalizing acc with
  | nil => rfl
  | cons c cs ih =>
    rw [List.all_cons, Bool.and_eq_true] at hdigits
    have hbounds := hdigits.1
    simp only [Char.isDigit, Bool.and_eq_true, decide_eq_true_eq, ge_iff_le, UInt32.le_iff_toNat_le] at hbounds
    have hhigh : c.toNat ≤ 57 := hbounds.2
    have hvalue : digitValue 10 c = some (c.toNat - '0'.toNat) := by
      have hlt : c.toNat - '0'.toNat < 10 := by
        change c.toNat - 48 < 10
        omega
      rw [digitValue, if_pos hdigits.1, if_pos hlt]
    rw [List.foldlM_cons, hvalue, Nat.ofDigitChars_cons, ← ih hdigits.2, Nat.mul_comm acc]
    rfl

theorem bigInt_of_denotes {s : String} {v : ℕ} (h : Denotes s v) : bigInt s = some (v : ℤ) := by
  have hplain : ∀ {cs : List Char}, cs.all Char.isDigit = true → cs.dropWhile isSpace = cs := by
    intro cs hcs
    cases cs with
    | nil => rfl
    | cons c cs =>
      rw [List.all_cons, Bool.and_eq_true] at hcs
      exact List.dropWhile_cons_of_neg (by rw [isSpace_of_isDigit hcs.1]; decide)
  have htrim : ((s.toList.dropWhile isSpace).reverse.dropWhile isSpace).reverse = s.toList := by
    rw [hplain h.digits, hplain (by rw [List.all_reverse]; exact h.digits), List.reverse_reverse]
  have hnumeral := numeral_of_digits h.nonempty h.digits
  have hdigits := h.digits
  have hsign : splitSign s.toList = (1, s.toList) := by
    cases hs : s.toList with
    | nil => exact absurd hs h.nonempty
    | cons c rest =>
      rw [hs, List.all_cons, Bool.and_eq_true] at hdigits
      exact splitSign_of_isDigit hdigits.1 rest
  unfold bigInt
  simp only [htrim]
  split
  · rename_i hs
    exact absurd hs h.nonempty
  -- a digit is no letter of a radix
  iterate 6
    · rename_i hs
      rw [hs] at hdigits
      simp [Char.isDigit] at hdigits
  · rw [hsign, hnumeral, h.value]
    exact congrArg some (one_mul _)

theorem denotes_toString (v : ℕ) : Denotes (toString v) v where
  nonempty := by
    rw [Nat.toString_eq_repr, Nat.toList_repr]
    exact Nat.toDigits_ne_nil
  digits := by
    rw [Nat.toString_eq_repr, Nat.toList_repr]
    exact List.all_eq_true.mpr fun c hc => Nat.isDigit_of_mem_toDigits (by decide) le_rfl hc
  value := by rw [Nat.toString_eq_repr, Nat.toList_repr, Nat.ofDigitChars_ten_toDigits]

end Soter.JsNumbers
