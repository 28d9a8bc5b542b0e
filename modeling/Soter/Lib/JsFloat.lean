import Mathlib
import Soter.Lib.JsNumber

/-! What `parseFloat` reads at the front of a string, as the decimal that stands there. -/
namespace Soter.JsNumbers

open List

/-- A number, before it is rounded: `decimal sign m e` is `sign * m * 10 ^ e`. -/
inductive JsFloat
  | nan
  | infinity (sign : ℤ)
  | decimal (sign : ℤ) (mantissa : ℕ) (exponent : ℤ)
  deriving DecidableEq

/-- The digits after the point, if there is one, and what follows them. -/
def splitFraction : List Char → List Char × List Char
  | '.' :: rest => (rest.takeWhile Char.isDigit, rest.dropWhile Char.isDigit)
  | cs => ([], cs)

/-- What an exponent says. An `e` without digits is not one. -/
def readExponent : List Char → ℤ
  | [] => 0
  | c :: rest =>
    if c.toLower = 'e' then (splitSign rest).1 * Nat.ofDigitChars 10 ((splitSign rest).2.takeWhile Char.isDigit) 0
    else 0

/-- `parseFloat(s)`. -/
def parseFloat (s : List Char) : JsFloat :=
  let signed := splitSign (s.dropWhile isSpace)
  if [ 'I', 'n', 'f', 'i', 'n', 'i', 't', 'y'].isPrefixOf signed.2 then .infinity signed.1
  else
    let whole := signed.2.takeWhile Char.isDigit
    let fraction := splitFraction (signed.2.dropWhile Char.isDigit)
    if whole ++ fraction.1 = [] then .nan
    else .decimal signed.1 (Nat.ofDigitChars 10 (whole ++ fraction.1) 0) (readExponent fraction.2 - fraction.1.length)

/-- The half of the least positive number is a power of two, and rounds to zero. -/
def underflowBits : ℕ := 1075

/-- `!isNaN(x) && x > 0`, of the number that the decimal rounds to. -/
def JsFloat.IsPositive : JsFloat → Prop
  | .nan => False
  | .infinity sign => 0 < sign
  | .decimal sign m e => 0 < sign ∧ 10 ^ (-e).toNat < m * 10 ^ e.toNat * 2 ^ underflowBits

instance (x : JsFloat) : Decidable x.IsPositive :=
  match x with
  | .nan => .isFalse id
  | .infinity sign => inferInstanceAs (Decidable (0 < sign))
  | .decimal sign m e =>
    inferInstanceAs (Decidable (0 < sign ∧ 10 ^ (-e).toNat < m * 10 ^ e.toNat * 2 ^ underflowBits))

theorem isPositive_natural {m : ℕ} (hm : 0 < m) : (JsFloat.decimal 1 m 0).IsPositive := by
  refine ⟨one_pos, ?_⟩
  rw [neg_zero, Int.toNat_zero, pow_zero, mul_one]
  exact lt_of_lt_of_le (Nat.one_lt_two_pow (by decide)) (Nat.le_mul_of_pos_left _ hm)

section Rounding
variable {n d num den : ℕ} {k : ℤ}

/-- A number as the language keeps it; the two zeros are one. -/
inductive Double
  | nan
  | infinity (sign : ℤ)
  | finite (value : ℚ)
  deriving DecidableEq

/-- The place of the first binary digit of `num / den`. -/
def firstPlace (num den : ℕ) : ℤ :=
  let place : ℤ := num.log2 - den.log2
  if num * 2 ^ (-place).toNat < den * 2 ^ place.toNat then place - 1 else place

def lastPlace (num den : ℕ) : ℤ := max (1 - underflowBits) (firstPlace num den - 52)

/-- `num / den` in units of the last place, to the nearest. -/
def significand (num den : ℕ) : ℕ :=
  divRound (num * 2 ^ (-lastPlace num den).toNat) (den * 2 ^ (lastPlace num den).toNat)

def nearest (num den : ℕ) : ℚ := significand num den * 2 ^ lastPlace num den

/-- The number that a decimal rounds to. -/
def JsFloat.toDouble : JsFloat → Double
  | .nan => .nan
  | .infinity sign => .infinity sign
  | .decimal sign m e =>
    let value := nearest (m * 10 ^ e.toNat) (10 ^ (-e).toNat)
    if 2 ^ 1024 ≤ value then .infinity sign else .finite (sign * value)

theorem divRound_pos (hd : 0 < d) : 0 < divRound n d ↔ d < 2 * n := by
  rw [divRound]
  rcases Nat.lt_or_ge n d with hlt | hge
  · rw [Nat.div_eq_of_lt hlt, Nat.mod_eq_of_lt hlt]
    split <;> omega
  · have hquotient : 0 < n / d := Nat.div_pos hge hd
    split <;> omega

theorem two_zpow_mul (k : ℤ) : (2 : ℚ) ^ k * 2 ^ (-k).toNat = 2 ^ k.toNat := by
  rw [← zpow_natCast, ← zpow_natCast, ← zpow_add₀ two_ne_zero]
  congr 1
  omega

theorem mul_pow_lt_iff (k : ℤ) (num den : ℕ) :
    den * 2 ^ k.toNat < num * 2 ^ (-k).toNat ↔ (den : ℚ) * 2 ^ k < num := by
  have hpos : (0 : ℚ) < 2 ^ (-k).toNat := pow_pos two_pos _
  rw [← mul_lt_mul_iff_of_pos_right hpos, mul_assoc, two_zpow_mul]
  exact_mod_cast Iff.rfl

theorem mul_pow_le_iff (k : ℤ) (num den : ℕ) :
    den * 2 ^ k.toNat ≤ num * 2 ^ (-k).toNat ↔ (den : ℚ) * 2 ^ k ≤ num := by
  have hpos : (0 : ℚ) < 2 ^ (-k).toNat := pow_pos two_pos _
  rw [← mul_le_mul_iff_of_pos_right hpos, mul_assoc, two_zpow_mul]
  exact_mod_cast Iff.rfl

theorem firstPlace_le (hnum : num ≠ 0) : (den : ℚ) * 2 ^ firstPlace num den ≤ num := by
  rw [firstPlace]
  split
  · have hnum' : (2 : ℚ) ^ (num.log2 : ℤ) ≤ num := by
      rw [zpow_natCast]
      exact_mod_cast Nat.log2_self_le hnum
    have hden' : (den : ℚ) ≤ 2 ^ ((den.log2 : ℤ) + 1) := by
      have hlt : den < 2 ^ (den.log2 + 1) := Nat.lt_log2_self
      rw [← Nat.cast_one, ← Nat.cast_add, zpow_natCast]
      exact_mod_cast hlt.le
    calc (den : ℚ) * 2 ^ ((num.log2 : ℤ) - den.log2 - 1)
      _ ≤ 2 ^ ((den.log2 : ℤ) + 1) * 2 ^ ((num.log2 : ℤ) - den.log2 - 1) :=
        mul_le_mul_of_nonneg_right hden' (zpow_nonneg zero_le_two _)
      _ = 2 ^ (num.log2 : ℤ) := by
        rw [← zpow_add₀ two_ne_zero]
        congr 1
        ring
      _ ≤ num := hnum'
  · rename_i hplace
    exact (mul_pow_le_iff _ num den).mp (not_lt.mp hplace)

theorem significand_pos (hden : den ≠ 0) :
    0 < significand num den ↔ (den : ℚ) * 2 ^ lastPlace num den < 2 * num := by
  have hunit : 0 < den * 2 ^ (lastPlace num den).toNat := Nat.mul_pos (Nat.pos_of_ne_zero hden) (Nat.two_pow_pos _)
  rw [significand, divRound_pos hunit, ← mul_assoc, mul_pow_lt_iff]
  norm_cast

theorem nearest_nonneg (num den : ℕ) : 0 ≤ nearest num den :=
  mul_nonneg (Nat.cast_nonneg _) (zpow_nonneg zero_le_two _)

/-- What is more than half of the least number is not rounded to zero. -/
theorem nearest_pos (hden : den ≠ 0) : 0 < nearest num den ↔ den < num * 2 ^ underflowBits := by
  have hden' : (0 : ℚ) < den := Nat.cast_pos.mpr (Nat.pos_of_ne_zero hden)
  have hunit : (0 : ℚ) < 2 ^ lastPlace num den := zpow_pos two_pos _
  have hbits : den < num * 2 ^ underflowBits ↔ (den : ℚ) * 2 ^ (1 - underflowBits : ℤ) < 2 * num := by
    have h := mul_pow_lt_iff (-underflowBits) num den
    have hneg : (-(underflowBits : ℤ)).toNat = 0 := rfl
    have hpos : (-(-(underflowBits : ℤ))).toNat = underflowBits := rfl
    rw [hneg, hpos, pow_zero, mul_one] at h
    rw [h, sub_eq_add_neg, zpow_add₀ two_ne_zero, zpow_one]
    constructor <;> intro hlt <;> linarith
  have hvalue : 0 < nearest num den ↔ 0 < significand num den := by
    rw [nearest, mul_pos_iff_of_pos_right hunit, Nat.cast_pos]
  rw [hvalue, significand_pos hden, hbits]
  constructor
  · intro h
    have hplace : (2 : ℚ) ^ (1 - underflowBits : ℤ) ≤ 2 ^ lastPlace num den :=
      zpow_le_zpow_right₀ one_le_two (le_max_left _ _)
    exact (mul_le_mul_of_nonneg_left hplace hden'.le).trans_lt h
  · intro h
    have hnum : num ≠ 0 := by
      rintro rfl
      have hsmall := mul_pos hden' (zpow_pos (two_pos : (0 : ℚ) < 2) (1 - underflowBits))
      rw [Nat.cast_zero, mul_zero] at h
      exact absurd h hsmall.not_gt
    rcases max_choice (1 - (underflowBits : ℤ)) (firstPlace num den - 52) with hmax | hmax
    · rw [lastPlace, hmax]
      exact h
    · -- a number of normal size is far above half of its last place
      have hnum' : (0 : ℚ) < num := Nat.cast_pos.mpr (Nat.pos_of_ne_zero hnum)
      rw [lastPlace, hmax]
      calc (den : ℚ) * 2 ^ (firstPlace num den - 52)
        _ ≤ den * 2 ^ firstPlace num den :=
          mul_le_mul_of_nonneg_left (zpow_le_zpow_right₀ one_le_two (by omega)) hden'.le
        _ ≤ num := firstPlace_le hnum
        _ < 2 * num := by linarith

def Double.IsPositive : Double → Prop
  | .nan => False
  | .infinity sign => 0 < sign
  | .finite value => 0 < value

theorem isPositive_toDouble (x : JsFloat) : x.toDouble.IsPositive ↔ x.IsPositive := by
  cases x with
  | nan | infinity sign => exact Iff.rfl
  | decimal sign m e =>
    have hden : 10 ^ (-e).toNat ≠ 0 := (Nat.pow_pos (by decide)).ne'
    have hpos : 0 < nearest (m * 10 ^ e.toNat) (10 ^ (-e).toNat) ↔ _ := nearest_pos hden
    rw [JsFloat.toDouble, JsFloat.IsPositive]
    split
    · rename_i hlarge
      rw [Double.IsPositive, iff_self_and, ← hpos]
      intro _
      exact lt_of_lt_of_le (by positivity) hlarge
    · rw [Double.IsPositive, ← hpos]
      constructor
      · intro h
        have hvalue := nearest_nonneg (m * 10 ^ e.toNat) (10 ^ (-e).toNat)
        rcases pos_and_pos_or_neg_and_neg_of_mul_pos h with hboth | hboth
        · exact ⟨Int.cast_pos.mp hboth.1, hboth.2⟩
        · exact absurd hboth.2 hvalue.not_gt
      · intro h
        exact mul_pos (Int.cast_pos.mpr h.1) h.2

end Rounding

/-- The power of ten of a numeral. -/
structure Power where
  mark : Char
  sign : List Char
  digits : List Char
  isMark : mark.toLower = 'e'
  isSign : sign ∈ [[], ['+'], ['-']]
  isDigits : ∀ c ∈ digits, c.isDigit = true
  nonempty : digits ≠ []

/-- A decimal numeral: a sign, digits that may have a point among them, and a power of ten. -/
structure Numeral where
  sign : List Char
  whole : List Char
  fraction : Option (List Char)
  power : Option Power
  isSign : sign ∈ [[], ['+'], ['-']]
  isWhole : ∀ c ∈ whole, c.isDigit = true
  isFraction : ∀ digits ∈ fraction, ∀ c ∈ digits, c.isDigit = true
  nonempty : whole ++ fraction.getD [] ≠ []

def signOf (sign : List Char) : ℤ := if sign = ['-'] then -1 else 1

def Power.text (p : Power) : List Char := p.mark :: (p.sign ++ p.digits)

def Power.value (p : Power) : ℤ := signOf p.sign * Nat.ofDigitChars 10 p.digits 0

namespace Numeral
variable (n : Numeral)

def tail : List Char := (n.fraction.elim [] fun digits => '.' :: digits) ++ n.power.elim [] Power.text

def body : List Char := n.whole ++ n.tail

def text : List Char := n.sign ++ n.body

def decimal : JsFloat :=
  .decimal (signOf n.sign) (Nat.ofDigitChars 10 (n.whole ++ n.fraction.getD []) 0)
    (n.power.elim 0 Power.value - (n.fraction.getD []).length)

end Numeral

/-- What follows an exponent. -/
def afterExponent : List Char → List Char
  | [] => []
  | c :: rest =>
    if c.toLower = 'e' ∧ (splitSign rest).2.takeWhile Char.isDigit ≠ [] then
      (splitSign rest).2.dropWhile Char.isDigit
    else c :: rest

/-- What `parseFloat` leaves unread after a decimal. -/
def afterNumeral (s : List Char) : List Char :=
  afterExponent (splitFraction ((splitSign (s.dropWhile isSpace)).2.dropWhile Char.isDigit)).2

section Read
variable {n : Numeral} {p : Power} {sign digits rest s : List Char} {c : Char}

theorem takeWhile_digits (rest : List Char) (hdigits : ∀ c ∈ digits, c.isDigit = true) (hrest : ∀ c ∈ rest.head?, c.isDigit = false) :
    (digits ++ rest).takeWhile Char.isDigit = digits ∧ (digits ++ rest).dropWhile Char.isDigit = rest := by
  rw [takeWhile_append_of_pos hdigits, dropWhile_append_of_pos hdigits]
  cases rest with
  | nil => exact ⟨append_nil _, rfl⟩
  | cons c rest =>
    have hc : ¬ c.isDigit = true := by
      rw [hrest c rfl]
      decide
    rw [takeWhile_cons_of_neg hc, dropWhile_cons_of_neg hc]
    exact ⟨append_nil _, rfl⟩

theorem splitSign_append (hsign : sign ∈ [[], ['+'], ['-']]) (hrest : ∀ c ∈ rest.head?, c ≠ '+' ∧ c ≠ '-') :
    splitSign (sign ++ rest) = (signOf sign, rest) := by
  rcases mem_cons.mp hsign with rfl | hsign
  · cases rest with
    | nil => rfl
    | cons c rest =>
      obtain ⟨hplus, hminus⟩ := hrest c rfl
      rw [nil_append, splitSign]
      · rfl
      · intro _ heq
        exact hminus (cons.inj heq).1
      · intro _ heq
        exact hplus (cons.inj heq).1
  · rcases mem_cons.mp hsign with rfl | hsign
    · rfl
    · rw [mem_singleton.mp hsign]
      rfl

theorem digit_ne_sign (hc : c.isDigit = true) : c ≠ '+' ∧ c ≠ '-' := by
  constructor <;> rintro rfl <;> exact absurd hc (by decide)

theorem head_digits (rest : List Char) (hdigits : ∀ c ∈ digits, c.isDigit = true) (hnonempty : digits ≠ []) :
    ∀ c ∈ (digits ++ rest).head?, c.isDigit = true := by
  intro c hc
  cases digits with
  | nil => exact absurd rfl hnonempty
  | cons first digits =>
    cases hc
    exact hdigits _ mem_cons_self

theorem splitSign_power (p : Power) : splitSign (p.sign ++ p.digits) = (signOf p.sign, p.digits) := by
  apply splitSign_append p.isSign
  intro c hc
  have hdigit := head_digits [] p.isDigits p.nonempty
  rw [append_nil] at hdigit
  exact digit_ne_sign (hdigit c hc)

theorem digits_self (hdigits : ∀ c ∈ digits, c.isDigit = true) :
    digits.takeWhile Char.isDigit = digits ∧ digits.dropWhile Char.isDigit = [] := by
  have hall := takeWhile_digits [] hdigits (by intro c hc; cases hc)
  rw [append_nil] at hall
  exact hall

theorem readExponent_power (power : Option Power) : readExponent (power.elim [] Power.text) = power.elim 0 Power.value ∧
      afterExponent (power.elim [] Power.text) = [] := by
  cases power with
  | none => exact ⟨rfl, rfl⟩
  | some p =>
    obtain ⟨htake, hdrop⟩ := digits_self p.isDigits
    have hread : p.mark.toLower = 'e' ∧ (splitSign (p.sign ++ p.digits)).2.takeWhile Char.isDigit ≠ [] := by
      rw [splitSign_power]
      exact ⟨p.isMark, htake.symm ▸ p.nonempty⟩
    constructor
    · rw [Option.elim_some, Power.text, readExponent, if_pos p.isMark, splitSign_power, htake]
      rfl
    · rw [Option.elim_some, Power.text, afterExponent, if_pos hread, splitSign_power, hdrop]

theorem head_power (power : Option Power) : ∀ c ∈ (power.elim [] Power.text).head?, c.toLower = 'e' := by
  intro c hc
  cases power with
  | none => cases hc
  | some p =>
    cases hc
    exact p.isMark

theorem head_tail (n : Numeral) : ∀ c ∈ n.tail.head?, c = '.' ∨ c.toLower = 'e' := by
  intro c hc
  rw [Numeral.tail] at hc
  cases hfraction : n.fraction with
  | none =>
    rw [hfraction] at hc
    exact .inr (head_power n.power c hc)
  | some digits =>
    rw [hfraction] at hc
    cases hc
    exact .inl rfl

theorem not_digit_of_mark (h : c = '.' ∨ c.toLower = 'e') : c.isDigit = false := by
  by_contra hdigit
  rw [Bool.not_eq_false] at hdigit
  have hrange : 48 ≤ c.toNat ∧ c.toNat ≤ 57 := by
    simp only [Char.isDigit, Bool.and_eq_true, decide_eq_true_eq, ge_iff_le, UInt32.le_iff_toNat_le] at hdigit
    exact hdigit
  rcases h with rfl | h
  · exact absurd hdigit (by decide)
  · have hlower : c.toLower = c := by
      rw [Char.toLower, dif_neg]
      rintro ⟨hupper, -⟩
      have hupper' : 65 ≤ c.toNat := hupper
      omega
    rw [hlower] at h
    subst h
    exact absurd hdigit (by decide)

theorem splitFraction_tail (n : Numeral) :
    splitFraction n.tail = (n.fraction.getD [], n.power.elim [] Power.text) := by
  rw [Numeral.tail]
  cases hfraction : n.fraction with
  | none =>
    rw [Option.elim_none, nil_append, Option.getD_none]
    have hhead := head_power n.power
    cases hpower : n.power.elim [] Power.text with
    | nil => rfl
    | cons c rest =>
      rw [hpower] at hhead
      rw [splitFraction]
      intro _ heq
      have hmark := hhead c rfl
      rw [(cons.inj heq).1] at hmark
      exact absurd hmark (by decide)
  | some digits =>
    have hmarks : ∀ c ∈ (n.power.elim [] Power.text).head?, c.isDigit = false := fun c hc =>
      not_digit_of_mark (.inr (head_power n.power c hc))
    obtain ⟨htake, hdrop⟩ := takeWhile_digits _ (n.isFraction digits hfraction) hmarks
    rw [Option.elim_some, cons_append, splitFraction, htake, hdrop, Option.getD_some]

theorem head_body (n : Numeral) : ∀ c ∈ n.body.head?, c.isDigit = true ∨ c = '.' := by
  intro c hc
  rw [Numeral.body] at hc
  by_cases hwhole : n.whole = []
  · rw [hwhole, nil_append, Numeral.tail] at hc
    have hnonempty := n.nonempty
    cases hfraction : n.fraction with
    | none =>
      rw [hwhole, hfraction] at hnonempty
      exact absurd rfl hnonempty
    | some digits =>
      rw [hfraction] at hc
      cases hc
      exact .inr rfl
  · exact .inl (head_digits n.tail n.isWhole hwhole c hc)

theorem head_text (n : Numeral) : ∀ c ∈ n.text.head?, isSpace c = false := by
  intro c hc
  rw [Numeral.text] at hc
  rcases mem_cons.mp n.isSign with hsign | hsign
  · rw [hsign, nil_append] at hc
    rcases head_body n c hc with hdigit | rfl
    · exact isSpace_of_isDigit hdigit
    · decide
  · rcases mem_cons.mp hsign with hsign | hsign
    · rw [hsign] at hc
      cases hc
      decide
    · rw [mem_singleton.mp hsign] at hc
      cases hc
      decide

theorem dropWhile_isSpace_of_head (h : ∀ c ∈ s.head?, isSpace c = false) : s.dropWhile isSpace = s := by
  cases s with
  | nil => rfl
  | cons c s =>
    apply dropWhile_cons_of_neg
    rw [h c rfl]
    decide

theorem splitSign_text (n : Numeral) :
    splitSign (n.text.dropWhile isSpace) = (signOf n.sign, n.whole ++ n.tail) := by
  rw [dropWhile_isSpace_of_head (head_text n), Numeral.text]
  apply splitSign_append n.isSign
  intro c hc
  rcases head_body n c hc with hdigit | rfl
  · exact digit_ne_sign hdigit
  · decide

/-- A numeral is read whole, as what it denotes. -/
theorem parseFloat_text (n : Numeral) : parseFloat n.text = n.decimal ∧ afterNumeral n.text = [] := by
  have hmarks : ∀ c ∈ n.tail.head?, c.isDigit = false := fun c hc => not_digit_of_mark (head_tail n c hc)
  obtain ⟨htake, hdrop⟩ := takeWhile_digits n.tail n.isWhole hmarks
  obtain ⟨hvalue, hafter⟩ := readExponent_power n.power
  have hfinite : ¬ [ 'I', 'n', 'f', 'i', 'n', 'i', 't', 'y'].isPrefixOf (n.whole ++ n.tail) = true := by
    intro hinf
    have hhead := head_body n
    rw [Numeral.body] at hhead
    cases hbody : n.whole ++ n.tail with
    | nil =>
      rw [hbody] at hinf
      cases hinf
    | cons c rest =>
      rw [hbody] at hhead hinf
      rw [isPrefixOf, Bool.and_eq_true, beq_iff_eq] at hinf
      rcases hhead c rfl with hdigit | hpoint
      · rw [← hinf.1] at hdigit
        exact absurd hdigit (by decide)
      · rw [← hinf.1] at hpoint
        exact absurd hpoint (by decide)
  constructor
  · rw [parseFloat]
    simp only [splitSign_text, htake, hdrop, splitFraction_tail, hvalue]
    rw [if_neg hfinite, if_neg n.nonempty]
    rfl
  · rw [afterNumeral, splitSign_text, hdrop, splitFraction_tail]
    exact hafter

theorem splitSign_split (s : List Char) : ∃ sign, sign ∈ [[], ['+'], ['-']] ∧ s = sign ++ (splitSign s).2 := by
  rw [splitSign.eq_def]
  split
  · exact ⟨['-'], by decide, rfl⟩
  · exact ⟨['+'], by decide, rfl⟩
  · exact ⟨[], by decide, rfl⟩

theorem mem_takeWhile_digit : ∀ c ∈ s.takeWhile Char.isDigit, c.isDigit = true := fun _ hc =>
  mem_takeWhile_imp hc

theorem splitFraction_split (s : List Char) : ∃ fraction : Option (List Char),
    (∀ digits ∈ fraction, ∀ c ∈ digits, c.isDigit = true) ∧ (splitFraction s).1 = fraction.getD [] ∧
      s = (fraction.elim [] fun digits => '.' :: digits) ++ (splitFraction s).2 := by
  rw [splitFraction.eq_def]
  split
  · rename_i rest
    refine ⟨some (rest.takeWhile Char.isDigit), ?_, rfl, ?_⟩
    · intro digits hdigits
      cases hdigits
      exact mem_takeWhile_digit
    · exact congrArg ('.' :: ·) takeWhile_append_dropWhile.symm
  · refine ⟨none, ?_, rfl, rfl⟩
    intro digits hdigits
    cases hdigits

theorem afterExponent_split (h : afterExponent s = []) : ∃ power : Option Power, s = power.elim [] Power.text := by
  cases s with
  | nil => exact ⟨none, rfl⟩
  | cons c rest =>
    rw [afterExponent] at h
    split at h
    · rename_i hread
      obtain ⟨sign, hsign, hrest⟩ := splitSign_split rest
      have hdigits : (splitSign rest).2 = (splitSign rest).2.takeWhile Char.isDigit := by
        have hsplit := takeWhile_append_dropWhile (p := Char.isDigit) (l := (splitSign rest).2)
        rw [h, append_nil] at hsplit
        exact hsplit.symm
      refine ⟨some { mark := c, sign, digits := (splitSign rest).2, isMark := hread.1, isSign := hsign
                     isDigits := ?_, nonempty := ?_ }, ?_⟩
      · rw [hdigits]
        exact mem_takeWhile_digit
      · rw [hdigits]
        exact hread.2
      · exact congrArg (c :: ·) hrest
    · cases h

/-- A text is a numeral when a decimal is read and nothing is left. -/
theorem exists_numeral_iff (hspace : ∀ c ∈ s.head?, isSpace c = false) : (∃ n : Numeral, n.text = s) ↔
      (∃ sign m e, parseFloat s = .decimal sign m e) ∧ afterNumeral s = [] := by
  constructor
  · rintro ⟨n, rfl⟩
    exact ⟨⟨_, _, _, (parseFloat_text n).1⟩, (parseFloat_text n).2⟩
  · rintro ⟨⟨sign', m, e, hparse⟩, hafter⟩
    have htrim := dropWhile_isSpace_of_head hspace
    rw [afterNumeral, htrim] at hafter
    rw [parseFloat, htrim] at hparse
    obtain ⟨sign, hsign, hs⟩ := splitSign_split s
    obtain ⟨fraction, hfraction, hdigits, hrest⟩ := splitFraction_split ((splitSign s).2.dropWhile Char.isDigit)
    obtain ⟨power, hpower⟩ := afterExponent_split hafter
    have hnonempty : (splitSign s).2.takeWhile Char.isDigit ++ fraction.getD [] ≠ [] := by
      intro hnone
      rw [← hdigits] at hnone
      dsimp only at hparse
      rw [if_pos hnone] at hparse
      split at hparse <;> cases hparse
    refine ⟨{ sign, whole := (splitSign s).2.takeWhile Char.isDigit, fraction, power, isSign := hsign
              isWhole := mem_takeWhile_digit, isFraction := hfraction, nonempty := hnonempty }, ?_⟩
    rw [Numeral.text, Numeral.body, Numeral.tail]
    dsimp only
    rw [← hpower, ← hrest, takeWhile_append_dropWhile, ← hs]

/-- The numeral `s` denotes the number `v`. -/
def DenotesNumber (s : List Char) (v : ℚ) : Prop := ∃ n : Numeral, n.text = s ∧ n.decimal.toDouble = .finite v

theorem denotesNumber_iff (hspace : ∀ c ∈ s.head?, isSpace c = false) {v : ℚ} :
    DenotesNumber s v ↔ (parseFloat s).toDouble = .finite v ∧ afterNumeral s = [] := by
  constructor
  · rintro ⟨n, rfl, hvalue⟩
    rw [(parseFloat_text n).1]
    exact ⟨hvalue, (parseFloat_text n).2⟩
  · rintro ⟨hvalue, hafter⟩
    have hdecimal : ∃ sign m e, parseFloat s = .decimal sign m e := by
      cases hparse : parseFloat s with
      | nan | infinity sign => rw [hparse] at hvalue; cases hvalue
      | decimal sign m e => exact ⟨sign, m, e, rfl⟩
    obtain ⟨n, rfl⟩ := (exists_numeral_iff hspace).mpr ⟨hdecimal, hafter⟩
    rw [(parseFloat_text n).1] at hvalue
    exact ⟨n, rfl, hvalue⟩

end Read
end Soter.JsNumbers
