import Mathlib.Tactic.Linarith

/-! Decimal texts, and the text of an instant in the proleptic Gregorian calendar
(`Date.prototype.toISOString`). -/
namespace Soter.Calendar

open List

section Decimal
variable {ds ds' r r' : List Char} {c c' : Char}

/-- The decimal digits of `n`. -/
def decimal (n : ℕ) : List Char := Nat.toDigits 10 n

def pad (width n : ℕ) : List Char :=
  replicate (width - (decimal n).length) '0' ++ decimal n

def decimalInt (z : ℤ) : List Char :=
  if z < 0 then '-' :: decimal z.natAbs else decimal z.natAbs

theorem decimal_digits (n : ℕ) : ∀ d ∈ decimal n, d.isDigit = true :=
  fun _ hd => Nat.isDigit_of_mem_toDigits (by decide) (by decide) hd

theorem decimal_injective : Function.Injective decimal := by
  intro m n h
  have hvalue := congrArg (Nat.ofDigitChars 10 · 0) h
  simpa [decimal] using hvalue

theorem pad_digits (width n : ℕ) : ∀ d ∈ pad width n, d.isDigit = true := by
  intro d hd
  rcases mem_append.mp hd with hd | hd
  · rw [eq_of_mem_replicate hd]
    rfl
  · exact decimal_digits n d hd

theorem pad_injective (width : ℕ) : Function.Injective (pad width) := by
  intro m n h
  have hvalue := congrArg (Nat.ofDigitChars 10 · 0) h
  simpa [pad, decimal, Nat.ofDigitChars_append] using hvalue

/-- The value of the first `width` digits, and what is after them. -/
def readNumber (width : ℕ) (cs : List Char) : ℕ × List Char :=
  (Nat.ofDigitChars 10 (cs.take width) 0, cs.drop width)

theorem readNumber_pad {width n : ℕ} (hwidth : 0 < width) (hn : n < 10 ^ width) (rest : List Char) :
    readNumber width (pad width n ++ rest) = (n, rest) := by
  have hle : (decimal n).length ≤ width := (Nat.length_toDigits_le_iff (by decide) hwidth).mpr hn
  have hlength : (pad width n).length = width := by
    rw [pad, length_append, length_replicate]
    omega
  have hvalue : Nat.ofDigitChars 10 (pad width n) 0 = n := by
    simp [pad, decimal, Nat.ofDigitChars_append]
  rw [readNumber, take_left' hlength, drop_left' hlength, hvalue]

theorem decimalInt_injective : Function.Injective decimalInt := by
  have hminus (n : ℕ) (t : List Char) : decimal n ≠ '-' :: t := by
    intro h
    have hdigit := decimal_digits n '-' (by rw [h]; exact mem_cons_self)
    exact absurd hdigit (by decide)
  intro a b h
  unfold decimalInt at h
  split at h <;> split at h
  · have habs := decimal_injective (cons_inj_right _ |>.mp h)
    omega
  · exact absurd h.symm (hminus _ _)
  · exact absurd h (hminus _ _)
  · have habs := decimal_injective h
    omega

theorem digits_append_inj (hds : ∀ d ∈ ds, d.isDigit = true) (hds' : ∀ d ∈ ds', d.isDigit = true)
    (hc : c.isDigit = false) (hc' : c'.isDigit = false) (h : ds ++ c :: r = ds' ++ c' :: r') :
    ds = ds' ∧ r = r' := by
  have htake {ds r : List Char} {c : Char} (hds : ∀ d ∈ ds, d.isDigit = true)
      (hc : c.isDigit = false) : (ds ++ c :: r).takeWhile Char.isDigit = ds := by
    rw [takeWhile_append_of_pos hds, takeWhile_cons_of_neg (by simp [hc]), append_nil]
  have hdigits : ds = ds' := by rw [← htake (r := r) hds hc, h, htake hds' hc']
  subst hdigits
  have hrest := append_cancel_left h
  simp only [cons.injEq] at hrest
  exact ⟨rfl, hrest.2⟩

end Decimal

/-- A day by its year, counted from the first of March on: the era of 400 years, the century, the
four years and the year in them, and the day of the year. -/
structure YearDay where
  era : ℤ
  century : ℤ
  four : ℤ
  one : ℤ
  dayOfYear : ℤ

/-- The day `days` days after 1970-01-01. -/
def yearDay (days : ℤ) : YearDay :=
  let sinceEra0 := days + 719468
  let dayOfEra := sinceEra0 % 146097
  let century := min (dayOfEra / 36524) 3
  let dayOfCentury := dayOfEra - 36524 * century
  let four := dayOfCentury / 1461
  let dayOfFour := dayOfCentury - 1461 * four
  let one := min (dayOfFour / 365) 3
  { era := sinceEra0 / 146097, century, four, one, dayOfYear := dayOfFour - 365 * one }

/-- A day of the calendar. -/
structure Civil where
  year : ℤ
  month : ℤ
  day : ℤ

def YearDay.marchMonth (d : YearDay) : ℤ := (5 * d.dayOfYear + 2) / 153

def YearDay.civil (d : YearDay) : Civil :=
  let month := if d.marchMonth < 10 then d.marchMonth + 3 else d.marchMonth - 9
  { year := 400 * d.era + 100 * d.century + 4 * d.four + d.one + if month ≤ 2 then 1 else 0
    month
    day := d.dayOfYear - (153 * d.marchMonth + 2) / 5 + 1 }

structure YearDay.InRange (d : YearDay) : Prop where
  century : 0 ≤ d.century ∧ d.century ≤ 3
  four : 0 ≤ d.four ∧ d.four ≤ 24
  one : 0 ≤ d.one ∧ d.one ≤ 3
  dayOfYear : 0 ≤ d.dayOfYear ∧ d.dayOfYear ≤ 365

theorem yearDay_spec (days : ℤ) : (yearDay days).InRange ∧
    days + 719468 = 146097 * (yearDay days).era + 36524 * (yearDay days).century +
      1461 * (yearDay days).four + 365 * (yearDay days).one + (yearDay days).dayOfYear := by
  have hera : 0 ≤ (days + 719468) % 146097 ∧ (days + 719468) % 146097 < 146097 := by omega
  simp only [yearDay]
  generalize hdayOfEra : (days + 719468) % 146097 = dayOfEra at hera ⊢
  have hcentury : 0 ≤ min (dayOfEra / 36524) 3 ∧ min (dayOfEra / 36524) 3 ≤ 3 ∧
      0 ≤ dayOfEra - 36524 * min (dayOfEra / 36524) 3 ∧
        dayOfEra - 36524 * min (dayOfEra / 36524) 3 ≤ 36524 := by omega
  generalize min (dayOfEra / 36524) 3 = century at hcentury ⊢
  generalize hdayOfCentury : dayOfEra - 36524 * century = dayOfCentury at hcentury ⊢
  have hfour : 0 ≤ dayOfCentury / 1461 ∧ dayOfCentury / 1461 ≤ 24 ∧ 0 ≤ dayOfCentury - 1461 * (dayOfCentury / 1461) ∧
        dayOfCentury - 1461 * (dayOfCentury / 1461) ≤ 1460 := by omega
  generalize dayOfCentury / 1461 = four at hfour ⊢
  generalize hdayOfFour : dayOfCentury - 1461 * four = dayOfFour at hfour ⊢
  have hone : 0 ≤ min (dayOfFour / 365) 3 ∧ min (dayOfFour / 365) 3 ≤ 3 ∧ 0 ≤ dayOfFour - 365 * min (dayOfFour / 365) 3 ∧
        dayOfFour - 365 * min (dayOfFour / 365) 3 ≤ 365 := by omega
  generalize min (dayOfFour / 365) 3 = one at hone ⊢
  exact ⟨⟨⟨hcentury.1, hcentury.2.1⟩, ⟨hfour.1, hfour.2.1⟩, ⟨hone.1, hone.2.1⟩, hone.2.2⟩, by omega⟩

theorem YearDay.InRange.civil {d : YearDay} (h : d.InRange) : 1 ≤ d.civil.month ∧ 1 ≤ d.civil.day := by
  have hday := h.dayOfYear
  have hmarch : 0 ≤ d.marchMonth ∧ (153 * d.marchMonth + 2) / 5 ≤ d.dayOfYear := by
    unfold YearDay.marchMonth
    omega
  simp only [YearDay.civil]
  refine ⟨?_, by omega⟩
  split <;> omega

/-- A day is determined by its year, month and day. -/
theorem YearDay.civil_injective {d d' : YearDay} (hd : d.InRange) (hd' : d'.InRange) (h : d.civil = d'.civil) : d = d' := by
  obtain ⟨hcentury, hfour, hone, hday⟩ := hd
  obtain ⟨hcentury', hfour', hone', hday'⟩ := hd'
  have hmarch : 0 ≤ d.marchMonth ∧ d.marchMonth ≤ 11 := by
    unfold YearDay.marchMonth
    omega
  have hmarch' : 0 ≤ d'.marchMonth ∧ d'.marchMonth ≤ 11 := by
    unfold YearDay.marchMonth
    omega
  simp only [YearDay.civil, Civil.mk.injEq] at h
  obtain ⟨hyear, hmonth, hdays⟩ := h
  rw [hmonth] at hyear
  have hsameMonth : d.marchMonth = d'.marchMonth := by
    split at hmonth <;> split at hmonth <;> omega
  rw [hsameMonth] at hdays
  have hsameYear : 400 * d.era + 100 * d.century + 4 * d.four + d.one =
      400 * d'.era + 100 * d'.century + 4 * d'.four + d'.one := by omega
  have hparts : d.era = d'.era ∧ d.century = d'.century ∧ d.four = d'.four ∧ d.one = d'.one := by
    omega
  obtain ⟨era, century, four, one, dayOfYear⟩ := d
  obtain ⟨era', century', four', one', dayOfYear'⟩ := d'
  simp only at hparts hdays
  simp only [YearDay.mk.injEq]
  omega

theorem yearDay_injective : Function.Injective yearDay := by
  intro days days' h
  have hdays := (yearDay_spec days).2
  rw [h, ← (yearDay_spec days').2] at hdays
  omega

def marchDayNumber (year march day : ℤ) : ℤ :=
  146097 * (year / 400) + 365 * (year % 400) + year % 400 / 4 - year % 400 / 100 +
    (153 * march + 2) / 5 + day - 719469

def dayNumber (d : Civil) : ℤ :=
  marchDayNumber (if d.month ≤ 2 then d.year - 1 else d.year)
    (if d.month ≤ 2 then d.month + 9 else d.month - 3) d.day

theorem dayNumber_civil (days : ℤ) : dayNumber (yearDay days).civil = days := by
  obtain ⟨⟨hcentury, hfour, hone, hday⟩, hdays⟩ := yearDay_spec days
  generalize yearDay days = d at hcentury hfour hone hday hdays
  have hmarch : 0 ≤ d.marchMonth ∧ d.marchMonth ≤ 11 := by
    unfold YearDay.marchMonth
    omega
  -- the year that the days are counted in starts with March
  have hyear : (if d.civil.month ≤ 2 then d.civil.year - 1 else d.civil.year) =
      400 * d.era + (100 * d.century + 4 * d.four + d.one) := by
    simp only [YearDay.civil]
    split <;> split <;> omega
  have hmonth : (if d.civil.month ≤ 2 then d.civil.month + 9 else d.civil.month - 3) = d.marchMonth := by
    simp only [YearDay.civil]
    split <;> split <;> omega
  have hera : (400 * d.era + (100 * d.century + 4 * d.four + d.one)) / 400 = d.era := by omega
  have hofEra : (400 * d.era + (100 * d.century + 4 * d.four + d.one)) % 400 =
      100 * d.century + 4 * d.four + d.one := by omega
  have hleap : (100 * d.century + 4 * d.four + d.one) / 4 = 25 * d.century + d.four := by omega
  have hcentennial : (100 * d.century + 4 * d.four + d.one) / 100 = d.century := by omega
  have hdayOf : d.civil.day = d.dayOfYear - (153 * d.marchMonth + 2) / 5 + 1 := rfl
  rw [dayNumber, hyear, hmonth, hdayOf, marchDayNumber, hera, hofEra, hleap, hcentennial]
  linarith only [hdays]

theorem civil_bounds {days : ℤ} (hlow : -100000000 ≤ days) (hhigh : days ≤ 100000000) :
    (-999999 ≤ (yearDay days).civil.year ∧ (yearDay days).civil.year ≤ 999999) ∧
      (yearDay days).civil.month ≤ 12 ∧ (yearDay days).civil.day ≤ 31 := by
  obtain ⟨⟨hcentury, hfour, hone, hday⟩, hdays⟩ := yearDay_spec days
  generalize yearDay days = d at hcentury hfour hone hday hdays
  have hmarch : 0 ≤ d.marchMonth ∧ d.marchMonth ≤ 11 ∧
      d.dayOfYear - (153 * d.marchMonth + 2) / 5 ≤ 30 := by
    unfold YearDay.marchMonth
    omega
  simp only [YearDay.civil]
  refine ⟨?_, ?_, by omega⟩
  · split <;> split <;> omega
  · split <;> omega

section Instant

/-- The times of a `Date`, in milliseconds since 1970. -/
def IsTime (t : ℤ) : Prop := -8640000000000000 ≤ t ∧ t ≤ 8640000000000000

instance (t : ℤ) : Decidable (IsTime t) := inferInstanceAs (Decidable (_ ∧ _))

/-- Four digits where they are enough, a sign and six digits elsewhere. -/
def yearText (year : ℤ) : List Char :=
  if year < 0 then '-' :: pad 6 year.natAbs
  else if year ≤ 9999 then pad 4 year.natAbs
  else '+' :: pad 6 year.natAbs

/-- `new Date(t).toISOString()`, for a time `t` in milliseconds since 1970. -/
def toISOString (t : ℤ) : List Char :=
  let date := (yearDay (t / 86400000)).civil
  let ms := (t % 86400000).toNat
  yearText date.year ++ '-' :: (pad 2 date.month.toNat ++ '-' :: (pad 2 date.day.toNat ++
    'T' :: (pad 2 (ms / 3600000) ++ ':' :: (pad 2 (ms / 60000 % 60) ++
      ':' :: (pad 2 (ms / 1000 % 60) ++ '.' :: (pad 3 (ms % 1000) ++ ['Z']))))))

variable {year t : ℤ}

theorem yearText_inj {year' : ℤ} {r r' : List Char}
    (h : yearText year ++ '-' :: r = yearText year' ++ '-' :: r') : year = year' ∧ r = r' := by
  -- a year without a sign starts with a digit
  have hsign {n : ℕ} {c : Char} {r t : List Char} (hc : c.isDigit = false) :
      pad 4 n ++ '-' :: r ≠ c :: t := by
    intro heq
    have hnil : ∀ d ∈ ([] : List Char), d.isDigit = true := by simp
    have hempty := (digits_append_inj (pad_digits 4 n) hnil rfl hc heq).1
    simp [pad, decimal] at hempty
  have hsame {w m n : ℕ} {r r' : List Char} (heq : pad w m ++ '-' :: r = pad w n ++ '-' :: r') :
      m = n ∧ r = r' := by
    obtain ⟨hdigits, hrest⟩ := digits_append_inj (pad_digits w m) (pad_digits w n) rfl rfl heq
    exact ⟨pad_injective w hdigits, hrest⟩
  have hcases (year : ℤ) : (year < 0 ∧ yearText year = '-' :: pad 6 year.natAbs) ∨
      (0 ≤ year ∧ yearText year = pad 4 year.natAbs) ∨ (0 ≤ year ∧ yearText year = '+' :: pad 6 year.natAbs) := by
    unfold yearText
    split
    · exact .inl ⟨by omega, rfl⟩
    · split
      · exact .inr (.inl ⟨by omega, rfl⟩)
      · exact .inr (.inr ⟨by omega, rfl⟩)
  rcases hcases year with ⟨hyear, htext⟩ | ⟨hyear, htext⟩ | ⟨hyear, htext⟩ <;>
    rcases hcases year' with ⟨hyear', htext'⟩ | ⟨hyear', htext'⟩ | ⟨hyear', htext'⟩ <;>
    rw [htext, htext'] at h
  · obtain ⟨habs, hrest⟩ := hsame (cons_inj_right _ |>.mp h)
    exact ⟨by omega, hrest⟩
  · exact absurd h.symm (hsign rfl)
  · cases h
  · exact absurd h (hsign rfl)
  · obtain ⟨habs, hrest⟩ := hsame h
    exact ⟨by omega, hrest⟩
  · exact absurd h (hsign rfl)
  · cases h
  · exact absurd h.symm (hsign rfl)
  · obtain ⟨habs, hrest⟩ := hsame (cons_inj_right _ |>.mp h)
    exact ⟨by omega, hrest⟩

/-- Different instants have different texts. -/
theorem toISOString_injective : Function.Injective toISOString := by
  intro t t' h
  have hpad {w m n : ℕ} {c : Char} {r r' : List Char} (hc : c.isDigit = false)
      (heq : pad w m ++ c :: r = pad w n ++ c :: r') : m = n ∧ r = r' := by
    obtain ⟨hdigits, hrest⟩ := digits_append_inj (pad_digits w m) (pad_digits w n) hc hc heq
    exact ⟨pad_injective w hdigits, hrest⟩
  obtain ⟨hyear, h⟩ := yearText_inj h
  obtain ⟨hmonth, h⟩ := hpad rfl h
  obtain ⟨hday, h⟩ := hpad rfl h
  obtain ⟨hhour, h⟩ := hpad rfl h
  obtain ⟨hminute, h⟩ := hpad rfl h
  obtain ⟨hsecond, h⟩ := hpad rfl h
  obtain ⟨hms, -⟩ := hpad rfl h
  have hrange := (yearDay_spec (t / 86400000)).1
  have hrange' := (yearDay_spec (t' / 86400000)).1
  have hcivil := hrange.civil
  have hcivil' := hrange'.civil
  have hdate : (yearDay (t / 86400000)).civil = (yearDay (t' / 86400000)).civil := by
    cases hdate : (yearDay (t / 86400000)).civil
    cases hdate' : (yearDay (t' / 86400000)).civil
    rw [hdate] at hyear hmonth hday hcivil
    rw [hdate'] at hyear hmonth hday hcivil'
    simp only at hyear hmonth hday hcivil hcivil'
    simp only [Civil.mk.injEq]
    omega
  have hdays := yearDay_injective (YearDay.civil_injective hrange hrange' hdate)
  omega

/-- The year at the start of a text, with its sign. -/
def readYear (cs : List Char) : ℤ × List Char :=
  match cs with
  | '-' :: digits => (-(readNumber 6 digits).1, (readNumber 6 digits).2)
  | '+' :: digits => ((readNumber 6 digits).1, (readNumber 6 digits).2)
  | digits => ((readNumber 4 digits).1, (readNumber 4 digits).2)

/-- The instant that the digits of a text give, whatever stands between them. -/
def instantOf (cs : List Char) : ℤ :=
  let year := readYear cs
  let month := readNumber 2 (year.2.drop 1)
  let day := readNumber 2 (month.2.drop 1)
  let hour := readNumber 2 (day.2.drop 1)
  let minute := readNumber 2 (hour.2.drop 1)
  let second := readNumber 2 (minute.2.drop 1)
  let ms := readNumber 3 (second.2.drop 1)
  86400000 * dayNumber { year := year.1, month := month.1, day := day.1 } + 3600000 * hour.1 +
    60000 * minute.1 + 1000 * second.1 + ms.1

def readISOString (cs : List Char) : Option ℤ :=
  let t := instantOf cs
  if IsTime t ∧ toISOString t = cs then some t else none

theorem readYear_yearText (hyear : -999999 ≤ year ∧ year ≤ 999999) (rest : List Char) :
    readYear (yearText year ++ '-' :: rest) = (year, '-' :: rest) := by
  rw [yearText]
  split
  · have hread : readNumber 6 (pad 6 year.natAbs ++ '-' :: rest) = (year.natAbs, '-' :: rest) :=
      readNumber_pad (by decide) (by omega) _
    simp only [cons_append, readYear, hread, Prod.mk.injEq, and_true]
    omega
  · split
    · have hread : readNumber 4 (pad 4 year.natAbs ++ '-' :: rest) = (year.natAbs, '-' :: rest) :=
        readNumber_pad (by decide) (by omega) _
      have hdigits : ∀ d ∈ pad 4 year.natAbs, d.isDigit = true := pad_digits 4 _
      have hlong : pad 4 year.natAbs ≠ [] := by
        intro hnil
        simp [pad, decimal] at hnil
      -- the first character is a digit, not a sign
      obtain ⟨d, ds, hpad⟩ := exists_cons_of_ne_nil hlong
      have hdigit := hdigits d (by rw [hpad]; exact mem_cons_self)
      have hvalue : readYear (pad 4 year.natAbs ++ '-' :: rest) = (((readNumber 4 (pad 4 year.natAbs ++ '-' :: rest)).1 : ℤ),
            (readNumber 4 (pad 4 year.natAbs ++ '-' :: rest)).2) := by
        rw [hpad, cons_append, readYear]
        · intro digits heq
          rw [(cons.inj heq).1] at hdigit
          exact absurd hdigit (by decide)
        · intro digits heq
          rw [(cons.inj heq).1] at hdigit
          exact absurd hdigit (by decide)
      rw [hvalue, hread, Prod.mk.injEq]
      exact ⟨by omega, rfl⟩
    · have hread : readNumber 6 (pad 6 year.natAbs ++ '-' :: rest) = (year.natAbs, '-' :: rest) :=
        readNumber_pad (by decide) (by omega) _
      simp only [cons_append, readYear, hread, Prod.mk.injEq, and_true]
      omega

theorem instantOf_toISOString (ht : IsTime t) : instantOf (toISOString t) = t := by
  obtain ⟨hlow, hhigh⟩ := ht
  have hlow' : -100000000 ≤ t / 86400000 := by omega
  obtain ⟨hyear, hmonth, hday⟩ := civil_bounds hlow' (by omega)
  have hpos := (yearDay_spec (t / 86400000)).1.civil
  have hcivil := dayNumber_civil (t / 86400000)
  have hread (rest : List Char) {n : ℕ} (hn : n < 100) : readNumber 2 (pad 2 n ++ rest) = (n, rest) :=
    readNumber_pad (by decide) hn rest
  have hread₃ (rest : List Char) {n : ℕ} (hn : n < 1000) : readNumber 3 (pad 3 n ++ rest) = (n, rest) :=
    readNumber_pad (by decide) hn rest
  simp only [toISOString]
  generalize hdate : (yearDay (t / 86400000)).civil = date at hyear hmonth hday hpos hcivil
  generalize hms : (t % 86400000).toNat = ms
  have hsame : ({ year := date.year, month := date.month.toNat, day := date.day.toNat } : Civil) = date := by
    obtain ⟨year, month, day⟩ := date
    dsimp only at hpos
    simp only [Civil.mk.injEq, true_and]
    omega
  simp only [instantOf, readYear_yearText hyear, drop_succ_cons, drop_zero,
    hread _ (show date.month.toNat < 100 by omega), hread _ (show date.day.toNat < 100 by omega),
    hread _ (show ms / 3600000 < 100 by omega), hread _ (show ms / 60000 % 60 < 100 by omega),
    hread _ (show ms / 1000 % 60 < 100 by omega),
    hread₃ _ (show ms % 1000 < 1000 by omega), hsame, hcivil]
  push_cast
  omega

theorem readISOString_eq_some {cs : List Char} : readISOString cs = some t ↔ IsTime t ∧ toISOString t = cs := by
  constructor
  · intro h
    simp only [readISOString] at h
    split at h
    · rename_i hwritten
      cases h
      exact hwritten
    · cases h
  · intro h
    obtain ⟨ht, rfl⟩ := h
    have hinstant := instantOf_toISOString ht
    rw [readISOString]
    simp only [hinstant]
    rw [if_pos ⟨ht, trivial⟩]

end Instant
end Soter.Calendar
