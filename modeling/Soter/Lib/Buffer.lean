import Mathlib

/-! Buffers: base64url and UTF-8, written and read. What is written is read again; the readers take other
texts too and leave out what they cannot read. -/
namespace Soter.Buffers

abbrev Byte := Fin 256

instance Byte.neZero : NeZero 256 := ⟨by decide⟩

variable {bs : List Byte}
section Base64
variable {cs : List Char}

def toSextet (n : ℕ) : Fin 64 := Fin.ofNat 64 n

def toByte (n : ℕ) : Byte := Fin.ofNat 256 n

/-- Six bits for each digit; the unused bits of the last one are zero. -/
def sextets : List Byte → List (Fin 64)
  | x :: y :: z :: rest =>
    toSextet (x / 4) :: toSextet (x % 4 * 16 + y / 16) :: toSextet (y % 16 * 4 + z / 64) ::
      toSextet (z % 64) :: sextets rest
  | [x, y] => [toSextet (x / 4), toSextet (x % 4 * 16 + y / 16), toSextet (y % 16 * 4)]
  | [x] => [toSextet (x / 4), toSextet (x % 4 * 16)]
  | [] => []

/-- The whole bytes of a row of digits. -/
def bytes : List (Fin 64) → List Byte
  | a :: b :: c :: d :: rest =>
    toByte (a * 4 + b / 16) :: toByte (b % 16 * 16 + c / 4) :: toByte (c % 4 * 64 + d) :: bytes rest
  | [a, b, c] => [toByte (a * 4 + b / 16), toByte (b % 16 * 16 + c / 4)]
  | [a, b] => [toByte (a * 4 + b / 16)]
  | [_] => []
  | [] => []

theorem bytes_sextets : ∀ bs : List Byte, bytes (sextets bs) = bs
  | [] => rfl
  | [x] => by
    have hx := x.isLt
    simp only [sextets, bytes, toSextet, toByte, Fin.val_ofNat, List.cons.injEq, and_true]
    apply Fin.ext
    rw [Fin.val_ofNat]
    omega
  | [x, y] => by
    have hx := x.isLt
    have hy := y.isLt
    simp only [sextets, bytes, toSextet, toByte, Fin.val_ofNat, List.cons.injEq, and_true]
    constructor
    · apply Fin.ext
      rw [Fin.val_ofNat]
      omega
    · apply Fin.ext
      rw [Fin.val_ofNat]
      omega
  | x :: y :: z :: rest => by
    have hx := x.isLt
    have hy := y.isLt
    have hz := z.isLt
    simp only [sextets, bytes, toSextet, toByte, Fin.val_ofNat, List.cons.injEq, bytes_sextets rest, and_true]
    refine ⟨?_, ?_, ?_⟩
    · apply Fin.ext
      rw [Fin.val_ofNat]
      omega
    · apply Fin.ext
      rw [Fin.val_ofNat]
      omega
    · apply Fin.ext
      rw [Fin.val_ofNat]
      omega

def digit (d : Fin 64) : Char :=
  if d < 26 then Char.ofNat ('A'.toNat + d)
  else if d < 52 then Char.ofNat ('a'.toNat + (d - 26))
  else if d < 62 then Char.ofNat ('0'.toNat + (d - 52))
  else if d = 62 then '-'
  else '_'

/-- A digit of either alphabet. -/
def sextet (c : Char) : Option (Fin 64) :=
  if 'A' ≤ c ∧ c ≤ 'Z' then some (toSextet (c.toNat - 'A'.toNat))
  else if 'a' ≤ c ∧ c ≤ 'z' then some (toSextet (c.toNat - 'a'.toNat + 26))
  else if '0' ≤ c ∧ c ≤ '9' then some (toSextet (c.toNat - '0'.toNat + 52))
  else if c = '-' ∨ c = '+' then some 62
  else if c = '_' ∨ c = '/' then some 63
  else none

theorem sextet_digit : ∀ d, sextet (digit d) = some d := by decide

theorem digit_ne : ∀ d, digit d ≠ '=' ∧ digit d ≠ '.' := by decide

/-- `buffer.toString('base64url')`. -/
def toBase64url (bs : List Byte) : List Char := (sextets bs).map digit

/-- `Buffer.from(text, 'base64url')`: the digits up to the padding, whatever stands between them. -/
def fromBase64url (cs : List Char) : List Byte := bytes ((cs.takeWhile (· ≠ '=')).filterMap sextet)

theorem fromBase64url_toBase64url (bs : List Byte) : fromBase64url (toBase64url bs) = bs := by
  have hdigits : ((sextets bs).map digit).takeWhile (· ≠ '=') = (sextets bs).map digit := by
    apply List.takeWhile_eq_self_iff.mpr
    intro c hc
    obtain ⟨d, -, rfl⟩ := List.mem_map.mp hc
    exact decide_eq_true (digit_ne d).1
  have hread : sextet ∘ digit = some := funext sextet_digit
  rw [fromBase64url, toBase64url, hdigits, List.filterMap_map, hread, List.filterMap_some, bytes_sextets]

theorem toBase64url_dot (bs : List Byte) : '.' ∉ toBase64url bs := by
  intro hdot
  obtain ⟨d, -, hd⟩ := List.mem_map.mp hdot
  exact (digit_ne d).2 hd

end Base64

def utf8Char (c : Char) : List Byte :=
  let n := c.toNat
  if n < 0x80 then [toByte n]
  else if n < 0x800 then [toByte (0xC0 + n / 0x40), toByte (0x80 + n % 0x40)]
  else if n < 0x10000 then
    [toByte (0xE0 + n / 0x1000), toByte (0x80 + n / 0x40 % 0x40), toByte (0x80 + n % 0x40)]
  else
    [toByte (0xF0 + n / 0x40000), toByte (0x80 + n / 0x1000 % 0x40), toByte (0x80 + n / 0x40 % 0x40),
      toByte (0x80 + n % 0x40)]

/-- `Buffer.from(text)`. -/
def toUtf8 (cs : List Char) : List Byte := cs.flatMap utf8Char

/-- A character whose first bytes are read: how many are missing, between which bounds the next one must
lie, and the bits read so far. -/
structure Pending where
  missing : ℕ
  low : ℕ
  high : ℕ
  bits : ℕ

/-- What the first byte of a character says. -/
inductive Lead
  | char (c : Char)
  | more (p : Pending)
  | invalid

def lead (b : ℕ) : Lead :=
  if b < 0x80 then .char (Char.ofNat b)
  else if b < 0xC2 then .invalid
  else if b < 0xE0 then .more ⟨1, 0x80, 0xBF, b - 0xC0⟩
  else if b < 0xF0 then
    .more ⟨2, if b = 0xE0 then 0xA0 else 0x80, if b = 0xED then 0x9F else 0xBF, b - 0xE0⟩
  else if b < 0xF5 then
    .more ⟨3, if b = 0xF0 then 0x90 else 0x80, if b = 0xF4 then 0x8F else 0xBF, b - 0xF0⟩
  else .invalid

def replacement : Char := Char.ofNat 0xFFFD

/-- `buffer.toString('utf-8')`: what is no character is replaced. -/
def decodeUtf8 : Option Pending → List Byte → List Char
  | none, [] => []
  | some _, [] => [replacement]
  | none, b :: bs =>
    match lead b with
    | .char c => c :: decodeUtf8 none bs
    | .more p => decodeUtf8 (some p) bs
    | .invalid => replacement :: decodeUtf8 none bs
  | some p, b :: bs =>
    if p.low ≤ b ∧ b ≤ p.high then
      if p.missing = 1 then Char.ofNat (p.bits * 0x40 + (b - 0x80)) :: decodeUtf8 none bs
      else decodeUtf8 (some ⟨p.missing - 1, 0x80, 0xBF, p.bits * 0x40 + (b - 0x80)⟩) bs
    else
      -- the byte that does not belong to the character may be the first one of the next
      replacement ::
        match lead b with
        | .char c => c :: decodeUtf8 none bs
        | .more p => decodeUtf8 (some p) bs
        | .invalid => replacement :: decodeUtf8 none bs

def fromUtf8 (bs : List Byte) : List Char := decodeUtf8 none bs

section RoundTrip

variable {b : Byte} {p : Pending}

theorem decodeUtf8_char {c : Char} (hb : lead b = .char c) :
    decodeUtf8 none (b :: bs) = c :: decodeUtf8 none bs := by
  rw [decodeUtf8, hb]

theorem decodeUtf8_more (hb : lead b = .more p) : decodeUtf8 none (b :: bs) = decodeUtf8 (some p) bs := by
  rw [decodeUtf8, hb]

theorem decodeUtf8_last (hb : p.low ≤ b ∧ b ≤ p.high) (hmissing : p.missing = 1) :
    decodeUtf8 (some p) (b :: bs) = Char.ofNat (p.bits * 0x40 + (b - 0x80)) :: decodeUtf8 none bs := by
  rw [decodeUtf8, if_pos hb, if_pos hmissing]

theorem decodeUtf8_next (hb : p.low ≤ b ∧ b ≤ p.high) (hmissing : p.missing ≠ 1) : decodeUtf8 (some p) (b :: bs) =
      decodeUtf8 (some ⟨p.missing - 1, 0x80, 0xBF, p.bits * 0x40 + (b - 0x80)⟩) bs := by
  rw [decodeUtf8, if_pos hb, if_neg hmissing]

theorem toByte_val {n : ℕ} (hn : n < 256) : (toByte n).val = n := Nat.mod_eq_of_lt hn

/-- A character is read again, whatever follows it. -/
theorem decodeUtf8_utf8Char (c : Char) (bs : List Byte) :
    decodeUtf8 none (utf8Char c ++ bs) = c :: decodeUtf8 none bs := by
  have hvalid : c.toNat < 0xD800 ∨ 0xDFFF < c.toNat ∧ c.toNat < 0x110000 := c.valid
  have hread : ∀ n, n = c.toNat → Char.ofNat n = c := by
    intro n hn
    rw [hn]
    exact Char.ofNat_toNat c
  simp only [utf8Char]
  split
  · have hfirst := toByte_val (n := c.toNat) (by omega)
    apply decodeUtf8_char
    rw [hfirst, lead, if_pos (by omega), Char.ofNat_toNat]
  split
  · have hfirst := toByte_val (n := 0xC0 + c.toNat / 0x40) (by omega)
    have hsecond := toByte_val (n := 0x80 + c.toNat % 0x40) (by omega)
    have hlead : lead (toByte (0xC0 + c.toNat / 0x40)) =
        .more ⟨1, 0x80, 0xBF, toByte (0xC0 + c.toNat / 0x40) - 0xC0⟩ := by
      rw [hfirst, lead, if_neg (by omega), if_neg (by omega), if_pos (by omega)]
    simp only [List.cons_append, List.nil_append]
    rw [decodeUtf8_more hlead, decodeUtf8_last (by dsimp only; omega) rfl]
    rw [hread _ (by dsimp only; omega)]
  split
  · have hfirst := toByte_val (n := 0xE0 + c.toNat / 0x1000) (by omega)
    have hsecond := toByte_val (n := 0x80 + c.toNat / 0x40 % 0x40) (by omega)
    have hthird := toByte_val (n := 0x80 + c.toNat % 0x40) (by omega)
    have hlead : lead (toByte (0xE0 + c.toNat / 0x1000)) =
        .more ⟨2, if c.toNat / 0x1000 = 0 then 0xA0 else 0x80,
          if c.toNat / 0x1000 = 0xD then 0x9F else 0xBF, c.toNat / 0x1000⟩ := by
      rw [hfirst, lead, if_neg (by omega), if_neg (by omega), if_neg (by omega), if_pos (by omega)]
      rw [Lead.more.injEq, Pending.mk.injEq]
      refine ⟨rfl, if_congr (by omega) rfl rfl, if_congr (by omega) rfl rfl, by omega⟩
    -- the bounds of the second byte rule out long forms and surrogates
    have hbounds : (if c.toNat / 0x1000 = 0 then 0xA0 else 0x80) ≤ 0x80 + c.toNat / 0x40 % 0x40 ∧
        0x80 + c.toNat / 0x40 % 0x40 ≤ if c.toNat / 0x1000 = 0xD then 0x9F else 0xBF := by
      constructor
      · split <;> omega
      · split <;> omega
    simp only [List.cons_append, List.nil_append]
    rw [decodeUtf8_more hlead, decodeUtf8_next (hsecond.symm ▸ hbounds) (by simp only; omega),
      decodeUtf8_last (by dsimp only; omega) rfl]
    rw [hread _ (by dsimp only; omega)]
  · have hfirst := toByte_val (n := 0xF0 + c.toNat / 0x40000) (by omega)
    have hsecond := toByte_val (n := 0x80 + c.toNat / 0x1000 % 0x40) (by omega)
    have hthird := toByte_val (n := 0x80 + c.toNat / 0x40 % 0x40) (by omega)
    have hfourth := toByte_val (n := 0x80 + c.toNat % 0x40) (by omega)
    have hlead : lead (toByte (0xF0 + c.toNat / 0x40000)) =
        .more ⟨3, if c.toNat / 0x40000 = 0 then 0x90 else 0x80,
          if c.toNat / 0x40000 = 4 then 0x8F else 0xBF, c.toNat / 0x40000⟩ := by
      rw [hfirst, lead, if_neg (by omega), if_neg (by omega), if_neg (by omega), if_neg (by omega), if_pos (by omega)]
      rw [Lead.more.injEq, Pending.mk.injEq]
      refine ⟨rfl, if_congr (by omega) rfl rfl, if_congr (by omega) rfl rfl, by omega⟩
    have hbounds : (if c.toNat / 0x40000 = 0 then 0x90 else 0x80) ≤ 0x80 + c.toNat / 0x1000 % 0x40 ∧
        0x80 + c.toNat / 0x1000 % 0x40 ≤ if c.toNat / 0x40000 = 4 then 0x8F else 0xBF := by
      constructor
      · split <;> omega
      · split <;> omega
    simp only [List.cons_append, List.nil_append]
    rw [decodeUtf8_more hlead, decodeUtf8_next (hsecond.symm ▸ hbounds) (by simp only; omega),
      decodeUtf8_next (by dsimp only; omega) (by simp only; omega), decodeUtf8_last (by dsimp only; omega) rfl]
    rw [hread _ (by dsimp only; omega)]

theorem fromUtf8_toUtf8 (cs : List Char) : fromUtf8 (toUtf8 cs) = cs := by
  induction cs with
  | nil => rfl
  | cons c cs ih =>
    rw [fromUtf8, toUtf8, List.flatMap_cons, decodeUtf8_utf8Char]
    exact congrArg (List.cons c) ih

end RoundTrip
end Soter.Buffers
