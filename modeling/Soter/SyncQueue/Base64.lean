import Soter.Lib.Buffer
import Soter.Lib.JsNumber

/-! The base64 decoder of the mobile app reads back what a standard encoder wrote. -/
namespace Soter.SyncQueue
open Soter.Buffers Soter.JsNumbers List

def chars : List Char := "ABCDEFGHIJKLMNOPQRSTUVWXYZabcdefghijklmnopqrstuvwxyz0123456789+/".toList

/-- `lookup[code]` as the operand of a shift: what is missing, or no digit, counts as zero. -/
def lookup (c : Option Char) : ℕ :=
  match c with
  | some c => if c ∈ chars then chars.idxOf c else 0
  | none => 0

/-- The writes of one round; one behind the end of the array is lost. The length of the buffer is in quarters. -/
def writeGroup (quarters : ℤ) (bytesVal p : ℕ) (bytes : List Byte) : ℕ × List Byte :=
  let bytes := bytes.set p (toByte (bytesVal >>> 16 &&& 255))
  let p := p + 1
  if 4 * (p : ℤ) < quarters then
    let bytes := bytes.set p (toByte (bytesVal >>> 8 &&& 255))
    let p := p + 1
    if 4 * (p : ℤ) < quarters then (p + 1, bytes.set p (toByte (bytesVal &&& 255)))
    else (p, bytes)
  else (p, bytes)

def decodeLoop (quarters : ℤ) : List Char → ℕ → List Byte → List Byte
  | [], _, bytes => bytes
  | c :: rest, p, bytes =>
    let bytesVal :=
      lookup (some c) <<< 18 ||| lookup rest[0]? <<< 12 ||| lookup rest[1]? <<< 6 ||| lookup rest[2]?
    let round := writeGroup quarters bytesVal p bytes
    decodeLoop quarters (rest.drop 3) round.1 round.2
termination_by text => text.length

def padding (cleanBase64 : List Char) : ℕ :=
  if cleanBase64.reverse[0]? = some '=' then if cleanBase64.reverse[1]? = some '=' then 2 else 1
  else 0

def base64ToUint8Array (base64 : List Char) : List Byte :=
  let data := if ',' ∈ base64 then (base64.dropWhile (· ≠ ',')).drop 1 else base64
  let cleanBase64 := data.filter fun c => !isSpace c
  let quarters : ℤ := 3 * cleanBase64.length - 4 * padding cleanBase64
  decodeLoop quarters cleanBase64 0 (replicate (quarters / 4).toNat 0)

def standardDigit (d : Fin 64) : Char := chars[d.val]?.getD '='

def pads (bs : List Byte) : List Char := replicate ((3 - bs.length % 3) % 3) '='

def standardBase64 (bs : List Byte) (padded : Bool) : List Char :=
  (sextets bs).map standardDigit ++ if padded then pads bs else []

theorem lookup_digit : ∀ d, lookup (some (standardDigit d)) = d := by decide +kernel

theorem digit_plain : ∀ d, standardDigit d ≠ '=' ∧ standardDigit d ≠ ',' := by decide +kernel

theorem lookup_pad : lookup (some '=') = 0 := by decide

theorem lookup_none : lookup none = 0 := rfl

theorem word_eq (x y z : Byte) : (x.val / 4 % 64) <<< 18 ||| ((x.val % 4 * 16 + y.val / 16) % 64) <<< 12 |||
    ((y.val % 16 * 4 + z.val / 64) % 64) <<< 6 ||| z.val % 64 % 64 = x.val * 65536 + y.val * 256 + z.val := by
  have hx := x.isLt
  have hor (a b i : ℕ) (hb : b < 2 ^ i) : a <<< i ||| b = a * 2 ^ i + b := by
    rw [← Nat.shiftLeft_add_eq_or_of_lt hb, Nat.shiftLeft_eq]
  rw [Nat.or_assoc, Nat.or_assoc, hor _ (z.val % 64 % 64) 6 (by omega), hor _ _ 12 (by omega), hor _ _ 18 (by omega)]
  omega

theorem bytes_of_word (x y z : Byte) : toByte ((x.val * 65536 + y.val * 256 + z.val) >>> 16 &&& 255) = x ∧
      toByte ((x.val * 65536 + y.val * 256 + z.val) >>> 8 &&& 255) = y ∧
      toByte ((x.val * 65536 + y.val * 256 + z.val) &&& 255) = z := by
  have hmask (n : ℕ) : (toByte (n &&& 255)).val = n % 256 := by
    rw [toByte, Fin.val_ofNat, Nat.and_two_pow_sub_one_eq_mod n 8, Nat.mod_mod]
  refine ⟨Fin.ext ?_, Fin.ext ?_, Fin.ext ?_⟩
  all_goals
    rw [hmask]
    omega

theorem set_behind {done junk : List Byte} (k : ℕ) (b : Byte) :
    (done ++ junk).set (done.length + k) b = done ++ junk.set k b := by
  rw [set_append_right _ _ (Nat.le_add_right _ _), Nat.add_sub_cancel_left]

theorem writeGroup_eq {quarters : ℤ} {done junk : List Byte} (x y z : Byte) :
    writeGroup quarters (x.val * 65536 + y.val * 256 + z.val) done.length (done ++ junk) =
      if 4 * (done.length + 1 : ℤ) < quarters then
        if 4 * (done.length + 2 : ℤ) < quarters then (done.length + 3, done ++ ((junk.set 0 x).set 1 y).set 2 z)
        else (done.length + 2, done ++ (junk.set 0 x).set 1 y)
      else (done.length + 1, done ++ junk.set 0 x) := by
  obtain ⟨hx, hy, hz⟩ := bytes_of_word x y z
  have hfirst : (done ++ junk).set done.length x = done ++ junk.set 0 x := set_behind 0 x
  simp only [writeGroup, hx, hy, hz, hfirst, Nat.add_assoc done.length, set_behind, Nat.cast_add]
  rfl

theorem decodeLoop_group {quarters : ℤ} {p : ℕ} {bytes : List Byte} (x y z : Byte) {c : Char} {rest : List Char}
    (ha : lookup (some c) = x.val / 4 % 64) (hb : lookup rest[0]? = (x.val % 4 * 16 + y.val / 16) % 64)
    (hc : lookup rest[1]? = (y.val % 16 * 4 + z.val / 64) % 64) (hd : lookup rest[2]? = z.val % 64 % 64) :
    decodeLoop quarters (c :: rest) p bytes =
      decodeLoop quarters (rest.drop 3) (writeGroup quarters (x.val * 65536 + y.val * 256 + z.val) p bytes).1
        (writeGroup quarters (x.val * 65536 + y.val * 256 + z.val) p bytes).2 := by
  rw [decodeLoop, ha, hb, hc, hd, word_eq]

theorem lookup_toSextet (n : ℕ) : lookup (some (standardDigit (toSextet n))) = n % 64 := lookup_digit _

theorem decodeLoop_text {quarters : ℤ} (padded : Bool) : ∀ (bs done junk : List Byte), junk.length = bs.length →
    4 * (done.length + bs.length : ℤ) ≤ quarters →
      decodeLoop quarters (standardBase64 bs padded) done.length (done ++ junk) = done ++ bs
  | [], done, junk, hjunk, hfits => by
    rw [length_eq_zero_iff.mp hjunk]
    cases padded <;> simp [standardBase64, sextets, pads, decodeLoop]
  | [x], done, [j], hjunk, hfits => by
    cases padded
    all_goals
      rw [standardBase64, sextets, map_cons, cons_append, decodeLoop_group x 0 0, writeGroup_eq]
      · split_ifs <;> simp [decodeLoop, pads]
      all_goals simp [lookup_toSextet, pads, lookup_pad, lookup_none]
  | [x, y], done, [j, j'], hjunk, hfits => by
    have hsecond : 4 * (done.length + 1 : ℤ) < quarters := by
      simp only [length_cons, length_nil] at hfits
      omega
    cases padded
    all_goals
      rw [standardBase64, sextets, map_cons, cons_append, decodeLoop_group x y 0, writeGroup_eq, if_pos hsecond]
      · split_ifs <;> simp [decodeLoop, pads]
      all_goals simp [lookup_toSextet, pads, lookup_pad, lookup_none]
  | x :: y :: z :: rest, done, j :: j' :: j'' :: junk, hjunk, hfits => by
    have hjunk' : junk.length = rest.length := by simpa using hjunk
    have hpads : pads (x :: y :: z :: rest) = pads rest := by
      rw [pads, pads, show (x :: y :: z :: rest).length % 3 = rest.length % 3 from Nat.add_mod_right _ 3]
    have hrest : 4 * ((done ++ [x, y, z]).length + rest.length : ℤ) ≤ quarters := by
      simp only [length_append, length_cons, length_nil] at hfits ⊢
      omega
    have hnext := decodeLoop_text padded rest (done ++ [x, y, z]) junk hjunk' hrest
    have hthird : 4 * (done.length + 2 : ℤ) < quarters := by
      simp only [length_cons] at hfits
      omega
    rw [standardBase64, sextets, map_cons, cons_append, decodeLoop_group x y z, writeGroup_eq,
      if_pos (by omega : 4 * (done.length + 1 : ℤ) < quarters), if_pos hthird]
    · simpa [standardBase64, hpads] using hnext
    all_goals simp [lookup_toSextet]

theorem sextets_length : ∀ bs : List Byte, (sextets bs).length = (4 * bs.length + 2) / 3
  | [] => rfl
  | [_] => by simp [sextets]
  | [_, _] => by simp [sextets]
  | x :: y :: z :: rest => by
    simp only [sextets, length_cons, sextets_length rest]
    omega

theorem padding_append {text : List Char} (htext : '=' ∉ text) {k : ℕ} (hk : k ≤ 2) :
    padding (text ++ replicate k '=') = k := by
  have hlast (i : ℕ) : text.reverse[i]? ≠ some '=' := fun h => htext (mem_reverse.mp (mem_of_getElem? h))
  rw [padding, reverse_append, reverse_replicate]
  interval_cases k
  · exact if_neg (hlast 0)
  · exact if_neg (hlast 0)
  · rfl

/-- White space may stand anywhere in the text, and a header without a comma in front of it, up to one. -/
theorem base64_reads_back {bs : List Byte} {padded : Bool} {header : Option (List Char)} {spaced : List Char}
    (hspaced : (spaced.filter fun c => !isSpace c) = standardBase64 bs padded) (hheader : ∀ text ∈ header, ',' ∉ text) :
    base64ToUint8Array (header.elim spaced fun text => text ++ ',' :: spaced) = bs := by
  let digits := (sextets bs).map standardDigit
  obtain ⟨k, hk, hbase64, hleast, hsize⟩ : ∃ k ≤ 2, standardBase64 bs padded = digits ++ replicate k '=' ∧
      (4 * bs.length : ℤ) ≤ 3 * (digits.length + k : ℕ) - 4 * k ∧
      ((3 * (digits.length + k : ℕ) - 4 * k : ℤ) / 4).toNat = bs.length := by
    have hlength : digits.length = (4 * bs.length + 2) / 3 := by rw [length_map, sextets_length]
    cases padded with
    | false => exact ⟨0, by omega, rfl, by omega, by omega⟩
    | true =>
      obtain h | h | h : bs.length % 3 = 0 ∨ bs.length % 3 = 1 ∨ bs.length % 3 = 2 := by omega
      all_goals exact ⟨(3 - bs.length % 3) % 3, by omega, rfl, by omega, by omega⟩
  have hplain : '=' ∉ digits ∧ ',' ∉ digits := by
    constructor
    all_goals
      intro h
      obtain ⟨d, -, hd⟩ := mem_map.mp h
    · exact (digit_plain d).1 hd
    · exact (digit_plain d).2 hd
  have hdata : ∀ text, text = header.elim spaced (fun text => text ++ ',' :: spaced) →
      (if ',' ∈ text then (text.dropWhile (· ≠ ',')).drop 1 else text) = spaced := by
    rintro text rfl
    cases header with
    | none =>
      apply if_neg
      intro hcomma
      have hmem : ',' ∈ spaced.filter fun c => !isSpace c := mem_filter.mpr ⟨hcomma, by decide⟩
      rw [hspaced, hbase64, mem_append] at hmem
      exact hmem.elim hplain.2 fun h => absurd (eq_of_mem_replicate h) (by decide)
    | some text =>
      have hkept : ∀ c ∈ text, decide (c ≠ ',') = true := fun c hc => decide_eq_true fun h => hheader text rfl (h ▸ hc)
      rw [Option.elim_some, if_pos (by simp), dropWhile_append_of_pos hkept]
      rfl
  have hclean : (standardBase64 bs padded).length = digits.length + k := by
    rw [hbase64, length_append, length_replicate]
  simp only [base64ToUint8Array, hdata _ rfl, hspaced]
  rw [hclean, hbase64, padding_append hplain.1 hk, hsize, ← hbase64]
  refine decodeLoop_text padded bs [] (replicate bs.length 0) length_replicate ?_
  rw [length_nil]
  omega

theorem base64_reads_back_header : base64ToUint8Array "data:x;base64,Q\nQ = =".toList = [65] :=
  @base64_reads_back [65] true (some "data:x;base64".toList) "Q\nQ = =".toList (by decide +kernel) (by decide +kernel)

end Soter.SyncQueue
