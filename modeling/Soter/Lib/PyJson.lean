import Mathlib.Data.Bool.AllAny
import Soter.Lib.JsonRoundTrip

/-! The texts that Python's `json.dumps` writes with `sort_keys=True`: different values have different texts, and each is read back
from its own. -/
namespace Soter.PyJson
open Soter.Json List

variable {Num : Type}

def hex4 (n : ℕ) : Text := [hexDigit (n / 4096), hexDigit (n / 256 % 16), hexDigit (n / 16 % 16), hexDigit (n % 16)]

/-- `ensure_ascii`: what is not printable ASCII is written as one or two code units. -/
def escapeChar (c : Char) : Text :=
  if c = '"' then ['\\', '"']
  else if c = '\\' then ['\\', '\\']
  else if c = '\x08' then ['\\', 'b']
  else if c = '\x0c' then ['\\', 'f']
  else if c = '\n' then ['\\', 'n']
  else if c = '\r' then ['\\', 'r']
  else if c = '\t' then ['\\', 't']
  else if 0x20 ≤ c.toNat ∧ c.toNat ≤ 0x7E then [c]
  else if c.toNat < 0x10000 then '\\' :: 'u' :: hex4 c.toNat
  else
    '\\' :: 'u' :: (hex4 (0xD800 + (c.toNat - 0x10000) / 0x400) ++
      '\\' :: 'u' :: hex4 (0xDC00 + (c.toNat - 0x10000) % 0x400))

def quote (s : Text) : Text := '"' :: (s.flatMap escapeChar ++ ['"'])

theorem codeUnit_hex4 {n : ℕ} (hn : n < 0x10000) (cs : Text) : codeUnit (hex4 n ++ cs) = some (n, cs) := by
  have h1 := hexValue_hexDigit (n / 4096) (by omega)
  have h2 := hexValue_hexDigit (n / 256 % 16) (by omega)
  have h3 := hexValue_hexDigit (n / 16 % 16) (by omega)
  have h4 := hexValue_hexDigit (n % 16) (by omega)
  have hsum : ((16 * (n / 4096) + n / 256 % 16) * 16 + n / 16 % 16) * 16 + n % 16 = n := by omega
  simp only [hex4, cons_append, nil_append, codeUnit, h1, h2, h3, h4, Option.bind_eq_bind, Option.bind_some,
    Option.pure_def, hsum]

theorem unescape_unit {c : Char} (hc : c.toNat < 0x10000) (cs : Text) :
    unescape ('u' :: (hex4 c.toNat ++ cs)) = some (c, cs) := by
  have hvalid : ¬ (0xD800 ≤ c.toNat ∧ c.toNat < 0xE000) := by
    rcases c.valid with hlow | ⟨hhigh, -⟩
    · have hlow : c.toNat < 0xD800 := hlow
      omega
    · have hhigh : 0xDFFF < c.toNat := hhigh
      omega
  simp only [unescape, codeUnit_hex4 hc]
  rw [if_neg (by omega), if_neg (by omega), Char.ofNat_toNat]

theorem unescape_pair {c : Char} (hc : 0x10000 ≤ c.toNat) (cs : Text) :
    unescape ('u' :: (hex4 (0xD800 + (c.toNat - 0x10000) / 0x400) ++
      '\\' :: 'u' :: (hex4 (0xDC00 + (c.toNat - 0x10000) % 0x400) ++ cs))) = some (c, cs) := by
  have hvalid : c.toNat < 0x110000 := by
    rcases c.valid with hlow | ⟨-, hhigh⟩
    · exact hlow.trans (by decide)
    · exact hhigh
  have hhigh : 0xD800 + (c.toNat - 0x10000) / 0x400 < 0xDC00 := by omega
  have hlow : 0xDC00 + (c.toNat - 0x10000) % 0x400 < 0xE000 := by omega
  have hvalue : 0x10000 + (0xD800 + (c.toNat - 0x10000) / 0x400 - 0xD800) * 0x400
      + (0xDC00 + (c.toNat - 0x10000) % 0x400 - 0xDC00) = c.toNat := by omega
  simp only [unescape]
  rw [codeUnit_hex4 (by omega)]
  simp only
  rw [if_pos ⟨by omega, hhigh⟩]
  simp only [codeUnit_hex4 (show 0xDC00 + (c.toNat - 0x10000) % 0x400 < 0x10000 by omega)]
  rw [if_pos ⟨by omega, hlow⟩, hvalue, Char.ofNat_toNat]

theorem parseString_escapeChar (n : ℕ) (c : Char) (cs : Text) :
    parseString (n + 1) (escapeChar c ++ cs) = (parseString n cs).map fun res => (c :: res.1, res.2) := by
  unfold escapeChar
  iterate 7
    split
    · subst_vars; rfl
  rename_i hquote hbackslash _ _ _ _ _
  split
  · rename_i hplain
    simp only [cons_append, nil_append, parseString, if_neg hquote, if_neg hbackslash,
      if_neg (show ¬ c.toNat < 0x20 by omega)]
  split
  · rename_i hunit
    simp only [cons_append, parseString, unescape_unit hunit]
    simp
  · rename_i hpair
    simp only [cons_append, append_assoc, parseString, unescape_pair (Nat.le_of_not_lt hpair)]
    simp

theorem quote_append_inj {s s' rest rest' : Text} (h : quote s ++ rest = quote s' ++ rest') : s = s' ∧ rest = rest' := by
  simp only [quote, List.cons_append, List.append_assoc, List.nil_append, List.cons.injEq, true_and] at h
  let fuel := (s.flatMap escapeChar).length + (s'.flatMap escapeChar).length + 1
  have hread := parseString_escaped parseString_escapeChar rest s fuel (by omega)
  have hread' := parseString_escaped parseString_escapeChar rest' s' fuel (by omega)
  rw [h, hread', Option.some.injEq, Prod.mk.injEq] at hread
  exact ⟨hread.1.symm, hread.2.symm⟩

section Dumps

def KeyLE (k k' : Text) : Prop := k.map Char.toNat ≤ k'.map Char.toNat

instance : DecidableRel KeyLE := fun k k' => inferInstanceAs (Decidable (k.map Char.toNat ≤ k'.map Char.toNat))

def sortKeys {β : Type} (ms : List (Text × β)) : List (Text × β) := ms.insertionSort fun m m' => KeyLE m.1 m'.1

mutual
/-- The value with the members of each object in the order of their keys. -/
def ordered : Value Num → Value Num
  | .null => .null
  | .bool b => .bool b
  | .num n => .num n
  | .str s => .str s
  | .arr items => .arr (orderedItems items)
  | .obj members => .obj (sortKeys (orderedMembers members))

def orderedItems : List (Value Num) → List (Value Num)
  | [] => []
  | v :: vs => ordered v :: orderedItems vs

def orderedMembers : List (Text × Value Num) → List (Text × Value Num)
  | [] => []
  | (k, v) :: ms => (k, ordered v) :: orderedMembers ms
end

variable (numerals : Numerals Num)

mutual
/-- A value as it stands, with `", "` between items and `": "` after a key. -/
def written : Value Num → Text
  | .null => ['n', 'u', 'l', 'l']
  | .bool true => ['t', 'r', 'u', 'e']
  | .bool false => ['f', 'a', 'l', 's', 'e']
  | .num n => numerals.text n
  | .str s => quote s
  | .arr items => '[' :: writtenItems items
  | .obj members => '{' :: writtenMembers members

def writtenItems : List (Value Num) → Text
  | [] => [']']
  | [v] => written v ++ [']']
  | v :: w :: vs => written v ++ (',' :: ' ' :: writtenItems (w :: vs))

def writtenMembers : List (Text × Value Num) → Text
  | [] => ['}']
  | [(k, v)] => quote k ++ (':' :: ' ' :: (written v ++ ['}']))
  | (k, v) :: m :: ms => quote k ++ (':' :: ' ' :: (written v ++ (',' :: ' ' :: writtenMembers (m :: ms))))
end

/-- `json.dumps(v, sort_keys=True)` -/
def dumps (v : Value Num) : Text := written numerals (ordered v)

end Dumps
section Injective
variable {numerals : Numerals Num} {v w : Value Num} {rest rest' : Text}

/-- What a text starts with says which kind of value it is of. -/
inductive Kind
  | null | true | false | num | str | arr | obj
  deriving DecidableEq

def kindOf : Value Num → Kind
  | .null => .null
  | .bool true => .true
  | .bool false => .false
  | .num _ => .num
  | .str _ => .str
  | .arr _ => .arr
  | .obj _ => .obj

def kindAt (c : Char) : Kind :=
  if c = '"' then .str
  else if c = '[' then .arr
  else if c = '{' then .obj
  else if c = 'n' then .null
  else if c = 't' then .true
  else if c = 'f' then .false
  else .num

theorem head_written (numerals : Numerals Num) (v : Value Num) : ∃ c t, written numerals v = c :: t ∧ kindAt c = kindOf v ∧ isWhitespace c = false ∧
    c ≠ ']' ∧ c ≠ '}' := by
  cases v with
  | null => exact ⟨_, _, rfl, rfl, rfl, by decide, by decide⟩
  | bool b => cases b <;> exact ⟨_, _, rfl, rfl, rfl, by decide, by decide⟩
  | num n =>
    obtain ⟨c, t, ht⟩ := exists_cons_of_ne_nil (numerals.text_ne_nil n)
    have hnumber : isNumberChar c = true := numerals.text_chars n c (ht ▸ mem_cons_self ..)
    obtain ⟨hspace, hquote, hbracket, hbrace, hn, htrue, hfalse⟩ := isNumberChar_ne hnumber
    refine ⟨c, t, ht, ?_, hspace, ?_, ?_⟩
    · rw [kindAt, if_neg hquote, if_neg hbracket, if_neg hbrace, if_neg hn, if_neg htrue, if_neg hfalse]
      rfl
    · rintro rfl
      exact absurd hnumber (by decide)
    · rintro rfl
      exact absurd hnumber (by decide)
  | str s | arr items | obj members => exact ⟨_, _, rfl, rfl, rfl, by decide, by decide⟩

theorem kind_eq (h : written numerals v ++ rest = written numerals w ++ rest') : kindOf v = kindOf w := by
  obtain ⟨c, t, ht, hkind, -⟩ := head_written numerals v
  obtain ⟨c', t', ht', hkind', -⟩ := head_written numerals w
  rw [ht, ht', cons_append, cons_append, cons.injEq] at h
  rw [← hkind, ← hkind', h.1]

theorem num_append_inj {n n' : Num} (hrest : Delimited rest) (hrest' : Delimited rest')
    (h : numerals.text n ++ rest = numerals.text n' ++ rest') : n = n' ∧ rest = rest' := by
  have hread : parseValue numerals (numerals.text n ++ rest).length (numerals.text n ++ rest) = some (.num n, rest) :=
    reads_num n _ rest (by simp) hrest
  have hread' : parseValue numerals (numerals.text n' ++ rest').length (numerals.text n' ++ rest')
      = some (.num n', rest') := reads_num n' _ rest' (by simp) hrest'
  rw [h, hread', Option.some.injEq, Prod.mk.injEq, Value.num.injEq] at hread
  exact ⟨hread.1.symm, hread.2.symm⟩

mutual
/-- By induction on the value: its text ends where it ends, and is the text of no other value. -/
theorem written_append_inj : ∀ (v w : Value Num) {rest rest' : Text}, Delimited rest → Delimited rest' →
    written numerals v ++ rest = written numerals w ++ rest' → v = w ∧ rest = rest'
  | .null, w, rest, rest', _, _, h => by
    have hkind := kind_eq h
    cases w with
    | null => exact ⟨rfl, append_cancel_left h⟩
    | bool b => cases b <;> cases hkind
    | _ => cases hkind
  | .bool b, w, rest, rest', _, _, h => by
    have hkind := kind_eq h
    cases w with
    | bool b' =>
      cases b <;> cases b'
      · exact ⟨rfl, append_cancel_left h⟩
      · cases hkind
      · cases hkind
      · exact ⟨rfl, append_cancel_left h⟩
    | _ => cases b <;> cases hkind
  | .num n, w, rest, rest', hrest, hrest', h => by
    have hkind := kind_eq h
    cases w with
    | num n' =>
      obtain ⟨rfl, hrest⟩ := num_append_inj hrest hrest' h
      exact ⟨rfl, hrest⟩
    | bool b => cases b <;> cases hkind
    | _ => cases hkind
  | .str s, w, rest, rest', _, _, h => by
    have hkind := kind_eq h
    cases w with
    | str s' =>
      obtain ⟨rfl, hrest⟩ := quote_append_inj h
      exact ⟨rfl, hrest⟩
    | bool b => cases b <;> cases hkind
    | _ => cases hkind
  | .arr items, w, rest, rest', _, _, h => by
    have hkind := kind_eq h
    cases w with
    | arr items' =>
      have hitems : writtenItems numerals items ++ rest = writtenItems numerals items' ++ rest' := by
        simpa only [written, cons_append, cons.injEq, true_and] using h
      obtain ⟨rfl, hrest⟩ := writtenItems_append_inj items items' hitems
      exact ⟨rfl, hrest⟩
    | bool b => cases b <;> cases hkind
    | _ => cases hkind
  | .obj members, w, rest, rest', _, _, h => by
    have hkind := kind_eq h
    cases w with
    | obj members' =>
      have hmembers : writtenMembers numerals members ++ rest = writtenMembers numerals members' ++ rest' := by
        simpa only [written, cons_append, cons.injEq, true_and] using h
      obtain ⟨rfl, hrest⟩ := writtenMembers_append_inj members members' hmembers
      exact ⟨rfl, hrest⟩
    | bool b => cases b <;> cases hkind
    | _ => cases hkind

theorem writtenItems_append_inj : ∀ (vs ws : List (Value Num)) {rest rest' : Text},
    writtenItems numerals vs ++ rest = writtenItems numerals ws ++ rest' → vs = ws ∧ rest = rest'
  | [], ws, rest, rest', h => by
    cases ws with
    | nil => exact ⟨rfl, append_cancel_left h⟩
    | cons w ws =>
      obtain ⟨c, t, ht, -, -, hc, -⟩ := head_written numerals w
      cases ws <;> simp [writtenItems, ht, Ne.symm hc] at h
  | [v], ws, rest, rest', h => by
    cases ws with
    | nil =>
      obtain ⟨c, t, ht, -, -, hc, -⟩ := head_written numerals v
      simp [writtenItems, ht, hc] at h
    | cons w ws =>
      cases ws with
      | nil =>
        simp only [writtenItems, append_assoc, cons_append, nil_append] at h
        obtain ⟨rfl, hrest⟩ := written_append_inj v w (delimited_cons rfl) (delimited_cons rfl) h
        exact ⟨rfl, (cons.inj hrest).2⟩
      | cons w' ws =>
        simp only [writtenItems, append_assoc, cons_append, nil_append] at h
        obtain ⟨-, hrest⟩ := written_append_inj v w (delimited_cons rfl) (delimited_cons rfl) h
        cases hrest
  | v :: v' :: vs, ws, rest, rest', h => by
    cases ws with
    | nil =>
      obtain ⟨c, t, ht, -, -, hc, -⟩ := head_written numerals v
      simp [writtenItems, ht, hc] at h
    | cons w ws =>
      cases ws with
      | nil =>
        simp only [writtenItems, append_assoc, cons_append, nil_append] at h
        obtain ⟨-, hrest⟩ := written_append_inj v w (delimited_cons rfl) (delimited_cons rfl) h
        cases hrest
      | cons w' ws =>
        simp only [writtenItems, append_assoc, cons_append] at h
        obtain ⟨rfl, hrest⟩ := written_append_inj v w (delimited_cons rfl) (delimited_cons rfl) h
        simp only [cons.injEq, true_and] at hrest
        obtain ⟨hvs, hrest⟩ := writtenItems_append_inj (v' :: vs) (w' :: ws) hrest
        exact ⟨by rw [hvs], hrest⟩

theorem writtenMembers_append_inj : ∀ (ms ms' : List (Text × Value Num)) {rest rest' : Text},
    writtenMembers numerals ms ++ rest = writtenMembers numerals ms' ++ rest' → ms = ms' ∧ rest = rest'
  | [], ms', rest, rest', h => by
    match ms' with
    | [] => exact ⟨rfl, append_cancel_left h⟩
    | [(k, v)] => simp [writtenMembers, quote] at h
    | (k, v) :: m :: ms' => simp [writtenMembers, quote] at h
  | [(k, v)], ms', rest, rest', h => by
    match ms' with
    | [] => simp [writtenMembers, quote] at h
    | [(k', v')] =>
      simp only [writtenMembers, append_assoc, cons_append, nil_append] at h
      obtain ⟨rfl, hvalue⟩ := quote_append_inj h
      simp only [cons.injEq, true_and] at hvalue
      obtain ⟨rfl, hrest⟩ := written_append_inj v v' (delimited_cons rfl) (delimited_cons rfl) hvalue
      exact ⟨rfl, (cons.inj hrest).2⟩
    | (k', v') :: m :: ms' =>
      simp only [writtenMembers, append_assoc, cons_append, nil_append] at h
      obtain ⟨rfl, hvalue⟩ := quote_append_inj h
      simp only [cons.injEq, true_and] at hvalue
      obtain ⟨-, hrest⟩ := written_append_inj v v' (delimited_cons rfl) (delimited_cons rfl) hvalue
      cases hrest
  | (k, v) :: m :: ms, ms', rest, rest', h => by
    match ms' with
    | [] => simp [writtenMembers, quote] at h
    | [(k', v')] =>
      simp only [writtenMembers, append_assoc, cons_append, nil_append] at h
      obtain ⟨rfl, hvalue⟩ := quote_append_inj h
      simp only [cons.injEq, true_and] at hvalue
      obtain ⟨-, hrest⟩ := written_append_inj v v' (delimited_cons rfl) (delimited_cons rfl) hvalue
      cases hrest
    | (k', v') :: m' :: ms' =>
      simp only [writtenMembers, append_assoc, cons_append] at h
      obtain ⟨rfl, hvalue⟩ := quote_append_inj h
      simp only [cons.injEq, true_and] at hvalue
      obtain ⟨rfl, hrest⟩ := written_append_inj v v' (delimited_cons rfl) (delimited_cons rfl) hvalue
      simp only [cons.injEq, true_and] at hrest
      obtain ⟨hms, hrest⟩ := writtenMembers_append_inj (m :: ms) (m' :: ms') hrest
      exact ⟨by rw [hms], hrest⟩
end

theorem sortKeys_perm {β : Type} (ms : List (Text × β)) : (sortKeys ms).Perm ms := perm_insertionSort _ ms

theorem orderedItems_eq : ∀ vs : List (Value Num), orderedItems vs = vs.map ordered
  | [] => rfl
  | v :: vs => by rw [orderedItems, orderedItems_eq vs, map_cons]

theorem orderedMembers_eq : ∀ ms : List (Text × Value Num), orderedMembers ms = ms.map fun m => (m.1, ordered m.2)
  | [] => rfl
  | (k, v) :: ms => by rw [orderedMembers, orderedMembers_eq ms, map_cons]

/-- Sorting the members changes nothing but their order. -/
theorem ordered_same (hv : v.WF) : (ordered v).Same v := by
  induction hv with
  | null | bool b | num n | str s => rfl
  | @arr items _ ih =>
    rw [ordered, orderedItems_eq, same_arr, forall₂_map_left_iff, forall₂_same]
    exact ih
  | @obj members hkeys _ ih =>
    rw [ordered, orderedMembers_eq]
    simp only [Value.Same, Value.sorted, sortedMembers_eq, Value.obj.injEq]
    have hperm := sortKeys_perm (members.map fun m => (m.1, ordered m.2))
    have hkeys' : (((sortKeys (members.map fun m => (m.1, ordered m.2))).map fun m =>
        (m.1, m.2.sorted)).map Prod.fst).Nodup := by
      rw [map_fst_map]
      refine (hperm.map Prod.fst).nodup_iff.mpr ?_
      rwa [map_fst_map]
    calc
      _ = sortMembers ((members.map fun m => (m.1, ordered m.2)).map fun m => (m.1, m.2.sorted)) :=
        sortMembers_of_perm hkeys' (hperm.map _)
      _ = sortMembers (members.map fun m => (m.1, m.2.sorted)) := by
        rw [map_map]
        congr 1
        apply map_congr_left
        intro m hm
        exact congrArg (Prod.mk m.1) (ih m hm)

variable {items : List (Value Num)} {members : List (Text × Value Num)} {ws : Text}

theorem sortKeys_sortKeys {β : Type} (ms : List (Text × β)) : sortKeys (sortKeys ms) = sortKeys ms := by
  have htotal : Std.Total fun m m' : Text × β => KeyLE m.1 m'.1 := ⟨fun m m' => le_total (m.1.map Char.toNat) (m'.1.map Char.toNat)⟩
  have htrans : IsTrans (Text × β) fun m m' => KeyLE m.1 m'.1 := ⟨fun _ _ _ h h' => le_trans (α := List ℕ) h h'⟩
  exact (pairwise_insertionSort _ ms).insertionSort_eq

theorem ordered_wf (hv : v.WF) : (ordered v).WF := by
  induction hv with
  | null => exact .null
  | bool b => exact .bool b
  | num n => exact .num n
  | str s => exact .str s
  | @arr items _ ih =>
    rw [ordered, orderedItems_eq]
    exact .arr (forall_mem_map.mpr ih)
  | @obj members hkeys _ ih =>
    rw [ordered, orderedMembers_eq]
    have hperm := sortKeys_perm (members.map fun m => (m.1, ordered m.2))
    refine .obj ?_ fun m hm => ?_
    · rw [(hperm.map Prod.fst).nodup_iff, map_fst_map]
      exact hkeys
    · obtain ⟨m', hm', rfl⟩ := mem_map.mp (hperm.mem_iff.mp hm)
      exact ih m' hm'

theorem ordered_ordered (hv : v.WF) : ordered (ordered v) = ordered v := by
  induction hv with
  | null | bool b | num n | str s => rfl
  | @arr items _ ih =>
    rw [ordered, ordered, orderedItems_eq, orderedItems_eq, map_map]
    exact congrArg Value.arr (map_congr_left ih)
  | @obj members hkeys _ ih =>
    have hsame : (sortKeys (members.map fun m => (m.1, ordered m.2))).map (fun m => (m.1, ordered m.2)) =
        sortKeys (members.map fun m => (m.1, ordered m.2)) := by
      apply (map_congr_left (g := id) _).trans (map_id _)
      intro m hm
      obtain ⟨m', hm', rfl⟩ := mem_map.mp ((sortKeys_perm _).mem_iff.mp hm)
      exact congrArg (Prod.mk m'.1) (ih m' hm')
    rw [ordered, ordered, orderedMembers_eq, orderedMembers_eq, hsame, sortKeys_sortKeys]

theorem blank_ws : ∀ c ∈ [' '], isWhitespace c = true := all_iff_forall_prop.mp (by decide)

variable (rest) in
/-- The items are read one after the other, whatever whitespace the first of them has before it. -/
theorem parse_writtenItems : ∀ {items : List (Value Num)}, items ≠ [] → (∀ v ∈ items, Reads numerals (written numerals v) v) →
    ∀ {ws : Text}, (∀ c ∈ ws, isWhitespace c = true) → ∀ n, (ws ++ writtenItems numerals items).length ≤ n →
      parseItems numerals n (ws ++ (writtenItems numerals items ++ rest)) = some (items, rest)
  | [v], _, hitems, ws, hws, n, hn => by
    simp only [writtenItems, length_append, length_singleton] at hn
    cases n with
    | zero => omega
    | succ n =>
      have hvalue := (hitems v (by simp)).after_ws hws n (']' :: rest) (by simp only [length_append]; omega) (delimited_cons rfl)
      simp only [writtenItems, append_assoc, singleton_append] at hvalue ⊢
      rw [parseItems, hvalue]
      simp only [skipWs_cons (show isWhitespace ']' = false from rfl)]
  | v :: w :: items, _, hitems, ws, hws, n, hn => by
    simp only [writtenItems, length_append, length_cons] at hn
    cases n with
    | zero => omega
    | succ n =>
      have htail := parse_writtenItems (cons_ne_nil w items) (fun v' hv' => hitems v' (mem_cons_of_mem v hv'))
        blank_ws n (by simp only [length_append, length_singleton]; omega)
      have hvalue := (hitems v (by simp)).after_ws hws n (',' :: ' ' :: (writtenItems numerals (w :: items) ++ rest))
        (by simp only [length_append]; omega) (delimited_cons rfl)
      simp only [writtenItems, append_assoc, cons_append, nil_append] at hvalue htail ⊢
      rw [parseItems, hvalue]
      simp only [skipWs_cons (show isWhitespace ',' = false from rfl), htail, Option.map_some]

variable (rest) in
theorem parse_writtenMembers : ∀ {members : List (Text × Value Num)}, members ≠ [] →
    (∀ m ∈ members, Reads numerals (written numerals m.2) m.2) → ∀ {ws : Text}, (∀ c ∈ ws, isWhitespace c = true) →
      ∀ n, (ws ++ writtenMembers numerals members).length ≤ n →
        parseMembers numerals n (ws ++ (writtenMembers numerals members ++ rest)) = some (members, rest)
  | [(k, v)], _, hmembers, ws, hws, n, hn => by
    simp only [writtenMembers, quote, length_append, length_cons, length_nil] at hn
    cases n with
    | zero => omega
    | succ n =>
      have hstring := parseString_escaped parseString_escapeChar (':' :: ' ' :: (written numerals v ++ '}' :: rest)) k n (by omega)
      have hvalue := (hmembers (k, v) (by simp)).after_ws blank_ws n ('}' :: rest)
        (by simp only [length_append, length_singleton]; omega) (delimited_cons rfl)
      simp only [cons_append, nil_append] at hvalue
      simp only [writtenMembers, quote, append_assoc, cons_append, nil_append]
      rw [parseMembers, skipWs_append hws, skipWs_cons rfl]
      simp only [hstring, skipWs_cons (show isWhitespace ':' = false from rfl), hvalue,
        skipWs_cons (show isWhitespace '}' = false from rfl)]
  | (k, v) :: m :: members, _, hmembers, ws, hws, n, hn => by
    simp only [writtenMembers, quote, length_append, length_cons, length_nil] at hn
    cases n with
    | zero => omega
    | succ n =>
      have htail := parse_writtenMembers (cons_ne_nil m members)
        (fun m' hm' => hmembers m' (mem_cons_of_mem (k, v) hm')) blank_ws n
        (by simp only [length_append, length_singleton]; omega)
      have hstring := parseString_escaped parseString_escapeChar
        (':' :: ' ' :: (written numerals v ++ ',' :: ' ' :: (writtenMembers numerals (m :: members) ++ rest))) k n (by omega)
      have hvalue := (hmembers (k, v) (by simp)).after_ws blank_ws n (',' :: ' ' :: (writtenMembers numerals (m :: members) ++ rest))
        (by simp only [length_append, length_singleton]; omega) (delimited_cons rfl)
      simp only [cons_append, nil_append] at hvalue htail
      simp only [writtenMembers, quote, append_assoc, cons_append, nil_append]
      rw [parseMembers, skipWs_append hws, skipWs_cons rfl]
      simp only [hstring, skipWs_cons (show isWhitespace ':' = false from rfl), hvalue,
        skipWs_cons (show isWhitespace ',' = false from rfl), htail, Option.map_some]

theorem reads_written (hv : v.WF) : Reads numerals (written numerals v) v := by
  have hnil : ∀ c ∈ ([] : Text), isWhitespace c = true := by simp
  induction hv with
  | null =>
    intro n rest hn _
    cases n with
    | zero => cases hn
    | succ n => rfl
  | bool b =>
    intro n rest hn _
    cases b <;> cases n with
    | zero => cases hn
    | succ n => rfl
  | num n => exact reads_num n
  | str s =>
    intro n rest hn _
    simp only [written, quote, length_cons, length_append, length_nil] at hn
    cases n with
    | zero => omega
    | succ n =>
      have hstring := parseString_escaped parseString_escapeChar rest s n (by omega)
      rw [written, quote, cons_append, append_assoc, singleton_append, parseValue, skipWs_cons rfl]
      simp only [if_true, hstring, Option.map_some]
  | @arr items _ ih =>
    intro n rest hn _
    simp only [written, length_cons] at hn
    cases n with
    | zero => omega
    | succ n =>
      rw [written, cons_append, parseValue, skipWs_cons rfl]
      simp only [if_neg (show ¬ '[' = '"' by decide), if_true]
      cases items with
      | nil => rfl
      | cons v items =>
        have hn' : ([] ++ writtenItems numerals (v :: items)).length ≤ n := by
          rw [List.nil_append]
          omega
        have hitems := parse_writtenItems rest (by simp) ih hnil n hn'
        obtain ⟨c, t, ht, -, hspace, hbracket, -⟩ := head_written numerals v
        obtain ⟨t', ht'⟩ : ∃ t', writtenItems numerals (v :: items) ++ rest = c :: t' := by
          cases items <;> simp only [writtenItems, ht, List.cons_append] <;> exact ⟨_, rfl⟩
        rw [List.nil_append] at hitems
        rw [ht', skipWs_cons hspace]
        rw [ht'] at hitems
        split
        · rename_i rest' heq
          cases heq
          exact absurd rfl hbracket
        · rw [hitems, Option.map_some]
  | @obj members hkeys _ ih =>
    intro n rest hn _
    simp only [written, List.length_cons] at hn
    cases n with
    | zero => omega
    | succ n =>
      rw [written, List.cons_append, parseValue, skipWs_cons rfl]
      simp only [if_neg (show ¬ '{' = '"' by decide), if_neg (show ¬ '{' = '[' by decide), if_true]
      cases members with
      | nil => rfl
      | cons m members =>
        have hn' : ([] ++ writtenMembers numerals (m :: members)).length ≤ n := by
          rw [nil_append]
          omega
        have hmembers := parse_writtenMembers rest (by simp) ih hnil n hn'
        obtain ⟨t', ht'⟩ : ∃ t', writtenMembers numerals (m :: members) ++ rest = '"' :: t' := by
          cases members <;> simp only [writtenMembers, quote, cons_append] <;> exact ⟨_, rfl⟩
        rw [nil_append] at hmembers
        rw [ht', skipWs_cons rfl]
        rw [ht'] at hmembers
        split
        · rename_i rest' heq
          cases heq
        · rw [hmembers, Option.map_some, foldl_setMember (m :: members) [] hkeys, nil_append]

/-- `json.loads` after `json.dumps`. -/
theorem parse_dumps (hv : v.WF) : parse numerals (dumps numerals v) = some (ordered v) := by
  have hread : Reads numerals (dumps numerals v) (ordered v) := reads_written (ordered_wf hv)
  have hparse := hread ((dumps numerals v).length + 1) [] (by omega) (fun c hc => absurd hc (Option.not_mem_none c))
  rw [append_nil] at hparse
  rw [parse, hparse]
  rfl

end Injective
section Ascii
variable {numerals : Numerals Num}

def isPrintable (c : Char) : Bool := 0x20 ≤ c.toNat && c.toNat ≤ 0x7E

theorem hexDigit_printable (n : ℕ) : isPrintable (hexDigit n) = true := by
  by_cases hn : n < 16
  · exact (by decide : ∀ n < 16, isPrintable (hexDigit n) = true) n hn
  · have hdefault : hexDigit n = '0' := by
      rw [hexDigit, getD_eq_getElem?_getD, getElem?_eq_none (by simp; omega), Option.getD_none]
    rw [hdefault]
    decide

theorem hex4_printable (n : ℕ) : ∀ e ∈ hex4 n, isPrintable e = true := by
  intro e he
  simp only [hex4, mem_cons, not_mem_nil, or_false] at he
  rcases he with rfl | rfl | rfl | rfl <;> exact hexDigit_printable _

theorem escapeChar_printable (c : Char) : ∀ e ∈ escapeChar c, isPrintable e = true := by
  have hunit (n : ℕ) : ∀ e ∈ '\\' :: 'u' :: hex4 n, isPrintable e = true := by
    intro e he
    rcases mem_cons.mp he with rfl | he
    · rfl
    · rcases mem_cons.mp he with rfl | he
      · rfl
      · exact hex4_printable n e he
  unfold escapeChar
  iterate 7
    split
    · exact all_iff_forall_prop.mp (by decide)
  split
  · rename_i hc
    intro e he
    rw [mem_singleton.mp he]
    simpa [isPrintable] using hc
  split
  · exact hunit _
  · rw [← cons_append, ← cons_append]
    exact forall_mem_append.mpr ⟨hunit _, hunit _⟩

theorem quote_printable (s : Text) : ∀ c ∈ quote s, isPrintable c = true := by
  intro c hc
  simp only [quote, mem_cons, mem_append, mem_flatMap, not_mem_nil, or_false] at hc
  rcases hc with rfl | ⟨d, -, hc⟩ | rfl
  · rfl
  · exact escapeChar_printable d c hc
  · rfl

theorem isPrintable_number {c : Char} (h : isNumberChar c = true) : isPrintable c = true := by
  simp only [isNumberChar, Bool.or_eq_true, decide_eq_true_eq, mem_cons, not_mem_nil, or_false] at h
  rcases h with h | rfl | rfl | rfl | rfl | rfl
  · rw [Char.isDigit, Bool.and_eq_true, decide_eq_true_eq, decide_eq_true_eq] at h
    have hlow : 48 ≤ c.toNat := h.1
    have hhigh : c.toNat ≤ 57 := h.2
    simp only [isPrintable, Bool.and_eq_true, decide_eq_true_eq]
    omega
  all_goals rfl

mutual
theorem written_printable : ∀ v : Value Num, ∀ c ∈ written numerals v, isPrintable c = true
  | .null => by simp [written]; decide
  | .bool true => by simp [written]; decide
  | .bool false => by simp [written]; decide
  | .num n => fun c hc => isPrintable_number (numerals.text_chars n c hc)
  | .str s => quote_printable s
  | .arr items => forall_mem_cons.mpr ⟨rfl, writtenItems_printable items⟩
  | .obj members => forall_mem_cons.mpr ⟨rfl, writtenMembers_printable members⟩

theorem writtenItems_printable : ∀ vs : List (Value Num), ∀ c ∈ writtenItems numerals vs, isPrintable c = true
  | [] => by simp [writtenItems]; decide
  | [v] => forall_mem_append.mpr ⟨written_printable v, by simp; decide⟩
  | v :: w :: vs => forall_mem_append.mpr ⟨written_printable v,
      forall_mem_cons.mpr ⟨rfl, forall_mem_cons.mpr ⟨rfl, writtenItems_printable (w :: vs)⟩⟩⟩

theorem writtenMembers_printable : ∀ ms : List (Text × Value Num), ∀ c ∈ writtenMembers numerals ms, isPrintable c = true
  | [] => by simp [writtenMembers]; decide
  | [(k, v)] => forall_mem_append.mpr ⟨quote_printable k, forall_mem_cons.mpr ⟨rfl, forall_mem_cons.mpr ⟨rfl,
      forall_mem_append.mpr ⟨written_printable v, by simp; decide⟩⟩⟩⟩
  | (k, v) :: m :: ms => forall_mem_append.mpr ⟨quote_printable k, forall_mem_cons.mpr ⟨rfl, forall_mem_cons.mpr ⟨rfl,
      forall_mem_append.mpr ⟨written_printable v, forall_mem_cons.mpr ⟨rfl, forall_mem_cons.mpr ⟨rfl,
        writtenMembers_printable (m :: ms)⟩⟩⟩⟩⟩⟩
end
end Ascii
end Soter.PyJson
