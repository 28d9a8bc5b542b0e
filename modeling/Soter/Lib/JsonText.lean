import Soter.Lib.Json

/-! JSON texts: `JSON.stringify` with an indentation and `JSON.parse`. -/
namespace Soter.Json

variable {Num : Type}

def isNumberChar (c : Char) : Bool := c.isDigit || c ∈ ['-', '+', '.', 'e', 'E']

/-- How the numbers of a program are written and read; `Num` are the finite numbers that `===` tells
apart. -/
structure Numerals (Num : Type) where
  text : Num → Text
  read : Text → Option Num
  text_ne_nil : ∀ n, text n ≠ []
  text_chars : ∀ n, ∀ c ∈ text n, isNumberChar c = true
  read_text : ∀ n, read (text n) = some n

/-- The numerals of a program whose numbers are naturals. -/
def Numerals.nat : Numerals ℕ where
  text := Nat.toDigits 10
  read t := if t.all Char.isDigit then some (Nat.ofDigitChars 10 t 0) else none
  text_ne_nil n := Nat.toDigits_ne_nil
  text_chars n c hc := by simp [isNumberChar, Nat.isDigit_of_mem_toDigits (by decide) le_rfl hc]
  read_text n := by
    have hdigits : (Nat.toDigits 10 n).all Char.isDigit = true :=
      List.all_eq_true.mpr fun c hc => Nat.isDigit_of_mem_toDigits (by decide) le_rfl hc
    rw [if_pos hdigits, Nat.ofDigitChars_ten_toDigits]

section Order
variable {β γ : Type}

def indexValue (k : Text) : ℕ := k.foldl (fun n c => 10 * n + (c.toNat - '0'.toNat)) 0

/-- The keys that count as array indices. -/
def isArrayIndex (k : Text) : Bool :=
  k ≠ [] && k.all Char.isDigit && (k.length = 1 || k.head? ≠ some '0') && indexValue k < 4294967295

/-- The order in which the members of an object are visited: the array indices first, from the least
on, then the other keys as they were set. -/
def ownOrder (ms : List (Text × β)) : List (Text × β) :=
  (ms.filter (isArrayIndex ·.1)).insertionSort (fun m m' => indexValue m.1 ≤ indexValue m'.1) ++
    ms.filter (!isArrayIndex ·.1)

theorem ownOrder_perm (ms : List (Text × β)) : (ownOrder ms).Perm ms :=
  ((List.perm_insertionSort _ _).append_right _).trans (List.filter_append_perm _ ms)

theorem ownOrder_map (f : β → γ) (ms : List (Text × β)) :
    ownOrder (ms.map fun m => (m.1, f m.2)) = (ownOrder ms).map fun m => (m.1, f m.2) := by
  simp only [ownOrder, List.filter_map, List.map_append]
  congr 1
  exact (List.map_insertionSort (fun m m' : Text × β => indexValue m.1 ≤ indexValue m'.1)
    (fun m m' : Text × γ => indexValue m.1 ≤ indexValue m'.1) (fun m => (m.1, f m.2)) _
    fun _ _ _ _ => Iff.rfl).symm

end Order

section Stringify

def hexDigit (n : ℕ) : Char := ['0', '1', '2', '3', '4', '5', '6', '7', '8', '9', 'a', 'b', 'c', 'd',
  'e', 'f'].getD n '0'

def escapeChar (c : Char) : Text :=
  if c = '"' then ['\\', '"']
  else if c = '\\' then ['\\', '\\']
  else if c = '\x08' then ['\\', 'b']
  else if c = '\x0c' then ['\\', 'f']
  else if c = '\n' then ['\\', 'n']
  else if c = '\r' then ['\\', 'r']
  else if c = '\t' then ['\\', 't']
  else if c.toNat < 0x20 then ['\\', 'u', '0', '0', hexDigit (c.toNat / 16), hexDigit (c.toNat % 16)]
  else [c]

def quote (s : Text) : Text := '"' :: (s.flatMap escapeChar ++ ['"'])

variable (numerals : Numerals Num) (gap : ℕ)

/-- Without a gap, everything stands on one line. -/
def newline (indent : ℕ) : Text := if gap = 0 then [] else '\n' :: List.replicate indent ' '

def colon : Text := if gap = 0 then [':'] else [':', ' ']

def bracket (opening closing : Char) (indent : ℕ) : List Text → Text
  | [] => [opening, closing]
  | t :: ts => opening :: (newline gap (indent + gap) ++ (t ++
      (ts.flatMap (fun t => ',' :: (newline gap (indent + gap) ++ t)) ++
        (newline gap indent ++ [closing]))))

mutual
def stringifyAt (indent : ℕ) : Value Num → Text
  | .null => ['n', 'u', 'l', 'l']
  | .bool true => ['t', 'r', 'u', 'e']
  | .bool false => ['f', 'a', 'l', 's', 'e']
  | .num n => numerals.text n
  | .str s => quote s
  | .arr items => bracket gap '[' ']' indent (stringifyItems (indent + gap) items)
  | .obj members => bracket gap '{' '}' indent
      ((ownOrder (stringifyMembers (indent + gap) members)).map fun m => quote m.1 ++ (colon gap ++ m.2))

def stringifyItems (indent : ℕ) : List (Value Num) → List Text
  | [] => []
  | v :: vs => stringifyAt indent v :: stringifyItems indent vs

def stringifyMembers (indent : ℕ) : List (Text × Value Num) → List (Text × Text)
  | [] => []
  | (k, v) :: ms => (k, stringifyAt indent v) :: stringifyMembers indent ms
end

/-- `JSON.stringify(v, null, gap)`. -/
def stringify (v : Value Num) : Text := stringifyAt numerals gap 0 v

end Stringify

section Parse

def isWhitespace (c : Char) : Bool := c ∈ [' ', '\t', '\n', '\r']

def skipWs (cs : Text) : Text := cs.dropWhile isWhitespace

def hexValue (c : Char) : Option ℕ :=
  if c.isDigit then some (c.toNat - '0'.toNat)
  else if 'a' ≤ c ∧ c ≤ 'f' then some (c.toNat - 'a'.toNat + 10)
  else if 'A' ≤ c ∧ c ≤ 'F' then some (c.toNat - 'A'.toNat + 10)
  else none

/-- A code unit in hexadecimal, and what follows it. -/
def codeUnit : Text → Option (ℕ × Text)
  | a :: b :: c :: d :: cs => do
    return (((16 * (← hexValue a) + (← hexValue b)) * 16 + (← hexValue c)) * 16 + (← hexValue d), cs)
  | _ => none

/-- The character of an escape sequence after its backslash. Half a surrogate pair is none. -/
def unescape : Text → Option (Char × Text)
  | '"' :: cs => some ('"', cs)
  | '\\' :: cs => some ('\\', cs)
  | '/' :: cs => some ('/', cs)
  | 'b' :: cs => some ('\x08', cs)
  | 'f' :: cs => some ('\x0c', cs)
  | 'n' :: cs => some ('\n', cs)
  | 'r' :: cs => some ('\r', cs)
  | 't' :: cs => some ('\t', cs)
  | 'u' :: cs =>
    match codeUnit cs with
    | none => none
    | some (high, cs) =>
      if 0xD800 ≤ high ∧ high < 0xDC00 then
        match cs with
        | '\\' :: 'u' :: cs =>
          match codeUnit cs with
          | some (low, cs) =>
            if 0xDC00 ≤ low ∧ low < 0xE000 then
              some (Char.ofNat (0x10000 + (high - 0xD800) * 0x400 + (low - 0xDC00)), cs)
            else none
          | none => none
        | _ => none
      else if 0xDC00 ≤ high ∧ high < 0xE000 then none
      else some (Char.ofNat high, cs)
  | _ => none

/-- The rest of a string after its opening quote. -/
def parseString : ℕ → Text → Option (Text × Text)
  | 0, _ | _, [] => none
  | n + 1, c :: cs =>
    if c = '"' then some ([], cs)
    else if c = '\\' then
      match unescape cs with
      | none => none
      | some (d, cs) => (parseString n cs).map fun res => (d :: res.1, res.2)
    else if c.toNat < 0x20 then none
    else (parseString n cs).map fun res => (c :: res.1, res.2)

variable (numerals : Numerals Num)

def parseNumber (cs : Text) : Option (Value Num × Text) :=
  match cs.takeWhile isNumberChar with
  | [] => none
  | token => (numerals.read token).map fun n => (.num n, cs.dropWhile isNumberChar)

/-- `word`, and what follows it, read as the value `v`. -/
def literal (word : Text) (v : Value Num) (cs : Text) : Option (Value Num × Text) :=
  if word <+: cs then some (v, cs.drop word.length) else none

/-- A later member of the same key takes the place of an earlier one. -/
def setMember {β : Type} (ms : List (Text × β)) (m : Text × β) : List (Text × β) :=
  if m.1 ∈ ms.map Prod.fst then ms.map fun m' => if m'.1 = m.1 then m else m' else ms ++ [m]

mutual
def parseValue : ℕ → Text → Option (Value Num × Text)
  | 0, _ => none
  | n + 1, cs =>
    match skipWs cs with
    | [] => none
    | c :: cs =>
      if c = '"' then (parseString n cs).map fun res => (.str res.1, res.2)
      else if c = '[' then
        match skipWs cs with
        | ']' :: rest => some (.arr [], rest)
        | _ => (parseItems n cs).map fun res => (.arr res.1, res.2)
      else if c = '{' then
        match skipWs cs with
        | '}' :: rest => some (.obj [], rest)
        | _ => (parseMembers n cs).map fun res => (.obj (res.1.foldl setMember []), res.2)
      else if c = 'n' then literal ['u', 'l', 'l'] .null cs
      else if c = 't' then literal ['r', 'u', 'e'] (.bool true) cs
      else if c = 'f' then literal ['a', 'l', 's', 'e'] (.bool false) cs
      else parseNumber numerals (c :: cs)

def parseItems : ℕ → Text → Option (List (Value Num) × Text)
  | 0, _ => none
  | n + 1, cs =>
    match parseValue n cs with
    | none => none
    | some (v, rest) =>
      match skipWs rest with
      | ',' :: rest => (parseItems n rest).map fun res => (v :: res.1, res.2)
      | ']' :: rest => some ([v], rest)
      | _ => none

def parseMembers : ℕ → Text → Option (List (Text × Value Num) × Text)
  | 0, _ => none
  | n + 1, cs =>
    match skipWs cs with
    | '"' :: cs =>
      match parseString n cs with
      | none => none
      | some (k, rest) =>
        match skipWs rest with
        | ':' :: rest =>
          match parseValue n rest with
          | none => none
          | some (v, rest) =>
            match skipWs rest with
            | ',' :: rest => (parseMembers n rest).map fun res => ((k, v) :: res.1, res.2)
            | '}' :: rest => some ([(k, v)], rest)
            | _ => none
        | _ => none
    | _ => none
end

/-- `JSON.parse`; the length of the text is enough fuel. -/
def parse (text : Text) : Option (Value Num) :=
  match parseValue numerals (text.length + 1) text with
  | some (v, rest) => if skipWs rest = [] then some v else none
  | none => none

end Parse
end Soter.Json
