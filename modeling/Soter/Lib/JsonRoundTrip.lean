import Soter.Lib.JsonText

/-! What `JSON.stringify` writes, `JSON.parse` reads back. -/
namespace Soter.Json

open List Option

variable {Num : Type} {numerals : Numerals Num} {gap : ℕ}

theorem hexValue_hexDigit : ∀ d < 16, hexValue (hexDigit d) = some d := by decide

/-- An escape sequence is read as the character that it was written for. -/
theorem parseString_escapeChar (n : ℕ) (c : Char) (cs : Text) : parseString (n + 1) (escapeChar c ++ cs) =
      (parseString n cs).map fun res => (c :: res.1, res.2) := by
  unfold escapeChar
  iterate 7
    split
    · subst_vars; rfl
  split
  · rename_i hcontrol
    have hhigh := hexValue_hexDigit (c.toNat / 16) (by omega)
    have hlow := hexValue_hexDigit (c.toNat % 16) (by omega)
    have hzero : hexValue '0' = some 0 := by decide
    have hvalue : ((16 * 0 + 0) * 16 + c.toNat / 16) * 16 + c.toNat % 16 = c.toNat := by omega
    have hcode : codeUnit ('0' :: '0' :: hexDigit (c.toNat / 16) :: hexDigit (c.toNat % 16) :: cs) =
        some (c.toNat, cs) := by
      simp only [codeUnit, hhigh, hlow, hzero, Option.bind_eq_bind, Option.bind_some, Option.pure_def, hvalue]
    have hunescape : unescape ('u' :: '0' :: '0' :: hexDigit (c.toNat / 16) ::
        hexDigit (c.toNat % 16) :: cs) = some (c, cs) := by
      simp only [unescape, hcode]
      rw [if_neg (by omega), if_neg (by omega), Char.ofNat_toNat]
    simp only [cons_append, nil_append, parseString, hunescape]
    simp
  · rename_i hquote hbackslash _ _ _ _ _ hcontrol
    simp only [cons_append, nil_append, parseString, if_neg hquote, if_neg hbackslash, if_neg hcontrol]

/-- A text is read back if every character of it is, however they are escaped. -/
theorem parseString_escaped {escape : Char → Text} (hescape : ∀ n c cs, parseString (n + 1) (escape c ++ cs) =
      (parseString n cs).map fun res => (c :: res.1, res.2)) (rest : Text) :
    ∀ (s : Text) (n : ℕ), (s.flatMap escape).length < n → parseString n (s.flatMap escape ++ '"' :: rest) = some (s, rest)
  | [], n + 1, _ => rfl
  | c :: s, n + 1, hn => by
    have hpos : 0 < (escape c).length := by
      apply length_pos_of_ne_nil
      intro hnil
      have hread := hescape 1 c ['"']
      rw [hnil] at hread
      cases hread
    rw [List.flatMap_cons, List.length_append] at hn
    rw [List.flatMap_cons, List.append_assoc, hescape, parseString_escaped hescape rest s n (by omega)]
    rfl

theorem codeUnit_length {cs rest : Text} {n : ℕ} (h : codeUnit cs = some (n, rest)) :
    cs.length = rest.length + 4 := by
  match cs, h with
  | a :: b :: c :: d :: cs, h =>
    simp only [codeUnit, Option.bind_eq_bind, Option.pure_def, Option.bind_eq_some_iff] at h
    obtain ⟨_, -, _, -, _, -, _, -, h⟩ := h
    cases h
    rfl

theorem unescape_length {cs rest : Text} {d : Char} (h : unescape cs = some (d, rest)) :
    rest.length < cs.length := by
  unfold unescape at h
  split at h
  case h_9 cs =>
    split at h
    · cases h
    rename_i high cs' hhigh
    have hfirst := codeUnit_length hhigh
    split at h
    · -- the second half of a surrogate pair
      split at h
      · split at h
        · rename_i low cs'' hlow
          have hsecond := codeUnit_length hlow
          simp only [List.length_cons] at hfirst ⊢
          split at h
          · simp only [Option.some.injEq, Prod.mk.injEq] at h
            obtain ⟨-, rfl⟩ := h
            omega
          · cases h
        · cases h
      · cases h
    · simp only [List.length_cons]
      split at h
      · cases h
      · simp only [Option.some.injEq, Prod.mk.injEq] at h
        obtain ⟨-, rfl⟩ := h
        omega
  case h_10 => cases h
  all_goals
    cases h
    simp

/-- A string is shorter than its text. -/
theorem parseString_length : ∀ (n : ℕ) (cs s rest : Text), parseString n cs = some (s, rest) →
    s.length + rest.length < cs.length
  | 0, _, _, _, h => by cases h
  | n + 1, [], _, _, h => by cases h
  | n + 1, c :: cs, s, rest, h => by
    simp only [parseString] at h
    split at h
    · cases h
      simp
    split at h
    · split at h
      · cases h
      · rename_i d cs' hunescape
        obtain ⟨res, hres, heq⟩ := Option.map_eq_some_iff.mp h
        cases heq
        have hlength := parseString_length n cs' res.1 res.2 hres
        have hescape := unescape_length hunescape
        simp only [List.length_cons]
        omega
    split at h
    · cases h
    · obtain ⟨res, hres, heq⟩ := Option.map_eq_some_iff.mp h
      cases heq
      have hlength := parseString_length n cs res.1 res.2 hres
      simp only [List.length_cons]
      omega

variable {v : Value Num}
section Layout
variable {cs rest ws : Text}

def Delimited (rest : Text) : Prop := ∀ c ∈ rest.head?, isNumberChar c = false

variable {c : Char} {t nl close : Text} {ts : List Text} {vs : List (Value Num)}

theorem skipWs_append (hws : ∀ c ∈ ws, isWhitespace c = true) : skipWs (ws ++ cs) = skipWs cs := by
  rw [skipWs, skipWs, List.dropWhile_append_of_pos hws]

theorem skipWs_cons (hc : isWhitespace c = false) : skipWs (c :: cs) = c :: cs := by
  rw [skipWs, List.dropWhile_cons_of_neg (by simp [hc])]

variable (gap) in
theorem newline_ws (indent : ℕ) : ∀ c ∈ newline gap indent, isWhitespace c = true := by
  intro c hc
  unfold newline at hc
  split at hc
  · cases hc
  · rcases List.mem_cons.mp hc with rfl | hc
    · rfl
    · rw [List.eq_of_mem_replicate hc]
      rfl

theorem isNumberChar_ne (h : isNumberChar c = true) : isWhitespace c = false ∧
    c ≠ '"' ∧ c ≠ '[' ∧ c ≠ '{' ∧ c ≠ 'n' ∧ c ≠ 't' ∧ c ≠ 'f' := by
  have hnot {d : Char} (hd : isNumberChar d = false) : c ≠ d := by
    rintro rfl
    rw [h] at hd
    cases hd
  refine ⟨?_, hnot rfl, hnot rfl, hnot rfl, hnot rfl, hnot rfl, hnot rfl⟩
  simp only [isWhitespace, mem_cons, not_mem_nil, or_false, decide_eq_false_iff_not, not_or]
  exact ⟨hnot rfl, hnot rfl, hnot rfl, hnot rfl⟩

theorem delimited_cons (hc : isNumberChar c = false) : Delimited (c :: rest) := by
  intro d hd
  cases hd
  exact hc

theorem delimited_ws (hws : ∀ d ∈ ws, isWhitespace d = true)
    (hc : isNumberChar c = false) : Delimited (ws ++ c :: rest) := by
  intro d hd
  cases ws with
  | nil =>
    cases hd
    exact hc
  | cons e ws =>
    cases hd
    by_contra hnumber
    rw [Bool.not_eq_false] at hnumber
    have hspace := (isNumberChar_ne hnumber).1
    rw [hws d mem_cons_self] at hspace
    cases hspace

variable (numerals) in
/-- `t` is a text of `v`, whatever comes after it. -/
def Reads (t : Text) (v : Value Num) : Prop :=
  ∀ n rest, t.length ≤ n → Delimited rest → parseValue numerals n (t ++ rest) = some (v, rest)

theorem parseValue_ws (hws : ∀ c ∈ ws, isWhitespace c = true) (n : ℕ) :
    parseValue numerals n (ws ++ cs) = parseValue numerals n cs := by
  cases n with
  | zero => rfl
  | succ n => rw [parseValue, parseValue, skipWs_append hws]

theorem Reads.after_ws (h : Reads numerals t v) (hws : ∀ c ∈ ws, isWhitespace c = true) : Reads numerals (ws ++ t) v := by
  intro n rest hn hrest
  rw [length_append] at hn
  rw [append_assoc, parseValue_ws hws, h n rest (by omega) hrest]

theorem Reads.skipWs_ne (h : Reads numerals t v) (hrest : Delimited rest) (hc : c = ']' ∨ c = '}') (rest' : Text) : skipWs (t ++ rest) ≠ c :: rest' := by
  intro heq
  have hread := h (t.length + 1) rest (by omega) hrest
  rw [parseValue, heq] at hread
  rcases hc with rfl | rfl <;> cases hread

theorem reads_num (n : Num) : Reads numerals (numerals.text n) (.num n) := by
  intro fuel rest hfuel hrest
  have hchars := numerals.text_chars n
  have htake : (numerals.text n ++ rest).takeWhile isNumberChar = numerals.text n := by
    rw [takeWhile_append_of_pos hchars]
    cases rest with
    | nil => simp
    | cons c rest =>
      rw [takeWhile_cons_of_neg (by simp [hrest c rfl]), append_nil]
  have hdrop : (numerals.text n ++ rest).dropWhile isNumberChar = rest := by
    rw [dropWhile_append_of_pos hchars]
    cases rest with
    | nil => simp
    | cons c rest => rw [dropWhile_cons_of_neg (by simp [hrest c rfl])]
  have hread : parseNumber numerals (numerals.text n ++ rest) = some (.num n, rest) := by
    rw [parseNumber, htake, hdrop]
    split
    · rename_i hnil
      exact absurd hnil (numerals.text_ne_nil n)
    · rw [numerals.read_text]
      rfl
  obtain ⟨c, t, ht⟩ := exists_cons_of_ne_nil (numerals.text_ne_nil n)
  rw [ht] at hfuel hread hchars ⊢
  obtain ⟨hspace, hquote, hbracket, hbrace, hn, htrue, hfalse⟩ :=
    isNumberChar_ne (hchars c mem_cons_self)
  cases fuel with
  | zero => cases hfuel
  | succ fuel =>
    rw [cons_append] at hread ⊢
    rw [parseValue, skipWs_cons hspace]
    simp only [if_neg hquote, if_neg hbracket, if_neg hbrace, if_neg hn, if_neg htrue, if_neg hfalse, hread]

theorem reads_str (s : Text) : Reads numerals (quote s) (.str s) := by
  intro n rest hn _
  rw [quote, length_cons, length_append, length_singleton] at hn
  cases n with
  | zero => omega
  | succ n =>
    have hstring := parseString_escaped parseString_escapeChar rest s n (by omega)
    rw [quote, cons_append, append_assoc, singleton_append, parseValue, skipWs_cons rfl]
    simp only [if_true, hstring, map_some]

def tailText (nl : Text) (ts : List Text) : Text := ts.flatMap fun t => ',' :: (nl ++ t)

theorem tailText_cons (nl t : Text) (ts : List Text) :
    tailText nl (t :: ts) = ',' :: (nl ++ (t ++ tailText nl ts)) := by
  simp only [tailText, flatMap_cons, cons_append, append_assoc]

variable (rest) in
theorem parseItems_reads (hnl : ∀ c ∈ nl, isWhitespace c = true) (hclose : ∀ c ∈ close, isWhitespace c = true)
    (hts : Forall₂ (Reads numerals) ts vs) : ∀ {t : Text} {v : Value Num}, Reads numerals t v →
      ∀ n, (nl ++ t).length + (tailText nl ts).length + close.length + 1 ≤ n →
        parseItems numerals n (nl ++ (t ++ (tailText nl ts ++ (close ++ ']' :: rest)))) =
          some (v :: vs, rest) := by
  induction hts with
  | nil =>
    intro t v ht n hn
    cases n with
    | zero => omega
    | succ n =>
      have hvalue := ht.after_ws hnl n (close ++ ']' :: rest) (by omega) (delimited_ws hclose rfl)
      rw [append_assoc] at hvalue
      simp only [tailText, flatMap_nil, nil_append]
      rw [parseItems, hvalue]
      simp only [skipWs_append hclose, skipWs_cons (show isWhitespace ']' = false from rfl)]
  | @cons t' v' ts vs ht' _ ih =>
    intro t v ht n hn
    cases n with
    | zero => omega
    | succ n =>
      rw [tailText_cons] at hn ⊢
      simp only [length_cons, length_append] at hn
      have htail := ih ht' n (by simp only [length_append]; omega)
      have hvalue := ht.after_ws hnl n (',' :: (nl ++ (t' ++ (tailText nl ts ++ (close ++ ']' :: rest)))))
        (by simp only [length_append]; omega) (delimited_cons rfl)
      rw [append_assoc] at hvalue
      simp only [cons_append, append_assoc]
      rw [parseItems, hvalue]
      simp only [skipWs_cons (show isWhitespace ',' = false from rfl), htail, map_some]

def memberText (gap : ℕ) (m : Text × Text) : Text := quote m.1 ++ (colon gap ++ m.2)

variable (gap) in
theorem colon_eq : ∃ ws, colon gap = ':' :: ws ∧ ∀ c ∈ ws, isWhitespace c = true := by
  unfold colon
  split
  · exact ⟨[], rfl, by simp⟩
  · exact ⟨[' '], rfl, by simp [isWhitespace]⟩

variable (gap) in
theorem parse_member {n : ℕ} {k : Text} (ht : Reads numerals t v)
    (hn : (memberText gap (k, t)).length ≤ n + 1) (hrest : Delimited rest) :
    ∃ cs cs' cs'', skipWs (memberText gap (k, t) ++ rest) = '"' :: cs ∧
      parseString n cs = some (k, cs') ∧ skipWs cs' = ':' :: cs'' ∧
        parseValue numerals n cs'' = some (v, rest) := by
  obtain ⟨ws, hcolon, hws⟩ := colon_eq gap
  rw [memberText, quote, hcolon] at hn ⊢
  simp only [List.length_append, List.length_cons, List.length_nil] at hn
  have hstring := parseString_escaped parseString_escapeChar (':' :: (ws ++ (t ++ rest))) k n (by omega)
  have hvalue := ht.after_ws hws n rest (by simp only [List.length_append]; omega) hrest
  rw [List.append_assoc] at hvalue
  refine ⟨_, _, _, ?_, hstring, skipWs_cons rfl, hvalue⟩
  simp only [List.cons_append, List.append_assoc, List.nil_append]
  exact skipWs_cons rfl

/-- `m` is a key with the text of the value `m'` has for the same key. -/
def ReadsMember (numerals : Numerals Num) (m : Text × Text) (m' : Text × Value Num) : Prop :=
  m.1 = m'.1 ∧ Reads numerals m.2 m'.2

variable (gap rest) in
theorem parseMembers_reads (hnl : ∀ c ∈ nl, isWhitespace c = true)
    (hclose : ∀ c ∈ close, isWhitespace c = true) {ms : List (Text × Text)}
    {ms' : List (Text × Value Num)} (hms : List.Forall₂ (ReadsMember numerals) ms ms') :
    ∀ {m : Text × Text} {m' : Text × Value Num}, ReadsMember numerals m m' → ∀ n,
      (nl ++ memberText gap m).length + (tailText nl (ms.map (memberText gap))).length + close.length + 1 ≤ n →
        parseMembers numerals n (nl ++ (memberText gap m ++
            (tailText nl (ms.map (memberText gap)) ++ (close ++ '}' :: rest)))) =
          some (m' :: ms', rest) := by
  induction hms with
  | nil =>
    rintro ⟨k, t⟩ ⟨k', v⟩ ⟨hk, ht⟩ n hn
    simp only at hk ht
    subst hk
    cases n with
    | zero => omega
    | succ n =>
      rw [List.length_append] at hn
      have hdelimited : Delimited (close ++ '}' :: rest) := delimited_ws hclose rfl
      obtain ⟨cs, cs', cs'', hopen, hstring, hcolon, hvalue⟩ :=
        parse_member gap (n := n) (k := k) ht (by omega) hdelimited
      simp only [List.map_nil, tailText, List.flatMap_nil, List.nil_append]
      rw [parseMembers, skipWs_append hnl, hopen]
      simp only [hstring, hcolon, hvalue, skipWs_append hclose, skipWs_cons (show isWhitespace '}' = false from rfl)]
  | @cons m₁ m₁' ms ms' hm₁ _ ih =>
    rintro ⟨k, t⟩ ⟨k', v⟩ ⟨hk, ht⟩ n hn
    simp only at hk ht
    subst hk
    cases n with
    | zero => omega
    | succ n =>
      rw [List.map_cons, tailText_cons] at hn ⊢
      simp only [List.length_cons, List.length_append] at hn
      have htail := ih hm₁ n (by simp only [List.length_append]; omega)
      have hdelimited : ∀ behind, Delimited (',' :: behind) := fun behind => delimited_cons rfl
      obtain ⟨cs, cs', cs'', hopen, hstring, hcolon, hvalue⟩ :=
        parse_member gap (n := n) (k := k) ht (by omega) (hdelimited _)
      simp only [List.cons_append, List.append_assoc]
      rw [parseMembers, skipWs_append hnl, hopen]
      simp only [hstring, hcolon, hvalue, skipWs_cons (show isWhitespace ',' = false from rfl), htail, Option.map_some]

theorem reads_arr (indent : ℕ) (h : List.Forall₂ (Reads numerals) ts vs) :
    Reads numerals (bracket gap '[' ']' indent ts) (.arr vs) := by
  intro n rest hn _
  cases n with
  | zero => cases ts <;> simp [bracket] at hn
  | succ n =>
    cases h with
    | nil =>
      rw [bracket, List.cons_append, parseValue, skipWs_cons rfl]
      simp only [if_neg (show ¬ '[' = '"' by decide), if_true, cons_append, nil_append,
        skipWs_cons (show isWhitespace ']' = false from rfl)]
    | @cons t v ts vs ht hts =>
      have hnl := newline_ws gap (indent + gap)
      have hclose := newline_ws gap indent
      have hitems := parseItems_reads rest hnl hclose hts ht n (by
        simp only [bracket, length_cons, length_append, length_nil] at hn
        simp only [tailText, length_append]
        omega)
      have hopen : ∀ rest', skipWs (newline gap (indent + gap) ++ (t ++ (tailText
          (newline gap (indent + gap)) ts ++ (newline gap indent ++ ']' :: rest)))) ≠ ']' :: rest' := by
        intro rest'
        rw [skipWs_append hnl]
        cases ts with
        | nil => exact ht.skipWs_ne (delimited_ws hclose rfl) (.inl rfl) rest'
        | cons t' ts =>
          rw [tailText_cons]
          exact ht.skipWs_ne (delimited_cons rfl) (.inl rfl) rest'
      rw [bracket, cons_append, parseValue, skipWs_cons rfl]
      simp only [if_neg (show ¬ '[' = '"' by decide), if_true, List.append_assoc, List.cons_append, List.nil_append]
      split
      · rename_i rest' heq
        exact absurd heq (hopen rest')
      · exact congrArg _ hitems

end Layout
variable {β : Type}
section Members
variable {ms : List (Text × β)}

variable {m m' : Text × β}

theorem setMember_new (h : m.1 ∉ ms.map Prod.fst) : setMember ms m = ms ++ [m] :=
  if_neg h

theorem setMember_keys (m : Text × β) (h : (ms.map Prod.fst).Nodup) : ((setMember ms m).map Prod.fst).Nodup := by
  unfold setMember
  split
  · have hkeys : (ms.map fun m' => if m'.1 = m.1 then m else m').map Prod.fst = ms.map Prod.fst := by
      rw [List.map_map]
      apply List.map_congr_left
      intro m' _
      simp only [Function.comp_apply]
      split
      · rename_i heq
        exact heq.symm
      · rfl
    rw [hkeys]
    exact h
  · rename_i hnew
    rw [List.map_append, List.nodup_append]
    refine ⟨h, List.nodup_singleton _, ?_⟩
    rintro k hk k' hk' rfl
    rw [List.map_singleton, List.mem_singleton] at hk'
    exact hnew (hk' ▸ hk)

theorem foldl_setMember : ∀ (ms acc : List (Text × β)), ((acc ++ ms).map Prod.fst).Nodup → ms.foldl setMember acc = acc ++ ms
  | [], acc, _ => by simp
  | m :: ms, acc, h => by
    have hnew : m.1 ∉ acc.map Prod.fst := by
      rw [List.map_append, List.nodup_append] at h
      intro hm
      exact h.2.2 m.1 hm m.1 (by simp) rfl
    have hnext : ((acc ++ [m] ++ ms).map Prod.fst).Nodup := by
      rwa [List.append_assoc, List.singleton_append]
    rw [List.foldl_cons, setMember_new hnew, foldl_setMember ms (acc ++ [m]) hnext,
      List.append_assoc, List.singleton_append]

theorem foldl_setMember_keys : ∀ (ms acc : List (Text × β)), (acc.map Prod.fst).Nodup →
    ((ms.foldl setMember acc).map Prod.fst).Nodup
  | [], _, h => h
  | m :: ms, _, h => foldl_setMember_keys ms _ (setMember_keys m h)

theorem mem_setMember (h : m' ∈ setMember ms m) : m' = m ∨ m' ∈ ms := by
  unfold setMember at h
  split at h
  · obtain ⟨m'', hm'', heq⟩ := List.mem_map.mp h
    split at heq
    · exact .inl heq.symm
    · exact .inr (heq ▸ hm'')
  · rcases List.mem_append.mp h with h | h
    · exact .inr h
    · exact .inl (List.mem_singleton.mp h)

theorem mem_foldl_setMember : ∀ (ms acc : List (Text × β)), m' ∈ ms.foldl setMember acc → m' ∈ ms ∨ m' ∈ acc
  | [], _, h => .inr h
  | m :: ms, acc, h => by
    rcases mem_foldl_setMember ms (setMember acc m) h with h | h
    · exact .inl (List.mem_cons_of_mem m h)
    · rcases mem_setMember h with rfl | h
      · exact .inl List.mem_cons_self
      · exact .inr h

theorem reads_obj {ms : List (Text × Text)} {ms' : List (Text × Value Num)} (indent : ℕ)
    (hkeys : (ms'.map Prod.fst).Nodup) (h : List.Forall₂ (ReadsMember numerals) ms ms') :
    Reads numerals (bracket gap '{' '}' indent (ms.map (memberText gap))) (.obj ms') := by
  intro n rest hn _
  cases n with
  | zero => cases ms <;> simp [bracket] at hn
  | succ n =>
    cases h with
    | nil =>
      rw [List.map_nil, bracket, List.cons_append, parseValue, skipWs_cons rfl]
      simp only [if_neg (show ¬ '{' = '"' by decide), if_neg (show ¬ '{' = '[' by decide), if_true,
        cons_append, nil_append, skipWs_cons (show isWhitespace '}' = false from rfl)]
    | @cons m m' ms ms' hm hms =>
      have hnl := newline_ws gap (indent + gap)
      have hclose := newline_ws gap indent
      have hmembers := parseMembers_reads gap rest hnl hclose hms hm n (by
        simp only [map_cons, bracket, length_cons, length_append, length_nil] at hn
        simp only [tailText, length_append]
        omega)
      have hopen : ∀ rest', skipWs (newline gap (indent + gap) ++ (memberText gap m ++ (tailText
          (newline gap (indent + gap)) (ms.map (memberText gap)) ++ (newline gap indent ++
            '}' :: rest)))) ≠ '}' :: rest' := by
        intro rest' heq
        rw [skipWs_append hnl, memberText, quote, cons_append, cons_append, skipWs_cons rfl] at heq
        cases heq
      rw [map_cons, bracket, cons_append, parseValue, skipWs_cons rfl]
      simp only [if_neg (show ¬ '{' = '"' by decide), if_neg (show ¬ '{' = '[' by decide), if_true,
        append_assoc, cons_append, nil_append]
      split
      · rename_i rest' heq
        exact absurd heq (hopen rest')
      · have hread : parseMembers numerals n (newline gap (indent + gap) ++ (memberText gap m ++
            (tailText (newline gap (indent + gap)) (ms.map (memberText gap)) ++
              (newline gap indent ++ '}' :: rest)))) = some (m' :: ms', rest) := hmembers
        rw [tailText] at hread
        rw [hread, map_some, foldl_setMember (m' :: ms') [] hkeys, nil_append]

end Members

mutual
/-- The value with the members of its objects in the order in which they are visited. -/
def Value.visited : Value Num → Value Num
  | .null => .null
  | .bool b => .bool b
  | .num n => .num n
  | .str s => .str s
  | .arr items => .arr (visitedItems items)
  | .obj members => .obj (ownOrder (visitedMembers members))

def visitedItems : List (Value Num) → List (Value Num)
  | [] => []
  | v :: vs => v.visited :: visitedItems vs

def visitedMembers : List (Text × Value Num) → List (Text × Value Num)
  | [] => []
  | (k, v) :: ms => (k, v.visited) :: visitedMembers ms
end

theorem visitedItems_eq : ∀ vs : List (Value Num), visitedItems vs = vs.map Value.visited
  | [] => rfl
  | v :: vs => by rw [visitedItems, visitedItems_eq vs, map_cons]

theorem visitedMembers_eq : ∀ ms : List (Text × Value Num), visitedMembers ms = ms.map fun m => (m.1, m.2.visited)
  | [] => rfl
  | (k, v) :: ms => by rw [visitedMembers, visitedMembers_eq ms, map_cons]

theorem stringifyItems_eq (indent : ℕ) : ∀ vs : List (Value Num),
    stringifyItems numerals gap indent vs = vs.map (stringifyAt numerals gap indent)
  | [] => rfl
  | v :: vs => by rw [stringifyItems, stringifyItems_eq indent vs, map_cons]

theorem stringifyMembers_eq (indent : ℕ) : ∀ ms : List (Text × Value Num),
    stringifyMembers numerals gap indent ms = ms.map fun m => (m.1, stringifyAt numerals gap indent m.2)
  | [] => rfl
  | (k, v) :: ms => by rw [stringifyMembers, stringifyMembers_eq indent ms, map_cons]

theorem map_fst_map {γ : Type} (f : β → γ) (ms : List (Text × β)) :
    (ms.map fun m => (m.1, f m.2)).map Prod.fst = ms.map Prod.fst := by
  rw [List.map_map]
  rfl

theorem ownOrder_keys {ms : List (Text × β)} (h : (ms.map Prod.fst).Nodup) : ((ownOrder ms).map Prod.fst).Nodup :=
  ((ownOrder_perm ms).map Prod.fst).nodup_iff.mpr h

/-- What is written of a value is read as the value. -/
theorem reads_stringify (hv : v.WF) : ∀ indent, Reads numerals (stringifyAt numerals gap indent v) v.visited := by
  induction hv with
  | null =>
    intro indent n rest hn _
    cases n with
    | zero => cases hn
    | succ n => rfl
  | bool b =>
    intro indent n rest hn _
    cases b <;> cases n with
    | zero => cases hn
    | succ n => rfl
  | num n => exact fun indent => reads_num n
  | str s => exact fun indent => reads_str s
  | @arr items _ ih =>
    intro indent
    rw [stringifyAt, stringifyItems_eq, Value.visited, visitedItems_eq]
    apply reads_arr
    rw [forall₂_map_left_iff, forall₂_map_right_iff, forall₂_same]
    exact fun v hv => ih v hv (indent + gap)
  | @obj members hkeys _ ih =>
    intro indent
    rw [stringifyAt, stringifyMembers_eq, Value.visited, visitedMembers_eq, ownOrder_map, ownOrder_map]
    have hkeys' : (((ownOrder members).map fun m => (m.1, m.2.visited)).map Prod.fst).Nodup := by
      rw [map_fst_map]
      exact ownOrder_keys hkeys
    apply reads_obj indent hkeys'
    rw [forall₂_map_left_iff, forall₂_map_right_iff, forall₂_same]
    intro m hm
    exact ⟨rfl, ih m ((ownOrder_perm members).mem_iff.mp hm) (indent + gap)⟩

/-- `JSON.parse` after `JSON.stringify`. -/
theorem parse_stringify (hv : v.WF) : parse numerals (stringify numerals gap v) = some v.visited := by
  have hread : parseValue numerals ((stringifyAt numerals gap 0 v).length + 1)
      (stringifyAt numerals gap 0 v ++ []) = some (v.visited, []) :=
    reads_stringify hv 0 _ [] (by omega) (by simp [Delimited])
  rw [append_nil] at hread
  rw [stringify, parse, hread]
  rfl

theorem visited_same (hv : v.WF) : v.visited.Same v := by
  induction hv with
  | null | bool b | num n | str s => rfl
  | @arr items _ ih =>
    rw [Value.visited, visitedItems_eq, same_arr, forall₂_map_left_iff, forall₂_same]
    exact ih
  | @obj members hkeys _ ih =>
    rw [Value.visited, visitedMembers_eq]
    simp only [Value.Same, Value.sorted, sortedMembers_eq, Value.obj.injEq]
    have hkeys' : (((ownOrder (members.map fun m => (m.1, m.2.visited))).map fun m =>
        (m.1, m.2.sorted)).map Prod.fst).Nodup := by
      rw [map_fst_map]
      exact ownOrder_keys (by rwa [map_fst_map])
    calc
      _ = sortMembers ((members.map fun m => (m.1, m.2.visited)).map fun m => (m.1, m.2.sorted)) :=
        sortMembers_of_perm hkeys' ((ownOrder_perm _).map _)
      _ = sortMembers (members.map fun m => (m.1, m.2.sorted)) := by
        rw [List.map_map]
        congr 1
        apply map_congr_left
        intro m hm
        exact congrArg (Prod.mk m.1) (ih m hm)

theorem stringify_injective {w : Value Num} (hv : v.WF) (hw : w.WF)
    (h : stringify numerals gap v = stringify numerals gap w) : v.Same w := by
  have hparse : parse numerals (stringify numerals gap v) = some v.visited := parse_stringify hv
  rw [h, parse_stringify hw, some.injEq] at hparse
  exact (visited_same hv).symm.trans ((congrArg Value.sorted hparse.symm).trans (visited_same hw))

/-- Whatever is read is a value as a program can hold it. -/
theorem parse_values_wf : ∀ n : ℕ, (∀ cs v rest, parseValue numerals n cs = some (v, rest) → v.WF) ∧
      (∀ cs vs rest, parseItems numerals n cs = some (vs, rest) → ∀ v ∈ vs, v.WF) ∧
        ∀ cs ms rest, parseMembers numerals n cs = some (ms, rest) → ∀ m ∈ ms, m.2.WF
  | 0 => by simp [parseValue, parseItems, parseMembers]
  | n + 1 => by
    obtain ⟨hvalue, hitems, hmembers⟩ := parse_values_wf n
    refine ⟨fun cs v rest h => ?_, fun cs vs rest h => ?_, fun cs ms rest h => ?_⟩
    · rw [parseValue] at h
      have hliteral {word cs : Text} {w : Value Num} (hw : w.WF) (h : literal word w cs = some (v, rest)) : v.WF := by
        unfold literal at h
        split at h
        · cases h
          exact hw
        · cases h
      split at h
      · cases h
      split at h
      · obtain ⟨res, -, heq⟩ := map_eq_some_iff.mp h
        cases heq
        exact .str _
      split at h
      · split at h
        · cases h
          exact .arr (by simp)
        · obtain ⟨res, hres, heq⟩ := map_eq_some_iff.mp h
          cases heq
          exact .arr (hitems _ _ _ hres)
      split at h
      · split at h
        · cases h
          exact .obj nodup_nil (by simp)
        · obtain ⟨res, hres, heq⟩ := map_eq_some_iff.mp h
          cases heq
          refine .obj (foldl_setMember_keys _ _ nodup_nil) fun m hm => ?_
          rcases mem_foldl_setMember _ _ hm with hm | hm
          · exact hmembers _ _ _ hres m hm
          · cases hm
      split at h
      · exact hliteral .null h
      split at h
      · exact hliteral (.bool true) h
      split at h
      · exact hliteral (.bool false) h
      · unfold parseNumber at h
        split at h
        · cases h
        · obtain ⟨m, -, heq⟩ := map_eq_some_iff.mp h
          cases heq
          exact .num m
    · rw [parseItems] at h
      split at h
      · cases h
      rename_i v rest' hv
      split at h
      · obtain ⟨res, hres, heq⟩ := map_eq_some_iff.mp h
        cases heq
        intro w hw
        rcases mem_cons.mp hw with rfl | hw
        · exact hvalue _ _ _ hv
        · exact hitems _ _ _ hres w hw
      · cases h
        intro w hw
        rw [mem_singleton.mp hw]
        exact hvalue _ _ _ hv
      · cases h
    · rw [parseMembers] at h
      split at h
      · split at h
        · cases h
        split at h
        · split at h
          · cases h
          rename_i v rest' hv
          split at h
          · obtain ⟨res, hres, heq⟩ := map_eq_some_iff.mp h
            cases heq
            intro m hm
            rcases mem_cons.mp hm with rfl | hm
            · exact hvalue _ _ _ hv
            · exact hmembers _ _ _ hres m hm
          · cases h
            intro m hm
            rw [mem_singleton.mp hm]
            exact hvalue _ _ _ hv
          · cases h
        · cases h
      · cases h

theorem parse_wf {text : Text} {v : Value Num} (h : parse numerals text = some v) : v.WF := by
  unfold parse at h
  split at h
  · rename_i w rest hw
    split at h
    · cases h
      exact (parse_values_wf _).1 _ _ _ hw
    · cases h
  · cases h

/-- No text of a string is that string. -/
theorem parse_str_length {text s : Text} (h : parse numerals text = some (.str s)) :
    s.length < text.length := by
  unfold parse at h
  split at h
  · rename_i w rest hw
    split at h
    · cases h
      rw [parseValue] at hw
      have hskip : (skipWs text).length ≤ text.length := (dropWhile_sublist _).length_le
      split at hw
      · cases hw
      rename_i c cs hcs
      rw [hcs, length_cons] at hskip
      split at hw
      · obtain ⟨res, hres, heq⟩ := map_eq_some_iff.mp hw
        cases heq
        have hlength := parseString_length _ _ _ _ hres
        omega
      -- the other first characters start other values
      have hliteral {word cs : Text} {w : Value Num} (hw : w ≠ .str s) :
          literal word w cs ≠ some (.str s, rest) := by
        unfold literal
        split
        · exact fun heq => hw (by cases heq; rfl)
        · simp
      split at hw
      · split at hw
        · cases hw
        · obtain ⟨res, -, heq⟩ := map_eq_some_iff.mp hw
          cases heq
      split at hw
      · split at hw
        · cases hw
        · obtain ⟨res, -, heq⟩ := map_eq_some_iff.mp hw
          cases heq
      split at hw
      · exact absurd hw (hliteral (by simp))
      split at hw
      · exact absurd hw (hliteral (by simp))
      split at hw
      · exact absurd hw (hliteral (by simp))
      · unfold parseNumber at hw
        split at hw
        · cases hw
        · obtain ⟨m, -, heq⟩ := map_eq_some_iff.mp hw
          cases heq
    · cases h
  · cases h

end Soter.Json
