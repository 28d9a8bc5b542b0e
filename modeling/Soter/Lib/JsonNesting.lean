import Mathlib.Data.Bool.AllAny
import Mathlib.Data.List.DropRight
import Soter.Lib.JsonRoundTrip

/-! How deep a JSON text is nested while it is read. An object is over with its last character, so that what a torn text of
an object is followed by never makes it a whole one. -/
namespace Soter.Json

open List

variable {Num : Type}

variable {n d : ℕ} {s' s : Lexed} {c : Char} {rest cs cs' : Text}
section Lexing

/-- Where a reader is in a text: between two strings, in one, behind a backslash in one, or right behind one. -/
inductive Mode
  | plain
  | quoted
  | escaped
  | unquoted

/-- A reader of the text of an object; in it there are `depth` brackets around it, apart from the first. -/
inductive Lexed
  | start
  | within (depth : ℕ) (mode : Mode)
  | done
  | broken

/-- What Python's `strip` removes, as far as it is ASCII. -/
def isBlank (c : Char) : Bool :=
  c ∈ [' ', '\t', '\n', '\x0b', '\x0c', '\r', '\x1c', '\x1d', '\x1e', '\x1f']

def close : ℕ → Lexed
  | 0 => .done
  | depth + 1 => .within depth .plain

def lex : Lexed → Char → Lexed
  | .start, c => if c = '{' then .within 0 .plain else .broken
  | .within depth .quoted, c =>
    if c = '"' then .within depth .unquoted else if c = '\\' then .within depth .escaped else .within depth .quoted
  | .within depth .escaped, _ => .within depth .quoted
  | .within depth .plain, c =>
    if c = '"' then .within depth .quoted
    else if c = '{' ∨ c = '[' then .within (depth + 1) .plain
    else if c = '}' ∨ c = ']' then close depth
    else .within depth .plain
  -- only a separator or a bracket that closes may come next
  | .within depth .unquoted, c =>
    if c = '}' ∨ c = ']' then close depth
    else if c = ',' ∨ c = ':' ∨ isBlank c = true then .within depth .plain
    else .broken
  | .done, c => if isBlank c then .done else .broken
  | .broken, _ => .broken

/-- Reading leads from `s` to `s'` while `cs` shrinks to `rest`. -/
def Takes (s : Lexed) (cs : Text) (s' : Lexed) (rest : Text) : Prop :=
  ∃ used, cs = used ++ rest ∧ used.foldl lex s = s'

variable {s'' : Lexed} {m : Mode}

theorem Takes.refl (s : Lexed) (cs : Text) : Takes s cs s cs := ⟨[], rfl, rfl⟩

theorem Takes.cons (h : Takes (lex s c) cs s' rest) : Takes s (c :: cs) s' rest := by
  obtain ⟨used, rfl, hused⟩ := h
  exact ⟨c :: used, rfl, hused⟩

theorem Takes.trans (h : Takes s cs s' cs') (h' : Takes s' cs' s'' rest) : Takes s cs s'' rest := by
  obtain ⟨used, rfl, hused⟩ := h
  obtain ⟨used', rfl, hused'⟩ := h'
  exact ⟨used ++ used', (append_assoc ..).symm, by rw [foldl_append, hused, hused']⟩

def Settled (d : ℕ) (s : Lexed) : Prop := s = .within d .plain ∨ s = .within d .unquoted

theorem isBlank_of_isWhitespace (h : isWhitespace c = true) : isBlank c = true := by
  simp only [isWhitespace, isBlank, decide_eq_true_eq, mem_cons, not_mem_nil, or_false] at h ⊢
  rcases h with rfl | rfl | rfl | rfl <;> decide

theorem isBlank_ne (h : isBlank c = true) : c ≠ '"' ∧ c ≠ '{' ∧ c ≠ '[' ∧ c ≠ '}' ∧ c ≠ ']' := by
  have hnot {d : Char} (hd : isBlank d = false) : c ≠ d := by
    rintro rfl
    rw [h] at hd
    cases hd
  exact ⟨hnot rfl, hnot rfl, hnot rfl, hnot rfl, hnot rfl⟩

theorem settled_blank (hs : Settled d s) (hc : isBlank c = true) : Settled d (lex s c) := by
  obtain ⟨hquote, hbrace, hbracket, hbrace', hbracket'⟩ := isBlank_ne hc
  rcases hs with rfl | rfl
  · left
    simp [lex, hquote, hbrace, hbracket, hbrace', hbracket']
  · left
    simp [lex, hbrace', hbracket', hc]

theorem takes_blanks : ∀ (ws : Text) {s : Lexed}, (∀ c ∈ ws, isBlank c = true) → Settled d s → Settled d (ws.foldl lex s)
  | [], _, _, hs => hs
  | c :: ws, _, hws, hs =>
    takes_blanks ws (fun c' hc' => hws c' (List.mem_cons_of_mem c hc')) (settled_blank hs (hws c List.mem_cons_self))

theorem takes_skipWs (cs : Text) (hs : Settled d s) : ∃ s', Settled d s' ∧ Takes s cs s' (skipWs cs) := by
  refine ⟨_, takes_blanks (cs.takeWhile isWhitespace) (fun c hc => ?_) hs, cs.takeWhile isWhitespace, ?_, rfl⟩
  · exact isBlank_of_isWhitespace (List.mem_takeWhile_imp hc)
  · exact List.takeWhile_append_dropWhile.symm

theorem takes_char (hs : Settled d s) (h : skipWs cs = c :: rest)
    (hlex : ∀ {s}, Settled d s → lex s c = s') : Takes s cs s' rest := by
  obtain ⟨s₁, hs₁, htakes⟩ := takes_skipWs cs hs
  rw [h] at htakes
  exact htakes.trans (.cons (by rw [hlex hs₁]; exact .refl _ _))

theorem lex_comma (hs : Settled d s) : lex s ',' = .within d .plain := by
  rcases hs with rfl | rfl <;> rfl

theorem lex_colon (hs : Settled d s) : lex s ':' = .within d .plain := by
  rcases hs with rfl | rfl <;> rfl

theorem lex_bracket (hs : Settled d s) : lex s ']' = close d := by
  rcases hs with rfl | rfl <;> rfl

theorem lex_brace (hs : Settled d s) : lex s '}' = close d := by
  rcases hs with rfl | rfl <;> rfl

end Lexing
variable {numerals : Numerals Num}

theorem lex_quoted (hquote : c ≠ '"') (hslash : c ≠ '\\') : lex (.within d .quoted) c = .within d .quoted := by
  simp [lex, hquote, hslash]

theorem lex_backslash : lex (.within d .quoted) '\\' = .within d .escaped := rfl

theorem hexValue_ne {v : ℕ} (h : hexValue c = some v) : c ≠ '"' ∧ c ≠ '\\' := by
  constructor <;> rintro rfl <;> cases h

theorem takes_codeUnit (d : ℕ) {v : ℕ} (h : codeUnit cs = some (v, rest)) :
    Takes (.within d .quoted) cs (.within d .quoted) rest := by
  match cs, h with
  | c₁ :: c₂ :: c₃ :: c₄ :: cs, h =>
    simp only [codeUnit, Option.bind_eq_bind, Option.pure_def, Option.bind_eq_some_iff] at h
    obtain ⟨_, h₁, _, h₂, _, h₃, _, h₄, h⟩ := h
    cases h
    have hdigit {c : Char} {v : ℕ} (hc : hexValue c = some v) : lex (.within d .quoted) c = .within d .quoted :=
      lex_quoted (hexValue_ne hc).1 (hexValue_ne hc).2
    refine ⟨[c₁, c₂, c₃, c₄], rfl, ?_⟩
    simp only [List.foldl_cons, List.foldl_nil, hdigit h₁, hdigit h₂, hdigit h₃, hdigit h₄]

theorem takes_unescape (d : ℕ) {e : Char} (h : unescape cs = some (e, rest)) :
    Takes (.within d .escaped) cs (.within d .quoted) rest := by
  unfold unescape at h
  split at h
  case h_9 cs =>
    split at h
    · cases h
    rename_i high cs' hhigh
    have hfirst := takes_codeUnit d hhigh
    split at h
    · -- the second half of a surrogate pair
      split at h
      · split at h
        · rename_i low cs'' hlow
          have hsecond := takes_codeUnit d hlow
          split at h
          · simp only [Option.some.injEq, Prod.mk.injEq] at h
            obtain ⟨-, rfl⟩ := h
            apply Takes.cons
            apply hfirst.trans
            apply Takes.cons
            rw [lex_backslash]
            exact .cons hsecond
          · cases h
        · cases h
      · cases h
    · split at h
      · cases h
      · simp only [Option.some.injEq, Prod.mk.injEq] at h
        obtain ⟨-, rfl⟩ := h
        exact .cons hfirst
  case h_10 => cases h
  all_goals
    cases h
    exact .cons (.refl _ _)

theorem takes_string (d : ℕ) : ∀ (n : ℕ) (cs s rest : Text), parseString n cs = some (s, rest) →
    Takes (.within d .quoted) cs (.within d .unquoted) rest
  | 0, _, _, _, h => by cases h
  | n + 1, [], _, _, h => by cases h
  | n + 1, c :: cs, s, rest, h => by
    simp only [parseString] at h
    split at h
    · rename_i hquote
      cases h
      rw [hquote]
      exact .cons (.refl _ _)
    rename_i hquote
    split at h
    · rename_i hslash
      split at h
      · cases h
      · rename_i e cs' hunescape
        obtain ⟨res, hres, heq⟩ := Option.map_eq_some_iff.mp h
        cases heq
        rw [hslash]
        apply Takes.cons
        rw [lex_backslash]
        exact ((takes_unescape d hunescape).trans (takes_string d n cs' res.1 res.2 hres))
    rename_i hslash
    split at h
    · cases h
    · obtain ⟨res, hres, heq⟩ := Option.map_eq_some_iff.mp h
      cases heq
      apply Takes.cons
      rw [lex_quoted hquote hslash]
      exact takes_string d n cs res.1 res.2 hres

def isOrdinary (c : Char) : Bool := c ∉ ['"', '{', '[', '}', ']']

theorem lex_ordinary (hc : isOrdinary c = true) : lex (.within d .plain) c = .within d .plain := by
  simp only [isOrdinary, decide_eq_true_eq, mem_cons, not_mem_nil, or_false, not_or] at hc
  obtain ⟨hquote, hbrace, hbracket, hbrace', hbracket'⟩ := hc
  simp [lex, hquote, hbrace, hbracket, hbrace', hbracket']

theorem takes_ordinary : ∀ {word : Text}, (∀ c ∈ word, isOrdinary c = true) →
    word.foldl lex (.within d .plain) = .within d .plain
  | [], _ => rfl
  | c :: word, h => by
    rw [foldl_cons, lex_ordinary (h c mem_cons_self)]
    exact takes_ordinary fun c' hc' => h c' (mem_cons_of_mem c hc')

theorem takes_literal {word : Text} {v w : Value Num} (hword : ∀ c ∈ word, isOrdinary c = true)
    (h : literal word v cs = some (w, rest)) : Takes (.within d .plain) cs (.within d .plain) rest := by
  unfold literal at h
  split at h
  · rename_i hstarts
    cases h
    exact ⟨word, (prefix_iff_eq_append.mp hstarts).symm, takes_ordinary hword⟩
  · cases h

theorem isOrdinary_number (hc : isNumberChar c = true) : isOrdinary c = true := by
  have hnot {e : Char} (he : isNumberChar e = false) : c ≠ e := by
    rintro rfl
    rw [hc] at he
    cases he
  simp only [isOrdinary, decide_eq_true_eq, mem_cons, not_mem_nil, or_false, not_or]
  exact ⟨hnot rfl, hnot rfl, hnot rfl, hnot rfl, hnot rfl⟩

theorem takes_number {v : Value Num} (h : parseNumber numerals cs = some (v, rest)) :
    Takes (.within d .plain) cs (.within d .plain) rest := by
  have hordinary : ∀ c ∈ cs.takeWhile isNumberChar, isOrdinary c = true :=
    fun c hc => isOrdinary_number (mem_takeWhile_imp hc)
  unfold parseNumber at h
  split at h
  · cases h
  · obtain ⟨res, -, heq⟩ := Option.map_eq_some_iff.mp h
    cases heq
    exact ⟨cs.takeWhile isNumberChar, takeWhile_append_dropWhile.symm, takes_ordinary hordinary⟩

theorem takes_skip (d : ℕ) {c : Char} (h : skipWs cs = c :: cs') : Takes (.within d .plain) cs (.within d .plain) (c :: cs') := by
  have hblanks : ∀ c ∈ cs.takeWhile isWhitespace, isOrdinary c = true := by
    intro c hc
    obtain ⟨hquote, hbrace, hbracket, hbrace', hbracket'⟩ := isBlank_ne (isBlank_of_isWhitespace (mem_takeWhile_imp hc))
    simp [isOrdinary, hquote, hbrace, hbracket, hbrace', hbracket']
  refine ⟨cs.takeWhile isWhitespace, ?_, takes_ordinary hblanks⟩
  rw [← h]
  exact takeWhile_append_dropWhile.symm

theorem takes_start (d : ℕ) {c : Char} (h : skipWs cs = c :: cs') :
    Takes (.within d .plain) cs (lex (.within d .plain) c) cs' :=
  (takes_skip d h).trans (.cons (.refl _ _))

/-- Values stay at their depth, and what a bracket opens ends with the bracket that closes it. -/
theorem takes_values : ∀ n : ℕ,
    (∀ d cs v rest, parseValue numerals n cs = some (v, rest) → ∃ s, Settled d s ∧ Takes (.within d .plain) cs s rest) ∧
      (∀ d cs vs rest, parseItems numerals n cs = some (vs, rest) → Takes (.within d .plain) cs (close d) rest) ∧
        ∀ d cs ms rest, parseMembers numerals n cs = some (ms, rest) → Takes (.within d .plain) cs (close d) rest
  | 0 => by simp [parseValue, parseItems, parseMembers]
  | n + 1 => by
    obtain ⟨hvalue, hitems, hmembers⟩ := takes_values n
    refine ⟨fun d cs v rest h => ?_, fun d cs vs rest h => ?_, fun d cs ms rest h => ?_⟩
    · rw [parseValue] at h
      split at h
      · cases h
      rename_i c cs' hskip
      have hstart := takes_start d hskip
      have hliteral {word : Text} {w : Value Num} (hc : isOrdinary c = true) (hword : ∀ c ∈ word, isOrdinary c = true)
          (h : literal word w cs' = some (v, rest)) : ∃ s, Settled d s ∧ Takes (.within d .plain) cs s rest := by
        rw [lex_ordinary hc] at hstart
        exact ⟨_, .inl rfl, hstart.trans (takes_literal hword h)⟩
      split at h
      · rename_i hquote
        obtain ⟨res, hres, heq⟩ := Option.map_eq_some_iff.mp h
        cases heq
        rw [hquote] at hstart
        exact ⟨_, .inr rfl, hstart.trans (takes_string d _ _ _ _ hres)⟩
      split at h
      · rename_i hbracket
        rw [hbracket] at hstart
        refine ⟨_, .inl rfl, hstart.trans ?_⟩
        split at h
        · rename_i rest' hempty
          cases h
          exact takes_start (d + 1) hempty
        · obtain ⟨res, hres, heq⟩ := Option.map_eq_some_iff.mp h
          cases heq
          exact hitems (d + 1) _ _ _ hres
      split at h
      · rename_i hbrace
        rw [hbrace] at hstart
        refine ⟨_, .inl rfl, hstart.trans ?_⟩
        split at h
        · rename_i rest' hempty
          cases h
          exact takes_start (d + 1) hempty
        · obtain ⟨res, hres, heq⟩ := Option.map_eq_some_iff.mp h
          cases heq
          exact hmembers (d + 1) _ _ _ hres
      split at h
      · rename_i hn
        exact hliteral (by rw [hn]; rfl) (all_iff_forall_prop.mp (by decide)) h
      split at h
      · rename_i ht
        exact hliteral (by rw [ht]; rfl) (all_iff_forall_prop.mp (by decide)) h
      split at h
      · rename_i hf
        exact hliteral (by rw [hf]; rfl) (all_iff_forall_prop.mp (by decide)) h
      · exact ⟨_, .inl rfl, (takes_skip d hskip).trans (takes_number h)⟩
    · rw [parseItems] at h
      split at h
      · cases h
      rename_i v rest' hv
      obtain ⟨s, hs, htakes⟩ := hvalue d _ _ _ hv
      split at h
      · rename_i rest'' hcomma
        obtain ⟨res, hres, heq⟩ := Option.map_eq_some_iff.mp h
        cases heq
        exact (htakes.trans (takes_char hs hcomma lex_comma)).trans (hitems d _ _ _ hres)
      · rename_i rest'' hbracket
        cases h
        exact htakes.trans (takes_char hs hbracket lex_bracket)
      · cases h
    · rw [parseMembers] at h
      split at h
      · rename_i cs' hquote
        have hstart := takes_start d hquote
        split at h
        · cases h
        rename_i k rest₁ hk
        have hkey := hstart.trans (takes_string d _ _ _ _ hk)
        split at h
        · rename_i rest₂ hcolon
          have hcolon := hkey.trans (takes_char (.inr rfl) hcolon lex_colon)
          split at h
          · cases h
          rename_i v rest₃ hv
          obtain ⟨s, hs, htakes⟩ := hvalue d _ _ _ hv
          have hmember := hcolon.trans htakes
          split at h
          · rename_i rest₄ hcomma
            obtain ⟨res, hres, heq⟩ := Option.map_eq_some_iff.mp h
            cases heq
            exact (hmember.trans (takes_char hs hcomma lex_comma)).trans (hmembers d _ _ _ hres)
          · rename_i rest₄ hbrace
            cases h
            exact hmember.trans (takes_char hs hbrace lex_brace)
          · cases h
        · cases h
      · cases h

theorem lex_done_blanks : ∀ {ws : Text}, (∀ c ∈ ws, isBlank c = true) → ws.foldl lex .done = .done
  | [], _ => rfl
  | c :: ws, h => by
    rw [foldl_cons, lex, if_pos (h c mem_cons_self)]
    exact lex_done_blanks fun c' hc' => h c' (mem_cons_of_mem c hc')

/-- A reader of a text that can be parsed is done at its end. -/
theorem lex_parsed {v : Value Num} (h : parse numerals ('{' :: cs) = some v) : ('{' :: cs).foldl lex .start = .done := by
  unfold parse at h
  split at h
  · rename_i w rest hw
    split at h
    · rename_i hrest
      have hobject : Takes (.within 0 .plain) cs .done rest := by
        rw [parseValue, skipWs_cons rfl] at hw
        simp only [if_neg (show ¬ '{' = '"' by decide), if_neg (show ¬ '{' = '[' by decide), if_true] at hw
        split at hw
        · rename_i rest' hempty
          cases hw
          exact takes_start 0 hempty
        · obtain ⟨res, hres, heq⟩ := Option.map_eq_some_iff.mp hw
          cases heq
          exact (takes_values _).2.2 0 _ _ _ hres
      obtain ⟨used, rfl, hused⟩ := hobject
      have hblanks : ∀ c ∈ rest, isBlank c = true := fun c hc => isBlank_of_isWhitespace (List.dropWhile_eq_nil_iff.mp hrest c hc)
      calc ('{' :: (used ++ rest)).foldl lex .start = rest.foldl lex (used.foldl lex (.within 0 .plain)) := by
            rw [List.foldl_cons, List.foldl_append]
            rfl
        _ = rest.foldl lex .done := by rw [hused]
        _ = .done := lex_done_blanks hblanks
    · cases h
  · cases h

section Torn
variable {T p q : Text} {k : ℕ}

variable {pieces : List Text} {v : Value Num}

theorem lex_broken : ∀ t : Text, t.foldl lex .broken = .broken
  | [] => rfl
  | _ :: t => lex_broken t

/-- A text of an object with a key that starts with a letter. -/
structure IsWhole (T : Text) : Prop where
  starts : ∃ c t, T = '{' :: '"' :: c :: t ∧ ∀ d, lex (.within d .unquoted) c = .broken
  ends : ∃ t, T = t ++ ['}']
  done : T.foldl lex .start = .done

/-- The reader is in the object still, or will not come to an end. -/
def Lexed.IsOpen : Lexed → Prop
  | .within _ _ | .broken => True
  | .start | .done => False

theorem lex_ne_start (s : Lexed) (c : Char) : lex s c ≠ .start := by
  have hclose (d : ℕ) : close d ≠ .start := by cases d <;> nofun
  unfold lex
  repeat' split
  all_goals first | exact hclose _ | simp

theorem foldl_ne_start : ∀ {t : Text} (s : Lexed), t ≠ [] → t.foldl lex s ≠ .start
  | [c], s, _ => lex_ne_start s c
  | _ :: c :: t, s, _ => foldl_ne_start (t := c :: t) _ (by simp)

theorem lex_done_cases : ∀ t : Text, t.foldl lex .done = .done ∨ t.foldl lex .done = .broken
  | [] => .inl rfl
  | c :: t => by
    rw [foldl_cons, lex]
    split
    · exact lex_done_cases t
    · exact .inr (lex_broken t)

/-- The reader of a part of the text is in the object still. -/
theorem prefix_within (hT : IsWhole T) (hp : p ≠ []) (hq : q ≠ []) (h : T = p ++ q) :
    ∃ d m, p.foldl lex .start = .within d m := by
  have hdone := hT.done
  rw [h, foldl_append] at hdone
  cases hs : p.foldl lex .start with
  | start => exact absurd hs (foldl_ne_start _ hp)
  | within d m => exact ⟨d, m, rfl⟩
  | broken =>
    rw [hs, lex_broken] at hdone
    cases hdone
  | done =>
    obtain ⟨t, ht⟩ := hT.ends
    obtain ⟨q', hq'⟩ : ∃ q', q = q' ++ ['}'] := by
      rcases eq_nil_or_concat q with rfl | ⟨q', c, rfl⟩
      · exact absurd rfl hq
      · rw [concat_eq_append] at h ⊢
        rw [h, ← append_assoc] at ht
        obtain ⟨-, hc⟩ := append_inj' ht rfl
        exact ⟨q', by rw [hc]⟩
    rw [hs, hq', foldl_append] at hdone
    rcases lex_done_cases q' with heq | heq
    · rw [heq] at hdone
      cases hdone
    · rw [heq] at hdone
      cases hdone

/-- The reader `s'` has `k + 1` more brackets around it than `s`. -/
def Lexed.Shift (k : ℕ) : Lexed → Lexed → Prop
  | .start, _ => False
  | .within d m, s' => s' = .within (d + k + 1) m
  | .done, s' => s' = .within k .plain
  | .broken, _ => True

theorem Lexed.Shift.close (d k : ℕ) : Lexed.Shift k (close d) (Json.close (d + k + 1)) := by
  cases d with
  | zero =>
    rw [Nat.zero_add]
    rfl
  | succ d =>
    rw [Nat.succ_add]
    rfl

theorem Lexed.Shift.lex (h : Lexed.Shift k s s') (c : Char) : Lexed.Shift k (lex s c) (lex s' c) := by
  cases s with
  | start => cases h
  | broken => trivial
  | done =>
    cases h
    by_cases hc : isBlank c = true
    · obtain ⟨hquote, hbrace, hbracket, hbrace', hbracket'⟩ := isBlank_ne hc
      simp [Json.lex, hc, hquote, hbrace, hbracket, hbrace', hbracket', Lexed.Shift]
    · simp [Json.lex, hc, Lexed.Shift]
  | within d m =>
    cases h
    cases m with
    | plain =>
      simp only [Json.lex]
      split
      · rfl
      split
      · have hdepth : d + k + 1 + 1 = d + 1 + k + 1 := by omega
        rw [hdepth]
        rfl
      split
      · exact .close d k
      · rfl
    | quoted =>
      simp only [Json.lex]
      split
      · rfl
      split
      · rfl
      · rfl
    | escaped => rfl
    | unquoted =>
      simp only [Json.lex]
      split
      · exact .close d k
      split
      · rfl
      · trivial

theorem Lexed.Shift.foldl : ∀ (t : Text) {s s' : Lexed}, Lexed.Shift k s s' → Lexed.Shift k (t.foldl Json.lex s) (t.foldl Json.lex s')
  | [], _, _, h => h
  | c :: t, _, _, h => Lexed.Shift.foldl t (h.lex c)

theorem prefix_starts (hT : IsWhole T) (hp : p ≠ []) (h : p <+: T) :
    p = ['{'] ∨ p = ['{', '"'] ∨ ∃ c t, p = '{' :: '"' :: c :: t ∧ ∀ d, Json.lex (.within d .unquoted) c = .broken := by
  obtain ⟨q, hq⟩ := h
  obtain ⟨c, t, ht, hc⟩ := hT.starts
  rw [ht] at hq
  match p, hp with
  | [a], _ =>
    cases hq
    exact .inl rfl
  | [a, b], _ =>
    cases hq
    exact .inr (.inl rfl)
  | a :: b :: c' :: p, _ =>
    cases hq
    exact .inr (.inr ⟨_, _, rfl, hc⟩)

/-- Where an object has been broken off, nothing that starts like an object brings it to an end. -/
theorem still_open (hT : IsWhole T) (hp : p ≠ []) (h : p <+: T) (hs : s.IsOpen) : (p.foldl lex s).IsOpen := by
  have hbroken (t : Text) : (t.foldl lex .broken).IsOpen := by
    rw [lex_broken]
    trivial
  cases s with
  | start | done => cases hs
  | broken => exact hbroken p
  | within d m =>
    rcases prefix_starts hT hp h with rfl | rfl | ⟨c, t, rfl, hc⟩
    · cases m <;> trivial
    · cases m <;> trivial
    · have hquoted : (('{' :: '"' :: c :: t).foldl lex (.within d .quoted)).IsOpen := by
        have hstep : ('{' :: '"' :: c :: t).foldl lex (.within d .quoted) = t.foldl lex (lex (.within d .unquoted) c) := rfl
        rw [hstep, hc]
        exact hbroken t
      cases m with
      | quoted | escaped => exact hquoted
      | unquoted => exact hbroken _
      | plain =>
        -- inside the object the next one has one bracket more around it than on its own
        have hshift : Lexed.Shift d (lex .start '{') (lex (.within d .plain) '{') := by
          show Lexed.within (d + 1) .plain = .within (0 + d + 1) .plain
          rw [Nat.zero_add]
        have hshift := hshift.foldl ('"' :: c :: t)
        rw [← List.foldl_cons, ← List.foldl_cons] at hshift
        generalize ('{' :: '"' :: c :: t).foldl lex (.within d .plain) = s' at hshift ⊢
        cases hstart : ('{' :: '"' :: c :: t).foldl lex .start with
        | start => exact absurd hstart (foldl_ne_start _ (by simp))
        | within d' m' =>
          rw [hstart] at hshift
          cases hshift
          trivial
        | done =>
          rw [hstart] at hshift
          cases hshift
          trivial
        | broken =>
          obtain ⟨q, hq⟩ := h
          have hdone := hT.done
          rw [← hq, foldl_append, hstart, lex_broken] at hdone
          cases hdone

/-- Pieces that are not empty, each of them the beginning of the text of an object. -/
def ArePieces (pieces : List Text) : Prop := ∀ p ∈ pieces, p ≠ [] ∧ ∃ T, IsWhole T ∧ p <+: T

theorem open_pieces : ∀ {pieces : List Text} {s : Lexed}, ArePieces pieces → s.IsOpen → (pieces.flatten.foldl lex s).IsOpen
  | [], _, _, hs => hs
  | p :: ps, _, hpieces, hs => by
    obtain ⟨hp, T, hT, hprefix⟩ := hpieces p mem_cons_self
    rw [flatten_cons, foldl_append]
    exact open_pieces (fun p' hp' => hpieces p' (mem_cons_of_mem p hp')) (still_open hT hp hprefix hs)

theorem prefix_done (hT : IsWhole T) (hp : p ≠ []) (h : p <+: T) (hdone : p.foldl lex .start = .done) : p = T := by
  obtain ⟨q, hq⟩ := h
  by_cases hwhole : q = []
  · rw [← hq, hwhole, append_nil]
  · obtain ⟨d, m, hwithin⟩ := prefix_within hT hp hwhole hq.symm
    rw [hdone] at hwithin
    cases hwithin

/-- Joined pieces are the text of an object only if there is one piece, and all of it. -/
theorem whole_of_joined (hpieces : ArePieces pieces) (hdone : pieces.flatten.foldl lex .start = .done) :
    ∃ p, pieces = [p] ∧ ∀ T, IsWhole T → p <+: T → p = T := by
  cases pieces with
  | nil => cases hdone
  | cons p ps =>
    obtain ⟨hp, T, hT, q, hq⟩ := hpieces p mem_cons_self
    have hrest : ArePieces ps := fun p' hp' => hpieces p' (mem_cons_of_mem p hp')
    rw [flatten_cons, foldl_append] at hdone
    by_cases hwhole : q = []
    · rw [hwhole, append_nil] at hq
      subst hq
      cases ps with
      | nil => exact ⟨p, rfl, fun T hT' hprefix => prefix_done hT' hp hprefix hdone⟩
      | cons p' ps =>
        -- what follows a whole text starts with a bracket
        obtain ⟨hp', T', hT', hprefix⟩ := hrest p' mem_cons_self
        obtain ⟨t, ht⟩ : ∃ t, p' = '{' :: t := by
          rcases prefix_starts hT' hp' hprefix with rfl | rfl | ⟨c, t, rfl, -⟩ <;> exact ⟨_, rfl⟩
        have hbroken : (('{' :: t) ++ ps.flatten).foldl lex .done = .broken := lex_broken (t ++ ps.flatten)
        rw [hT.done, flatten_cons, ht, hbroken] at hdone
        cases hdone
    · obtain ⟨d, m, hwithin⟩ := prefix_within hT hp hwhole hq.symm
      have hopen := open_pieces hrest (show (Lexed.within d m).IsOpen from trivial)
      rw [hwithin] at hdone
      rw [hdone] at hopen
      cases hopen

/-- Python's `strip`, of a text in ASCII. -/
def strip (t : Text) : Text := (t.dropWhile isBlank).rdropWhile isBlank

theorem lex_stripped {t : Text} (h : parse numerals (strip ('{' :: t)) = some v) :
    ('{' :: t).foldl lex .start = .done := by
  have hstrip : strip ('{' :: t) = ('{' :: t).rdropWhile isBlank := by
    rw [strip, dropWhile_cons_of_neg (by decide)]
  have hsplit : strip ('{' :: t) ++ ('{' :: t).rtakeWhile isBlank = '{' :: t := by
    rw [hstrip]
    exact rdropWhile_append_rtakeWhile
  -- a bracket is not stripped
  obtain ⟨t', ht'⟩ : ∃ t', strip ('{' :: t) = '{' :: t' := by
    cases hs : strip ('{' :: t) with
    | nil =>
      rw [hs, nil_append] at hsplit
      have hblank : isBlank '{' = true := by
        apply mem_rtakeWhile_imp (l := '{' :: t)
        rw [hsplit]
        exact mem_cons_self
      cases hblank
    | cons c t' =>
      rw [hs, cons_append, cons.injEq] at hsplit
      exact ⟨t', by rw [hsplit.1]⟩
  rw [ht'] at h hsplit
  calc ('{' :: t).foldl lex .start = (('{' :: t').foldl lex .start |> (('{' :: t).rtakeWhile isBlank).foldl lex) := by
        rw [← foldl_append, hsplit]
    _ = .done := by
        rw [lex_parsed h]
        exact lex_done_blanks fun c hc => mem_rtakeWhile_imp hc

theorem whole_of_parsed (hpieces : ArePieces pieces)
    (h : parse numerals (strip pieces.flatten) = some v) : ∃ p, pieces = [p] ∧ ∀ T, IsWhole T → p <+: T → p = T := by
  cases pieces with
  | nil => cases h
  | cons p ps =>
    obtain ⟨hp, T, hT, hprefix⟩ := hpieces p mem_cons_self
    apply whole_of_joined hpieces
    obtain ⟨t, ht⟩ : ∃ t, p = '{' :: t := by
      rcases prefix_starts hT hp hprefix with rfl | rfl | ⟨c, t, rfl, -⟩ <;> exact ⟨_, rfl⟩
    rw [flatten_cons, ht, cons_append] at h ⊢
    exact lex_stripped h

theorem strip_whole (hT : IsWhole T) : strip T = T := by
  obtain ⟨c, t, hstart, -⟩ := hT.starts
  obtain ⟨t', hend⟩ := hT.ends
  have hleft : T.dropWhile isBlank = T := by
    rw [hstart, dropWhile_cons_of_neg (by decide)]
  have hright : T.rdropWhile isBlank = T := by
    rw [hend, rdropWhile_concat_neg _ _ _ (by decide)]
  rw [strip, hleft, hright]

end Torn
end Soter.Json
