import Mathlib.Data.List.Infix

/-! Glob patterns: `*` for anything, `?` for one character, `[...]` for one of a set, and a backslash before
a character that stands for itself. -/
namespace Soter.Glob

def isSpecial (c : Char) : Bool := c ∈ ['*', '?', '[', '\\']

/-- What is told of a matcher: a plain character stands for itself, and a star for anything. -/
structure Laws (matchPattern : List Char → List Char → Bool) : Prop where
  plain : ∀ c pattern key, isSpecial c = false →
    (matchPattern (c :: pattern) key = true ↔ ∃ rest, key = c :: rest ∧ matchPattern pattern rest = true)
  star : ∀ pattern key,
    matchPattern ('*' :: pattern) key = true ↔ ∃ skipped rest, key = skipped ++ rest ∧ matchPattern pattern rest = true

section Literal
variable {matchPattern : List Char → List Char → Bool} {pattern key : List Char}

theorem Laws.literal (laws : Laws matchPattern) : ∀ {lit key : List Char}, (∀ c ∈ lit, isSpecial c = false) →
    (matchPattern (lit ++ pattern) key = true ↔ ∃ rest, key = lit ++ rest ∧ matchPattern pattern rest = true)
  | [], key, _ => by simp
  | c :: lit, key, hlit => by
    obtain ⟨hc, hlit⟩ := List.forall_mem_cons.mp hlit
    rw [List.cons_append, laws.plain c _ key hc]
    constructor
    · rintro ⟨rest, rfl, hrest⟩
      obtain ⟨rest', rfl, hrest'⟩ := (laws.literal hlit).mp hrest
      exact ⟨rest', rfl, hrest'⟩
    · rintro ⟨rest, rfl, hrest⟩
      exact ⟨lit ++ rest, rfl, (laws.literal hlit).mpr ⟨rest, rfl, hrest⟩⟩

theorem Laws.infix_of_star (laws : Laws matchPattern) {lit : List Char} (hlit : ∀ c ∈ lit, isSpecial c = false)
    (h : matchPattern ('*' :: (lit ++ pattern)) key = true) : lit <:+: key := by
  obtain ⟨skipped, rest, rfl, hrest⟩ := (laws.star _ key).mp h
  obtain ⟨after, rfl, -⟩ := (laws.literal hlit).mp hrest
  exact ⟨skipped, after, by rw [List.append_assoc]⟩

end Literal

/-- Whether the set that begins here holds the character, and the pattern after the set. -/
def matchSet (c : Char) : List Char → Bool × List Char
  | [] => (false, [])
  | ']' :: pattern => (false, pattern)
  | '\\' :: d :: pattern => ((c == d) || (matchSet c pattern).1, (matchSet c pattern).2)
  | a :: '-' :: b :: pattern =>
    (((a ≤ c && c ≤ b) || (b ≤ c && c ≤ a) || (matchSet c pattern).1), (matchSet c pattern).2)
  | d :: pattern => ((c == d) || (matchSet c pattern).1, (matchSet c pattern).2)

/-- Whether the set after an opening bracket admits the character; a caret turns it round. -/
def admits (c : Char) : List Char → Bool × List Char
  | '^' :: pattern => (!(matchSet c pattern).1, (matchSet c pattern).2)
  | pattern => matchSet c pattern

/-- The matcher with as many steps as the pattern has characters. -/
def matchSteps : ℕ → List Char → List Char → Bool
  | _, [], key => key.isEmpty
  | 0, _ :: _, _ => false
  | n + 1, c :: pattern, key =>
    if c = '*' then key.tails.any (matchSteps n pattern)
    else
      match key with
      | [] => false
      | d :: key =>
        if c = '?' then matchSteps n pattern key
        else if c = '[' then (admits d pattern).1 && matchSteps n (admits d pattern).2 key
        else if c = '\\' ∧ pattern ≠ [] then pattern.head? == some d && matchSteps n pattern.tail key
        else c == d && matchSteps n pattern key

def globMatch (pattern key : List Char) : Bool := matchSteps pattern.length pattern key

theorem globMatch_laws : Laws globMatch where
  plain c pattern key hc := by
    have hc : c ≠ '*' ∧ c ≠ '?' ∧ c ≠ '[' ∧ c ≠ '\\' := by simpa [isSpecial] using hc
    obtain ⟨hstar, hmark, hset, hescape⟩ := hc
    cases key with
    | nil => simp [globMatch, matchSteps, hstar]
    | cons d key =>
      have hsteps : globMatch (c :: pattern) (d :: key) = (c == d && globMatch pattern key) := by
        simp [globMatch, matchSteps, hstar, hmark, hset, hescape]
      rw [hsteps, Bool.and_eq_true, beq_iff_eq]
      constructor
      · rintro ⟨rfl, hrest⟩
        exact ⟨key, rfl, hrest⟩
      · rintro ⟨rest, hkey, hrest⟩
        cases hkey
        exact ⟨rfl, hrest⟩
  star pattern key := by
    have hsteps : globMatch ('*' :: pattern) key = key.tails.any (globMatch pattern) := by
      cases key with
      | nil => simp [globMatch, matchSteps]
      | cons d key => rfl
    simp only [hsteps, List.any_eq_true, List.mem_tails]
    constructor
    · rintro ⟨rest, ⟨skipped, hkey⟩, hrest⟩
      exact ⟨skipped, rest, hkey.symm, hrest⟩
    · rintro ⟨skipped, rest, hkey, hrest⟩
      exact ⟨rest, ⟨skipped, hkey.symm⟩, hrest⟩

theorem globMatch_mark (pattern : List Char) (d : Char) (key : List Char) :
    globMatch ('?' :: pattern) (d :: key) = globMatch pattern key := by
  simp [globMatch, matchSteps]

/-- The character of the pattern may stand for that of the key. -/
def Covers (c d : Char) : Prop := c = '*' ∨ c = '?' ∨ c = d ∧ isSpecial c = false

theorem globMatch_covers {lit text pattern key : List Char} (h : List.Forall₂ Covers lit text)
    (hkey : globMatch pattern key = true) : globMatch (lit ++ pattern) (text ++ key) = true := by
  induction h with
  | nil => exact hkey
  | @cons c d lit text hcovers _ ih =>
    rw [List.cons_append, List.cons_append]
    rcases hcovers with rfl | rfl | ⟨rfl, hplain⟩
    · exact (globMatch_laws.star _ _).mpr ⟨[d], text ++ key, rfl, ih⟩
    · rw [globMatch_mark]
      exact ih
    · exact (globMatch_laws.plain c _ _ hplain).mpr ⟨text ++ key, rfl, ih⟩

end Soter.Glob
