import Mathlib.Tactic.Linarith
import Soter.Lib.Run
import Soter.Lib.SlidingWindow
import Soter.Lib.Words

/-! `RateLimiterService` (`rate_limiter.py`) where it serves its checks from memory. -/
namespace Soter.RateLimiting
open Soter.Runs Soter.SlidingWindow

abbrev Text := List Char

/-- `str.isspace`. -/
def isSpace (c : Char) : Bool :=
  c.toNat ∈ [9, 10, 11, 12, 13, 28, 29, 30, 31, 32, 133, 160, 5760, 8232, 8233, 8239, 8287, 12288] ∨
    8192 ≤ c.toNat ∧ c.toNat ≤ 8202

def strip (text : Text) : Text := Words.trim isSpace text

def rstrip (c : Char) (text : Text) : Text := (text.reverse.dropWhile (· = c)).reverse

def zeros : List ℕ :=
  [0x30, 0x660, 0x6F0, 0x7C0, 0x966, 0x9E6, 0xA66, 0xAE6, 0xB66, 0xBE6, 0xC66, 0xCE6, 0xD66, 0xDE6, 0xE50, 0xED0,
    0xF20, 0x1040, 0x1090, 0x17E0, 0x1810, 0x1946, 0x19D0, 0x1A80, 0x1A90, 0x1B50, 0x1BB0, 0x1C40, 0x1C50, 0xA620,
    0xA8D0, 0xA900, 0xA9D0, 0xA9F0, 0xAA50, 0xABF0, 0xFF10, 0x104A0, 0x10D30, 0x11066, 0x110F0, 0x11136, 0x111D0,
    0x112F0, 0x11450, 0x114D0, 0x11650, 0x116C0, 0x11730, 0x118E0, 0x11950, 0x11C50, 0x11D50, 0x11DA0, 0x16A60,
    0x16AC0, 0x16B50, 0x1D7CE, 0x1D7D8, 0x1D7E2, 0x1D7EC, 0x1D7F6, 0x1E140, 0x1E2F0, 0x1E950, 0x1FBF0]

def digit? (c : Char) : Option ℕ :=
  (zeros.find? fun first => first ≤ c.toNat ∧ c.toNat < first + 10).map (c.toNat - ·)

def digits? (text : Text) : Option (List ℕ) :=
  ((text.splitOn '_').mapM fun part => if part = [] then none else part.mapM digit?).map List.flatten

/-- `int(text)`, or the `ValueError`. -/
def int? (text : Text) : Option ℤ :=
  let value (text : Text) : Option ℤ :=
    (digits? text).bind fun digits =>
      if 4300 < digits.length then none else some (digits.foldl (fun n digit => 10 * n + digit) 0 : ℕ)
  match strip text with
  | '-' :: rest => (value rest).map (- ·)
  | '+' :: rest => value rest
  | text => value text

def UNIT_SECONDS : List (String × ℤ) :=
  [("s", 1), ("sec", 1), ("second", 1), ("seconds", 1), ("m", 60), ("min", 60), ("minute", 60), ("minutes", 60),
    ("h", 3600), ("hr", 3600), ("hour", 3600), ("hours", 3600), ("d", 86400), ("day", 86400), ("days", 86400)]

/-- The names of the units are ASCII, so that `lower` matters for ASCII letters only. -/
def parseRateLimit (limitStr : Text) : ℤ × ℤ :=
  match ((strip limitStr).map Char.toLower).splitOn '/' with
  | [count, unit] =>
    match int? (strip count) with
    | some count => (count, (UNIT_SECONDS.lookup (String.ofList (strip unit))).getD 60)
    | none => (60, 60)
  | _ => (60, 60)

structure Request where
  path : Text
  method : Text
  xApiKey : Option Text
  authorization : Option Text
  clientHost : Option Text

def extractApiKey (request : Request) : Text :=
  let anonymous := "anon:".toList ++ request.clientHost.getD "anonymous".toList
  let bearer :=
    match request.authorization with
    | none => anonymous
    | some authHeader =>
      if ("bearer ".toList).isPrefixOf (authHeader.map Char.toLower) then
        if strip (authHeader.drop 7) = [] then anonymous else strip (authHeader.drop 7)
      else anonymous
  match request.xApiKey with
  | none => bearer
  | some apiKey => if apiKey = [] then bearer else strip apiKey

structure RateLimitResult where
  allowed : Bool
  limit : ℤ
  remaining : ℤ
  resetSeconds : ℤ
  retryAfter : ℤ
  endpoint : Text
  method : Text
  apiKey : Text
  windowSeconds : ℤ
  deriving DecidableEq

structure Settings where
  rateLimitEnabled : Bool := true
  rateLimitPerKeyDefault : Text := "60/minute".toList
  rateLimitEndpointOverrides : List (Text × Text) := []
  /-- `_dynamic_overrides`, which the checks do not change. -/
  dynamicOverrides : List (Text × Text) := []

def normalizedPath (endpoint : Text) : Text :=
  if 1 < endpoint.length then rstrip '/' endpoint else endpoint

def limitString (settings : Settings) (endpoint : Text) : Text :=
  (settings.dynamicOverrides.lookup endpoint <|>
    settings.dynamicOverrides.lookup (normalizedPath endpoint) <|>
    settings.rateLimitEndpointOverrides.lookup endpoint <|>
    settings.rateLimitEndpointOverrides.lookup (normalizedPath endpoint)).getD settings.rateLimitPerKeyDefault

def resolveLimit (settings : Settings) (endpoint : Text) : ℤ × ℤ := parseRateLimit (limitString settings endpoint)

def Request.storageKey (request : Request) : Text :=
  extractApiKey request ++ ':' :: request.path ++ ':' :: request.method

inductive PythonError
  | IndexError
  deriving DecidableEq

/-- `_in_memory_records`: the timestamps by their storage key. -/
abbrev Records := Text → List ℚ

/-- `max(1, int(math.ceil(earliest + window_seconds - now)))`. -/
def secondsLeft (earliest : ℚ) (windowSeconds : ℤ) (now : ℚ) : ℤ := max 1 (earliest + windowSeconds - now).ceil

/-- What `check` does when Redis has not answered. -/
def checkInMemory (limit windowSeconds : ℤ) (s : Records) (now : ℚ) (request : Request) :
    Except PythonError RateLimitResult × Records :=
  let records := prune (now - windowSeconds) (s request.storageKey)
  let result : RateLimitResult :=
    { allowed := false
      limit := limit
      remaining := 0
      resetSeconds := 0
      retryAfter := 0
      endpoint := request.path
      method := request.method
      apiKey := extractApiKey request
      windowSeconds := windowSeconds }
  if limit ≤ records.length then
    match records with
    | [] => (.error .IndexError, Function.update s request.storageKey records)
    | earliest :: _ =>
      let retryAfter := secondsLeft earliest windowSeconds now
      (.ok { result with resetSeconds := retryAfter, retryAfter }, Function.update s request.storageKey records)
  else
    (.ok { result with
        allowed := true
        remaining := max 0 (limit - records.length - 1)
        resetSeconds := secondsLeft (records.headD now) windowSeconds now },
      Function.update s request.storageKey (records ++ [now]))

/-- `redisResult` is what `_check_redis` returns: nothing, if Redis is not in use or fails. -/
def check (settings : Settings) (redisResult : Option RateLimitResult) (s : Records) (now : ℚ) (request : Request) :
    Except PythonError RateLimitResult × Records :=
  let (limit, windowSeconds) := resolveLimit settings request.path
  if settings.rateLimitEnabled = false then
    (.ok
      { allowed := true
        limit := limit
        remaining := limit
        resetSeconds := 0
        retryAfter := 0
        endpoint := request.path
        method := request.method
        apiKey := extractApiKey request
        windowSeconds := windowSeconds }, s)
  else
    match redisResult with
    | some result => (.ok result, s)
    | none => checkInMemory limit windowSeconds s now request

structure Check where
  time : ℚ
  request : Request

/-- The limiter, the time of the last check, and with their keys the times of all requests that were allowed. -/
structure Limiter where
  now : ℚ
  records : Records
  allowed : List (Text × ℚ)

def Limiter.fresh (now : ℚ) : Limiter where
  now
  records := fun _ => []
  allowed := []

def isAllowed : Except PythonError RateLimitResult → Bool
  | .ok result => result.allowed
  | .error _ => false

def serve (settings : Settings) (s : Limiter) (l : Check) : Limiter :=
  let (outcome, records) := check settings none s.records l.time l.request
  { now := l.time
    records
    allowed := if isAllowed outcome then s.allowed ++ [(l.request.storageKey, l.time)] else s.allowed }

def step (settings : Settings) (s : Limiter) (l : Check) : Option Limiter :=
  if settings.rateLimitEnabled = true ∧ s.now ≤ l.time then some (serve settings s l) else none

def Step (settings : Settings) (s : Limiter) (l : Check) (s' : Limiter) : Prop := step settings s l = some s'

def Limiter.times (s : Limiter) (key : Text) : List ℚ := (s.allowed.filter (·.1 = key)).map Prod.snd

def Check.key (l : Check) : Text := l.request.storageKey

def Check.limit (settings : Settings) (l : Check) : ℤ := (resolveLimit settings l.request.path).1

def Check.window (settings : Settings) (l : Check) : ℤ := (resolveLimit settings l.request.path).2

def outcome (settings : Settings) (t : Transition Limiter Check) : Except PythonError RateLimitResult :=
  (check settings none t.pre.records t.label.time t.label.request).1

/-- How many requests of its key a state says were allowed in the window that ends with the check. -/
def countAt (settings : Settings) (l : Check) (s : Limiter) : ℕ :=
  countIn (s.times l.key) (l.time - l.window settings) l.time

structure IsExact (settings : Settings) (t : Transition Limiter Check) : Prop where
  returns : ∃ result, outcome settings t = .ok result
  decides : ∀ result, outcome settings t = .ok result →
    (result.allowed = true ↔ (countAt settings t.label t.pre : ℤ) < t.label.limit settings)
  bounded : ∀ a b : ℚ, b - a ≤ t.label.window settings →
    (countIn (t.post.times t.label.key) a b : ℤ) ≤ t.label.limit settings
  remains : ∀ result, outcome settings t = .ok result →
    result.remaining = t.label.limit settings - countAt settings t.label t.post
  /-- The request is repeated after the time it has been told, and no other of its key has come in between. -/
  retries : ∀ result, outcome settings t = .ok result → result.allowed = false → 1 ≤ t.label.limit settings →
    ∀ s : Records, s t.label.key = t.post.records t.label.key →
      isAllowed (check settings none s (t.label.time + result.retryAfter) t.label.request).1 = true

/-- Requests of one key have one limit, as they have when their paths have the same limit string. -/
def OneLimit (settings : Settings) (tr : List (Transition Limiter Check)) : Prop :=
  ∀ t ∈ tr, ∀ t' ∈ tr, t.label.key = t'.label.key →
    resolveLimit settings t.label.request.path = resolveLimit settings t'.label.request.path

theorem parseRateLimit_window (limitStr : Text) : 0 < (parseRateLimit limitStr).2 := by
  have hunits : ∀ unit, 0 < (UNIT_SECONDS.lookup unit).getD 60 := by
    intro unit
    cases hunit : UNIT_SECONDS.lookup unit with
    | none => decide
    | some seconds =>
      have hall : UNIT_SECONDS.all (fun entry => decide (0 < entry.2)) = true := by decide
      obtain ⟨before, after, hsplit, -⟩ := List.lookup_eq_some_iff.mp hunit
      have hmem : (unit, seconds) ∈ UNIT_SECONDS := by
        rw [hsplit]
        exact List.mem_append_right _ List.mem_cons_self
      exact of_decide_eq_true (List.all_eq_true.mp hall _ hmem)
  unfold parseRateLimit
  split
  · split
    · exact hunits _
    · decide
  · decide

/-- The requests that were allowed are what is left of the records, counted in their windows. -/
structure Tracks (limit window : ℤ) (key : Text) (s : Limiter) : Prop where
  sorted : (s.times key).Pairwise (· ≤ ·)
  past : ∀ x ∈ s.times key, x ≤ s.now
  kept : Kept (window : ℚ) s.now (s.records key) (s.times key)
  bounded : Bounded limit.toNat (window : ℚ) (s.times key)

theorem Tracks.fresh (limit window : ℤ) (key : Text) (now : ℚ) : Tracks limit window key (Limiter.fresh now) where
  sorted := List.Pairwise.nil
  past _ hx := by cases hx
  kept := Kept.of_filter now _ []
  bounded := Bounded.nil

section Checks
variable {settings : Settings} {limit window : ℤ} {s s' : Limiter} {l : Check} {key : Text}

theorem Tracks.pruned (h : Tracks limit window key s) {now : ℚ} (hnow : s.now ≤ now) :
    prune (now - window) (s.records key) = (s.times key).filter (now - window < ·) :=
  h.kept.prune h.sorted hnow

theorem Tracks.length_pruned (h : Tracks limit window key s) {now : ℚ} (hnow : s.now ≤ now) :
    (prune (now - window) (s.records key)).length = countIn (s.times key) (now - window) now := by
  rw [h.pruned hnow]
  exact length_filter_eq_countIn fun x hx => (h.past x hx).trans hnow

theorem times_snoc_self (s : Limiter) (time : ℚ) (records : Records) :
    Limiter.times ⟨time, records, s.allowed ++ [(key, time)]⟩ key = s.times key ++ [time] := by
  simp [Limiter.times, List.filter_append]

theorem times_snoc_ne (s : Limiter) (time : ℚ) (records : Records) {other : Text} (h : other ≠ key) :
    Limiter.times ⟨time, records, s.allowed ++ [(other, time)]⟩ key = s.times key := by
  simp [Limiter.times, List.filter_append, h]

/-- What a check may come to; `kept` are the records that the pruning has left. -/
inductive Acts (limit window : ℤ) (s : Records) (now : ℚ) (key : Text) (kept : List ℚ) :
    Except PythonError RateLimitResult → Records → Prop
  | refused {earliest : ℚ} {rest : List ℚ} {result : RateLimitResult} (hfull : limit ≤ kept.length)
      (hkept : kept = earliest :: rest) (hallowed : result.allowed = false) (hremaining : result.remaining = 0)
      (hretry : result.retryAfter = secondsLeft earliest window now) :
      Acts limit window s now key kept (.ok result) (Function.update s key kept)
  | raised (hfull : limit ≤ kept.length) (hkept : kept = []) :
      Acts limit window s now key kept (.error .IndexError) (Function.update s key kept)
  | admitted {result : RateLimitResult} (hroom : kept.length < limit) (hallowed : result.allowed = true)
      (hremaining : result.remaining = limit - kept.length - 1) :
      Acts limit window s now key kept (.ok result) (Function.update s key (kept ++ [now]))

theorem checkInMemory_acts (limit window : ℤ) (s : Records) (now : ℚ) (request : Request) :
    Acts limit window s now request.storageKey (prune (now - window) (s request.storageKey))
      (checkInMemory limit window s now request).1 (checkInMemory limit window s now request).2 := by
  unfold checkInMemory
  dsimp only
  generalize prune (now - window) (s request.storageKey) = kept
  by_cases hfull : limit ≤ kept.length
  · rw [if_pos hfull]
    cases kept with
    | nil => exact .raised hfull rfl
    | cons earliest rest => exact .refused hfull rfl rfl rfl rfl
  · rw [if_neg hfull]
    apply Acts.admitted (not_le.mp hfull) rfl
    dsimp only
    omega

def keptAt (settings : Settings) (l : Check) (s : Limiter) : List ℚ :=
  prune (l.time - l.window settings) (s.records l.key)

theorem check_of_enabled (henabled : settings.rateLimitEnabled = true) (s : Records) (now : ℚ) (request : Request) :
    check settings none s now request =
      checkInMemory (resolveLimit settings request.path).1 (resolveLimit settings request.path).2 s now request := by
  simp only [check, henabled, Bool.true_eq_false, if_false]

theorem Step.acts (h : Step settings s l s') : settings.rateLimitEnabled = true ∧ s.now ≤ l.time ∧ ∃ records,
      Acts (l.limit settings) (l.window settings) s.records l.time l.key (keptAt settings l s)
        (outcome settings ⟨s, l, s'⟩) records ∧ s' = ⟨l.time, records,
        if isAllowed (outcome settings ⟨s, l, s'⟩) then s.allowed ++ [(l.key, l.time)] else s.allowed⟩ := by
  unfold Step step at h
  split at h
  case isFalse => cases h
  rename_i hserved
  obtain ⟨henabled, hnow⟩ := hserved
  have hacts := checkInMemory_acts (l.limit settings) (l.window settings) s.records l.time l.request
  have hcheck := check_of_enabled henabled s.records l.time l.request
  refine ⟨henabled, hnow, (check settings none s.records l.time l.request).2, ?_, ?_⟩
  · rw [outcome, hcheck]
    exact hacts
  · exact (Option.some.inj h).symm

theorem Step.tracks (h : Step settings s l s') (hs : Tracks limit window key s)
    (hkey : l.key = key → l.limit settings = limit ∧ l.window settings = window) : Tracks limit window key s' := by
  obtain ⟨-, hnow, records, hacts, hs'⟩ := h.acts
  generalize outcome settings ⟨s, l, s'⟩ = answer at hacts hs'
  subst hs'
  by_cases hsame : l.key = key
  · obtain ⟨hlimit, hwindow⟩ := hkey hsame
    subst hsame
    have hkept : keptAt settings l s = (s.times l.key).filter (l.time - window < ·) := by
      rw [keptAt, hwindow]
      exact hs.pruned hnow
    have hpast : ∀ x ∈ s.times l.key, x ≤ l.time := fun x hx => (hs.past x hx).trans hnow
    -- A check that refuses or raises keeps the pruned records and adds nothing.
    have hnothing : Tracks limit window l.key
        ⟨l.time, Function.update s.records l.key (keptAt settings l s), s.allowed⟩ := by
      refine ⟨hs.sorted, hpast, ?_, hs.bounded⟩
      dsimp only
      rw [Function.update_self, hkept]
      exact Kept.of_filter l.time _ _
    cases hacts with
    | @refused _ _ result hfull _ hallowed =>
      rw [isAllowed, hallowed]
      exact hnothing
    | raised => exact hnothing
    | @admitted result hroom hallowed hremaining =>
      have hpositive : (0 : ℚ) < window := by
        rw [← hwindow]
        exact_mod_cast parseRateLimit_window _
      rw [isAllowed, hallowed, if_pos rfl]
      refine ⟨?_, ?_, ?_, ?_⟩
      · rw [times_snoc_self]
        apply List.pairwise_append.mpr
        refine ⟨hs.sorted, List.pairwise_singleton _ _, fun x hx y hy => ?_⟩
        rw [List.mem_singleton.mp hy]
        exact hpast x hx
      · rw [times_snoc_self]
        intro x hx
        rcases List.mem_append.mp hx with hx | hx
        · exact hpast x hx
        · exact le_of_eq (List.mem_singleton.mp hx)
      · rw [times_snoc_self]
        dsimp only
        rw [Function.update_self, hkept]
        exact Kept.snoc l.time hpositive _
      · rw [times_snoc_self]
        apply hs.bounded.snoc hpast
        rw [hkept, length_filter_eq_countIn hpast, hlimit] at hroom
        omega
  · have hrecords : records key = s.records key := by
      cases hacts with
      | _ => exact Function.update_of_ne (Ne.symm hsame) ..
    have htimes : Limiter.times
        ⟨l.time, records, if isAllowed answer then s.allowed ++ [(l.key, l.time)] else s.allowed⟩ key = s.times key := by
      split
      · exact times_snoc_ne s _ _ hsame
      · rfl
    refine ⟨?_, ?_, ?_, ?_⟩
    · rw [htimes]
      exact hs.sorted
    · rw [htimes]
      exact fun x hx => (hs.past x hx).trans hnow
    · rw [htimes]
      dsimp only
      rw [hrecords]
      exact hs.kept.mono hnow
    · rw [htimes]
      exact hs.bounded

theorem Step.times_self (h : Step settings s l s') (hs : Tracks (l.limit settings) (l.window settings) l.key s) :
    s'.times l.key = admitNext (l.limit settings).toNat (l.window settings : ℚ) (s.times l.key) l.time := by
  obtain ⟨-, hnow, records, hacts, hs'⟩ := h.acts
  have hcount : (keptAt settings l s).length = countIn (s.times l.key) (l.time - l.window settings) l.time :=
    hs.length_pruned hnow
  generalize outcome settings ⟨s, l, s'⟩ = answer at hacts hs'
  subst hs'
  cases hacts with
  | refused hfull _ hallowed =>
    simp only [isAllowed, hallowed, Bool.false_eq_true, if_false]
    rw [admitNext, if_neg (by omega)]
    rfl
  | raised hfull =>
    simp only [isAllowed, Bool.false_eq_true, if_false]
    rw [admitNext, if_neg (by omega)]
    rfl
  | admitted hroom hallowed =>
    simp only [isAllowed, hallowed, if_true]
    rw [admitNext, if_pos (by omega)]
    exact times_snoc_self s _ _

theorem le_secondsLeft (earliest : ℚ) (windowSeconds : ℤ) (now : ℚ) :
    earliest ≤ now + secondsLeft earliest windowSeconds now - windowSeconds := by
  have hceil : earliest + windowSeconds - now ≤ (earliest + windowSeconds - now).ceil := Rat.le_ceil
  have hmax : ((earliest + windowSeconds - now).ceil : ℚ) ≤ secondsLeft earliest windowSeconds now := by
    exact_mod_cast le_max_right _ _
  linarith

theorem allowed_after_wait {request : Request} {now earliest : ℚ} {rest : List ℚ} {records : Records}
    (henabled : settings.rateLimitEnabled = true) (hrecords : records request.storageKey = earliest :: rest)
    (hlength : ((earliest :: rest).length : ℤ) ≤ (resolveLimit settings request.path).1) :
    isAllowed (check settings none records
      (now + secondsLeft earliest (resolveLimit settings request.path).2 now) request).1 = true := by
  generalize hwait : now + (secondsLeft earliest (resolveLimit settings request.path).2 now : ℚ) = later
  have hacts := checkInMemory_acts (resolveLimit settings request.path).1 (resolveLimit settings request.path).2 records
    later request
  rw [check_of_enabled henabled]
  -- The earliest record is pruned, which leaves one place.
  have hpruned : (prune (later - (resolveLimit settings request.path).2) (records request.storageKey)).length ≤
      rest.length := by
    have hgone : earliest ≤ later - (resolveLimit settings request.path).2 := by
      rw [← hwait]
      exact le_secondsLeft earliest _ now
    rw [hrecords, prune, List.dropWhile_cons, if_pos (decide_eq_true hgone)]
    exact (List.dropWhile_sublist _).length_le
  rw [List.length_cons] at hlength
  generalize checkInMemory (resolveLimit settings request.path).1 (resolveLimit settings request.path).2 records later
    request = answer at hacts ⊢
  obtain ⟨answer, records'⟩ := answer
  cases hacts with
  | refused hfull | raised hfull => omega
  | admitted hroom hallowed => exact hallowed

theorem Step.isExact_iff (h : Step settings s l s') (hs : Tracks (l.limit settings) (l.window settings) l.key s) :
    IsExact settings ⟨s, l, s'⟩ ↔ 1 ≤ l.limit settings := by
  have hs' := h.tracks hs fun _ => ⟨rfl, rfl⟩
  obtain ⟨henabled, hnow, records, hacts, heq⟩ := h.acts
  have hcount : (keptAt settings l s).length = countAt settings l s := hs.length_pruned hnow
  have hbound : countAt settings l s ≤ (l.limit settings).toNat := hs.bounded.countIn_le (by rw [sub_sub_cancel])
  constructor
  · intro hexact
    obtain ⟨result, hresult⟩ := hexact.returns
    rw [hresult] at hacts
    cases hacts with
    | refused hfull hkept =>
      rw [hkept, List.length_cons] at hcount
      omega
    | admitted hroom => omega
  · intro hpositive
    refine ⟨?_, fun result hresult => ?_, fun a b hlength => ?_, fun result hresult => ?_,
      fun result hresult hrefused _ records' hrecords' => ?_⟩
    · generalize outcome settings ⟨s, l, s'⟩ = answer at hacts ⊢
      cases hacts with
      | refused => exact ⟨_, rfl⟩
      | raised hfull hkept =>
        rw [hkept, List.length_nil] at hfull
        omega
      | admitted => exact ⟨_, rfl⟩
    · rw [hresult] at hacts
      rw [← hcount]
      cases hacts with
      | refused hfull _ hallowed =>
        rw [hallowed]
        simpa using hfull
      | admitted hroom hallowed =>
        rw [hallowed]
        simpa using hroom
    · have hle := hs'.bounded.countIn_le hlength
      dsimp only at hle ⊢
      omega
    · have hwindow : l.time - (l.window settings : ℚ) < l.time := by
        apply sub_lt_self
        exact_mod_cast parseRateLimit_window _
      rw [hresult] at hacts heq
      dsimp only
      cases hacts with
      | refused hfull _ hallowed hremaining =>
        have hpost : countAt settings l s' = countAt settings l s := by
          rw [heq, isAllowed, hallowed]
          rfl
        rw [hremaining, hpost]
        omega
      | admitted hroom hallowed hremaining =>
        have hpost : countAt settings l s' = countAt settings l s + 1 := by
          rw [heq, isAllowed, hallowed, if_pos rfl, countAt, times_snoc_self]
          exact countIn_snoc_self hwindow
        rw [hremaining, hpost, hcount]
        push_cast
        omega
    · rw [hresult] at hacts heq
      cases hacts with
      | @refused earliest rest _ hfull hkept _ _ hretry =>
        rw [heq] at hrecords'
        dsimp only at hrecords'
        rw [Function.update_self, hkept] at hrecords'
        rw [hretry]
        apply allowed_after_wait henabled hrecords'
        rw [← hkept, hcount]
        change (countAt settings l s : ℤ) ≤ l.limit settings
        omega
      | admitted hroom hallowed =>
        rw [hallowed] at hrefused
        cases hrefused

/-- The checks of a run are exact, and none raises, exactly when every limit is positive. -/
theorem checks_exact_iff {now : ℚ} {tr : List (Transition Limiter Check)} {s' : Limiter}
    (h : Run (Step settings) (Limiter.fresh now) tr s') (hone : OneLimit settings tr) :
    (∀ t ∈ tr, IsExact settings t) ↔ ∀ t ∈ tr, 1 ≤ t.label.limit settings := by
  have htracks : ∀ t ∈ tr, Tracks (t.label.limit settings) (t.label.window settings) t.label.key t.pre := by
    intro t ht
    -- The limit of this check is the limit of all earlier ones of its key.
    have hsame : ∀ t' ∈ tr, t'.label.key = t.label.key →
        t'.label.limit settings = t.label.limit settings ∧ t'.label.window settings = t.label.window settings := by
      intro t' ht' hkey
      have hresolve := hone t' ht' t ht hkey
      exact ⟨congrArg Prod.fst hresolve, congrArg Prod.snd hresolve⟩
    exact (h.invariant_at (Tracks.fresh _ _ _ _) hsame (fun _ hstep hkey hpre => hstep.tracks hpre hkey) ht).1
  have hiff : ∀ t ∈ tr, (IsExact settings t ↔ 1 ≤ t.label.limit settings) := fun t ht =>
    Step.isExact_iff (h.step_of_mem ht) (htracks t ht)
  exact ⟨fun hexact t ht => (hiff t ht).mp (hexact t ht), fun hlimit t ht => (hiff t ht).mpr (hlimit t ht)⟩

theorem OneLimit.of_limitString {limitStr : Text} (h : ∀ path, limitString settings path = limitStr)
    (tr : List (Transition Limiter Check)) : OneLimit settings tr := by
  intro t _ t' _ _
  rw [resolveLimit, resolveLimit, h, h]

end Checks

def demoSettings (limitStr : String) : Settings where
  rateLimitPerKeyDefault := limitStr.toList

def demoRequest : Request where
  path := "/v1/ai/inference".toList
  method := "POST".toList
  xApiKey := some "key".toList
  authorization := none
  clientHost := none

def demoChecks : List Check := [⟨0, demoRequest⟩, ⟨mkRat 1 2, demoRequest⟩, ⟨mkRat 3 4, demoRequest⟩, ⟨mkRat 7 4, demoRequest⟩]

theorem oneLimit_demo (limitStr : String) (tr : List (Transition Limiter Check)) : OneLimit (demoSettings limitStr) tr :=
  OneLimit.of_limitString (fun _ => rfl) tr

theorem checks_exact_demo : (play (step (demoSettings "2/second")) (Limiter.fresh 0) demoChecks).1.map
        (fun t => isAllowed (outcome (demoSettings "2/second") t)) = [true, true, false, true] ∧
      ∀ t ∈ (play (step (demoSettings "2/second")) (Limiter.fresh 0) demoChecks).1,
        IsExact (demoSettings "2/second") t := by
  refine ⟨by decide +kernel,
    (checks_exact_iff (play_run (fun _ _ _ h => h) demoChecks _) (oneLimit_demo _ _)).mpr ?_⟩
  decide +kernel

theorem zero_limit_raises : ∃ tr s, Run (Step (demoSettings "0/minute")) (Limiter.fresh 0) tr s ∧
    OneLimit (demoSettings "0/minute") tr ∧ ¬ ∀ t ∈ tr, IsExact (demoSettings "0/minute") t := by
  refine ⟨_, _, play_run (fun _ _ _ h => h) [⟨0, demoRequest⟩] _, oneLimit_demo _ _, fun hexact => ?_⟩
  have hraised : ((play (step (demoSettings "0/minute")) (Limiter.fresh 0) [⟨0, demoRequest⟩]).1[0]?.map
      (outcome (demoSettings "0/minute"))) = some (.error .IndexError) := by
    decide +kernel
  obtain ⟨t, ht, hraised⟩ := Option.map_eq_some_iff.mp hraised
  obtain ⟨result, hresult⟩ := (hexact t (List.mem_of_getElem? ht)).returns
  rw [hraised] at hresult
  cases hresult

end Soter.RateLimiting
