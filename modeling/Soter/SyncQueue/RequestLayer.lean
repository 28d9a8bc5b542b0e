import Mathlib.Data.Rat.Floor
import Soter.Lib.JsNumber

/-! `apiRequest` (`requestLayer.ts`): the attempts of a request, and the waits between them. -/
namespace Soter.RequestLayer
open Soter.JsNumbers (round numberBits trim)

section Service

inductive Method
  | GET
  | POST
  | PUT
  | PATCH
  | DELETE
  deriving DecidableEq

structure RequestConfig where
  method : Method
  path : String
  /-- `JSON.stringify(body)`. -/
  body : Option String := none
  headers : List (String × String) := []
  maxRetries : ℤ := 3
  deadlineMs : ℚ := mkRat 30000 1
  idempotencyKey : Option String := none

/-- What the layer has from elsewhere, and the identifier that a call of `uuidV4` gives. -/
structure Client where
  apiUrl : String
  apiKey : String
  correlationHeaders : List (String × String)
  uuid : String

structure FetchCall where
  url : String
  method : Method
  headers : List (String × String)
  body : Option String
  deriving DecidableEq

def setHeader (headers : List (String × String)) (header : String × String) : List (String × String) :=
  headers.filter (·.1 ≠ header.1) ++ [header]

def effectiveIdempotencyKey (client : Client) (cfg : RequestConfig) : Option String :=
  if cfg.method = .GET ∨ cfg.method = .DELETE then none else some (cfg.idempotencyKey.getD client.uuid)

def fetchCall (client : Client) (cfg : RequestConfig) : FetchCall where
  url := client.apiUrl ++ cfg.path
  method := cfg.method
  headers :=
    let headers := (cfg.headers ++ client.correlationHeaders).foldl setHeader [("Content-Type", "application/json")]
    let headers := ((effectiveIdempotencyKey client cfg).filter (· ≠ "")).elim headers fun key =>
      setHeader headers ("Idempotency-Key", key)
    if client.apiKey = "" then headers else setHeader headers ("x-api-key", client.apiKey)
  body := cfg.body

/-- `random` is what `Math.random()` gives. -/
def backoffMs (attempt : ℕ) (random : ℚ) : ℚ := ⌊random * min (200 * 2 ^ attempt) 10000⌋

def isRetryable (status : ℕ) : Bool := status = 408 ∨ status = 429 ∨ 500 ≤ status ∧ status ≤ 599

/-- `dateParse` is `Date.parse`, and `date` what `Date.now()` gives. -/
def parseRetryAfterMs (dateParse : List Char → Option ℤ) (date : ℤ) (header : Option String) : Option ℚ :=
  match header with
  | none => none
  | some header =>
    let trimmed := trim header.toList
    if trimmed = [] then none
    else if trimmed.all Char.isDigit then
      let seconds := round numberBits (Nat.ofDigitChars 10 trimmed 0)
      if 2 ^ 1024 ≤ seconds then none else some (round numberBits (1000 * seconds) : ℕ)
    else (dateParse trimmed).map fun dateMs => max 0 (dateMs - date : ℤ)

def rateLimitDelayMs (consecutiveRateLimits : ℕ) (retryAfterMs : Option ℚ) (attempt : ℕ) (random : ℚ) : ℚ :=
  let streak := max 1 consecutiveRateLimits
  let jittered := backoffMs attempt random
  let streakFloor : ℚ := min (200 * 2 ^ streak) 10000 * (if 1 < streak then streak else 1)
  match retryAfterMs with
  | some ms => max (max ms (if 1 < streak then streakFloor else 0)) (if 1 < streak then jittered else 0)
  | none => max jittered streakFloor

/-- A response with its `Retry-After` and what reading its body gives, after so long. -/
structure Response where
  status : ℕ
  retryAfter : Option String
  data : Except String String
  reading : ℚ

/-- What an attempt meets: the answer of `fetch` and how long it takes, how late the timers of the deadline and of the wait
fire, and what the clock and the random numbers give. -/
structure Exchange where
  reply : Except String Response
  took : ℚ
  deadlineLate : ℚ := 0
  waitLate : ℚ := 0
  date : ℤ := 0
  random : ℚ := 0
  waitLate_nonneg : 0 ≤ waitLate := by decide

inductive RequestError
  | rateLimited (retryAfterMs : Option ℚ)
  | http (status : ℕ)
  | other (message : String)
  deriving DecidableEq

structure ApiResponse where
  status : ℕ
  data : String
  retries : ℕ
  deriving DecidableEq

structure LoopState where
  now : ℚ
  retries : ℕ := 0
  consecutiveRateLimits : ℕ := 0
  lastRetryAfterMs : Option ℚ := none
  lastError : Option RequestError := none

def isOk (status : ℕ) : Bool := 200 ≤ status ∧ status ≤ 299

def deadlineAt (cfg : RequestConfig) (x : Exchange) : ℚ := max 0 cfg.deadlineMs + x.deadlineLate

/-- What `fetch` comes to under the timer. -/
def fetched (cfg : RequestConfig) (x : Exchange) : Except String Response :=
  if deadlineAt cfg x < x.took then .error "Aborted" else x.reply

def settledAfter (cfg : RequestConfig) (x : Exchange) : ℚ := min x.took (deadlineAt cfg x)

inductive Verdict
  | returns (response : ApiResponse)
  | breaks
  | continues

/-- The `catch` of an attempt, at `now`. -/
def caught (cfg : RequestConfig) (attempt : ℕ) (x : Exchange) (s : LoopState) (now : ℚ) (error : RequestError) :
    LoopState × Verdict :=
  if attempt < cfg.maxRetries then
    ({ s with
        now := now + backoffMs attempt x.random + x.waitLate
        retries := s.retries + 1
        lastError := some error }, .continues)
  else ({ s with now, lastError := some error }, .continues)

variable (dateParse : List Char → Option ℤ)

def attemptOnce (cfg : RequestConfig) (attempt : ℕ) (x : Exchange) (s : LoopState) : LoopState × Verdict :=
  let now := s.now + settledAfter cfg x
  match fetched cfg x with
  | .error message => caught cfg attempt x s now (.other message)
  | .ok response =>
    if isOk response.status then
      let s := { s with consecutiveRateLimits := 0, lastRetryAfterMs := none }
      match response.data with
      | .ok data => ({ s with now := now + response.reading }, .returns ⟨response.status, data, s.retries⟩)
      | .error message => caught cfg attempt x s (now + response.reading) (.other message)
    else
      let s :=
        if response.status = 429 then
          { s with
            consecutiveRateLimits := s.consecutiveRateLimits + 1
            lastRetryAfterMs := parseRetryAfterMs dateParse x.date response.retryAfter }
        else { s with consecutiveRateLimits := 0, lastRetryAfterMs := none }
      if isRetryable response.status ∧ attempt < cfg.maxRetries then
        let delay :=
          if response.status = 429 then
            rateLimitDelayMs s.consecutiveRateLimits s.lastRetryAfterMs attempt x.random
          else backoffMs attempt x.random
        ({ s with now := now + delay + x.waitLate, retries := s.retries + 1 }, .continues)
      else if response.status = 429 then
        ({ s with now, lastError := some (.rateLimited s.lastRetryAfterMs) }, .breaks)
      else caught cfg attempt x s now (.http response.status)

structure Attempt where
  startedAt : ℚ
  call : FetchCall
  exchange : Exchange

def loop (client : Client) (cfg : RequestConfig) (world : ℕ → Exchange) :
    ℕ → ℕ → LoopState → List Attempt × Except RequestError ApiResponse
  | 0, _, s => ([], .error (s.lastError.getD (.other "Request failed after retries")))
  | remaining + 1, attempt, s =>
    let made : Attempt := ⟨s.now, fetchCall client cfg, world attempt⟩
    match attemptOnce dateParse cfg attempt (world attempt) s with
    | (_, .returns response) => ([made], .ok response)
    | (s', .breaks) => ([made], .error (s'.lastError.getD (.other "Request failed after retries")))
    | (s', .continues) =>
      let (attempts, result) := loop client cfg world remaining (attempt + 1) s'
      (made :: attempts, result)

def apiRequest (client : Client) (cfg : RequestConfig) (world : ℕ → Exchange) (now : ℚ) :
    List Attempt × Except RequestError ApiResponse :=
  loop dateParse client cfg world (cfg.maxRetries + 1).toNat 0 { now }

end Service
section Policy
variable (dateParse : List Char → Option ℤ) (cfg : RequestConfig) (world : ℕ → Exchange) (now : ℚ)

/-- The attempts of a call that began at `now`. -/
structure FollowsPolicy (attempts : List Attempt) : Prop where
  count : attempts.length ≤ max 0 (cfg.maxRetries + 1)
  oneCall : ∀ a ∈ attempts, ∀ b ∈ attempts, a.call = b.call
  stops : ∀ k a response, attempts[k]? = some a → fetched cfg a.exchange = .ok response →
    isRetryable response.status = false → attempts[k + 1]? = none
  waits : ∀ k a b response ms, attempts[k]? = some a → attempts[k + 1]? = some b → fetched cfg a.exchange = .ok response →
    response.status = 429 → parseRetryAfterMs dateParse a.exchange.date response.retryAfter = some ms →
      a.startedAt + settledAfter cfg a.exchange + ms ≤ b.startedAt
  deadline : ∀ a ∈ attempts, a.startedAt ≤ now + cfg.deadlineMs

def Succeeds (x : Exchange) : Prop :=
  ∃ response data, fetched cfg x = .ok response ∧ isOk response.status = true ∧ response.data = .ok data

def Reached (k : ℕ) : Prop := k ≤ cfg.maxRetries ∧ ∀ i < k, ¬ Succeeds cfg (world i)

def streak : ℕ → ℕ
  | 0 => 0
  | k + 1 =>
    match fetched cfg (world k) with
    | .error _ => streak k
    | .ok response => if response.status = 429 then streak k + 1 else 0

def spent (k : ℕ) : ℚ :=
  let x := world k
  match fetched cfg x with
  | .error _ => settledAfter cfg x + backoffMs k x.random + x.waitLate
  | .ok response =>
    if isOk response.status then settledAfter cfg x + response.reading + backoffMs k x.random + x.waitLate
    else if response.status = 429 then
      settledAfter cfg x + rateLimitDelayMs (streak cfg world (k + 1))
        (parseRetryAfterMs dateParse x.date response.retryAfter) k x.random + x.waitLate
    else settledAfter cfg x + backoffMs k x.random + x.waitLate

def elapsed : ℕ → ℚ
  | 0 => 0
  | k + 1 => elapsed k + spent dateParse cfg world k

variable {dateParse cfg world now} {client : Client} {k : ℕ} {s : LoopState}

theorem le_rateLimitDelayMs {c : ℕ} {ms random : ℚ} : ms ≤ rateLimitDelayMs c (some ms) k random :=
  (le_max_left _ _).trans (le_max_left _ _)

theorem not_isOk_of_rateLimit {status : ℕ} (h : status = 429) : isOk status = false := by
  subst h
  rfl

theorem caught_continues (s : LoopState) (x : Exchange) (at' : ℚ) (error : RequestError) (hk : k < cfg.maxRetries) :
    (caught cfg k x s at' error).2 = .continues ∧
      (caught cfg k x s at' error).1.now = at' + backoffMs k x.random + x.waitLate ∧
      (caught cfg k x s at' error).1.consecutiveRateLimits = s.consecutiveRateLimits := by
  unfold caught
  rw [if_pos hk]
  exact ⟨rfl, rfl, rfl⟩

theorem attemptOnce_continues (hk : k < cfg.maxRetries) (hfails : ¬ Succeeds cfg (world k))
    (hstreak : s.consecutiveRateLimits = streak cfg world k) :
    (attemptOnce dateParse cfg k (world k) s).2 = .continues ∧
      (attemptOnce dateParse cfg k (world k) s).1.now = s.now + spent dateParse cfg world k ∧
      (attemptOnce dateParse cfg k (world k) s).1.consecutiveRateLimits = streak cfg world (k + 1) := by
  simp only [attemptOnce, spent, streak]
  cases hfetched : fetched cfg (world k) with
  | error message =>
    obtain ⟨hverdict, hnow, hcount⟩ := caught_continues s (world k) (s.now + settledAfter cfg (world k)) (.other message) hk
    exact ⟨hverdict, by rw [hnow]; ring, by rw [hcount, hstreak]⟩
  | ok response =>
    dsimp only
    split
    · rename_i hok
      have hlimit : response.status ≠ 429 := fun h => by simp [not_isOk_of_rateLimit h] at hok
      rw [if_neg hlimit]
      cases hdata : response.data with
      | ok data => exact absurd ⟨response, data, hfetched, hok, hdata⟩ hfails
      | error message =>
        obtain ⟨hverdict, hnow, hcount⟩ := caught_continues
          { s with consecutiveRateLimits := 0, lastRetryAfterMs := none } (world k)
          (s.now + settledAfter cfg (world k) + response.reading) (.other message) hk
        exact ⟨hverdict, by rw [hnow]; ring, hcount⟩
    · by_cases hlimit : response.status = 429
      · have hretryable : isRetryable response.status = true := by simp [isRetryable, hlimit]
        simp only [if_pos hlimit, hretryable, hk, and_self, if_true, hstreak]
        refine ⟨trivial, ?_, trivial⟩
        ring
      · simp only [if_neg hlimit, hk, and_true]
        split
        · exact ⟨rfl, by ring, rfl⟩
        · obtain ⟨hverdict, hnow, hcount⟩ := caught_continues
            { s with consecutiveRateLimits := 0, lastRetryAfterMs := none } (world k)
            (s.now + settledAfter cfg (world k)) (.http response.status) hk
          exact ⟨hverdict, by rw [hnow]; ring, hcount⟩

theorem attemptOnce_returns (h : Succeeds cfg (world k)) :
    ∃ response, (attemptOnce dateParse cfg k (world k) s).2 = .returns response := by
  obtain ⟨response, data, hfetched, hok, hdata⟩ := h
  simp only [attemptOnce, hfetched, hok, hdata, if_true]
  exact ⟨_, rfl⟩

/-- By induction on the attempts left: those made are the ones that are reached, each at its time. -/
theorem loop_attempts {remaining : ℕ} (hremaining : (k + remaining : ℕ) = (cfg.maxRetries + 1).toNat)
    (hnow : s.now = now + elapsed dateParse cfg world k) (hstreak : s.consecutiveRateLimits = streak cfg world k)
    (hreached : ∀ i < k, ¬ Succeeds cfg (world i)) (j : ℕ) (a : Attempt) :
    (loop dateParse client cfg world remaining k s).1[j]? = some a ↔ Reached cfg world (k + j) ∧
      a = ⟨now + elapsed dateParse cfg world (k + j), fetchCall client cfg, world (k + j)⟩ := by
  induction remaining generalizing k s j with
  | zero =>
    have : ¬ Reached cfg world (k + j) := fun h => by
      have := h.1
      omega
    simp [loop, this]
  | succ remaining ih =>
    have hfirst : Reached cfg world k := ⟨by omega, hreached⟩
    by_cases hsucceeds : Succeeds cfg (world k)
    · obtain ⟨response, hverdict⟩ := @attemptOnce_returns dateParse cfg world k s hsucceeds
      have hloop : (loop dateParse client cfg world (remaining + 1) k s).1 = [⟨s.now, fetchCall client cfg, world k⟩] := by
        simp only [loop]
        split <;> simp_all
      rw [hloop]
      cases j with
      | zero => simp [hfirst, hnow, eq_comm]
      | succ j =>
        have : ¬ Reached cfg world (k + (j + 1)) := fun h => h.2 k (by omega) hsucceeds
        simp [this]
    · by_cases hlast : k < cfg.maxRetries
      · obtain ⟨hverdict, hnow', hstreak'⟩ := @attemptOnce_continues dateParse _ _ _ _ hlast hsucceeds hstreak
        have hloop : (loop dateParse client cfg world (remaining + 1) k s).1 =
            ⟨s.now, fetchCall client cfg, world k⟩ ::
              (loop dateParse client cfg world remaining (k + 1) (attemptOnce dateParse cfg k (world k) s).1).1 := by
          simp only [loop]
          split <;> simp_all
        rw [hloop]
        cases j with
        | zero => simp [hfirst, hnow, eq_comm]
        | succ j =>
          have hreached' : ∀ i < k + 1, ¬ Succeeds cfg (world i) := by
            intro i hi
            rcases Nat.lt_succ_iff_lt_or_eq.mp hi with hi | rfl
            · exact hreached i hi
            · exact hsucceeds
          rw [List.getElem?_cons_succ, ih (by omega) (by rw [hnow', hnow, elapsed]; ring) hstreak' hreached' j,
            show k + 1 + j = k + (j + 1) by omega]
      · -- The last attempt: nothing is left after it, whatever it comes to.
        obtain rfl : remaining = 0 := by omega
        have hloop : (loop dateParse client cfg world 1 k s).1 = [⟨s.now, fetchCall client cfg, world k⟩] := by
          simp only [loop]
          split <;> rfl
        rw [hloop]
        cases j with
        | zero => simp [hfirst, hnow, eq_comm]
        | succ j =>
          have : ¬ Reached cfg world (k + (j + 1)) := fun h => by
            have := h.1
            omega
          simp [this]

theorem apiRequest_attempts (j : ℕ) (a : Attempt) :
    (apiRequest dateParse client cfg world now).1[j]? = some a ↔ Reached cfg world j ∧
      a = ⟨now + elapsed dateParse cfg world j, fetchCall client cfg, world j⟩ := by
  have h := @loop_attempts dateParse cfg world now client 0 { now } (cfg.maxRetries + 1).toNat (Nat.zero_add _) (by simp [elapsed]) rfl
    (fun i hi => absurd hi (Nat.not_lt_zero i)) j a
  rwa [Nat.zero_add] at h

theorem follows_policy_iff (client : Client) (cfg : RequestConfig) (world : ℕ → Exchange) (now : ℚ) :
    FollowsPolicy dateParse cfg now (apiRequest dateParse client cfg world now).1 ↔
      (∀ k response, Reached cfg world (k + 1) → fetched cfg (world k) = .ok response →
        isRetryable response.status = true) ∧
      ∀ k, Reached cfg world k → elapsed dateParse cfg world k ≤ cfg.deadlineMs := by
  have hmade := @apiRequest_attempts dateParse cfg world now client
  constructor
  · intro h
    constructor
    · intro k response hreached hfetched
      by_contra hstatus
      have hk : Reached cfg world k := ⟨by have := hreached.1; omega, fun i hi => hreached.2 i (by omega)⟩
      have hnone := h.stops k _ response ((hmade k _).mpr ⟨hk, rfl⟩) hfetched (Bool.eq_false_iff.mpr hstatus)
      rw [(hmade (k + 1) _).mpr ⟨hreached, rfl⟩] at hnone
      cases hnone
    · intro k hreached
      have hdeadline := h.deadline _ (List.mem_of_getElem? ((hmade k _).mpr ⟨hreached, rfl⟩))
      simpa using hdeadline
  · rintro ⟨hretryable, hdeadline⟩
    have hmem {a : Attempt} (ha : a ∈ (apiRequest dateParse client cfg world now).1) : ∃ k, Reached cfg world k ∧
        a = ⟨now + elapsed dateParse cfg world k, fetchCall client cfg, world k⟩ := by
      obtain ⟨k, hk⟩ := List.mem_iff_getElem?.mp ha
      exact ⟨k, (hmade k a).mp hk⟩
    constructor
    · by_contra hcount
      have hlt : (cfg.maxRetries + 1).toNat < (apiRequest dateParse client cfg world now).1.length := by omega
      have hreached := ((hmade _ _).mp (List.getElem?_eq_getElem hlt)).1.1
      omega
    · intro a ha b hb
      obtain ⟨k, -, rfl⟩ := hmem ha
      obtain ⟨k', -, rfl⟩ := hmem hb
      rfl
    · intro k a response ha hfetched hstatus
      obtain ⟨-, rfl⟩ := (hmade k a).mp ha
      by_contra hnext
      obtain ⟨b, hb⟩ := Option.ne_none_iff_exists'.mp hnext
      have hretry := hretryable k response ((hmade _ _).mp hb).1 hfetched
      rw [hstatus] at hretry
      cases hretry
    · intro k a b response ms ha hb hfetched hstatus hms
      obtain ⟨-, rfl⟩ := (hmade k a).mp ha
      obtain ⟨-, rfl⟩ := (hmade _ b).mp hb
      dsimp only at hfetched hms ⊢
      have hspent : spent dateParse cfg world k = settledAfter cfg (world k) +
          rateLimitDelayMs (streak cfg world (k + 1)) (some ms) k (world k).random + (world k).waitLate := by
        simp only [spent, hfetched, not_isOk_of_rateLimit hstatus, Bool.false_eq_true, if_false]
        rw [if_pos hstatus, hms]
      have hdelay : ms ≤ rateLimitDelayMs (streak cfg world (k + 1)) (some ms) k (world k).random := le_rateLimitDelayMs
      have hlate := (world k).waitLate_nonneg
      rw [elapsed, hspent]
      linarith
    · intro a ha
      obtain ⟨k, hreached, rfl⟩ := hmem ha
      have := hdeadline k hreached
      dsimp only
      linarith

def answered (status : ℕ) : Exchange where
  reply := .ok { status, retryAfter := none, data := .ok "\x7b\x7d", reading := 0 }
  took := 10

theorem refused_sent_again :
    ¬ FollowsPolicy (fun _ => none) { method := .GET, path := "/test" } 0
      (apiRequest (fun _ => none) ⟨"", "", [], ""⟩ { method := .GET, path := "/test" } (fun _ => answered 400) 0).1 := by
  intro h
  have hsecond : ((apiRequest (fun _ => none) ⟨"", "", [], ""⟩ { method := .GET, path := "/test" }
      (fun _ => answered 400) 0).1[1]?.map (·.startedAt)) = some 10 := by decide +kernel
  obtain ⟨b, hb, -⟩ := Option.map_eq_some_iff.mp hsecond
  have hintime : ¬ deadlineAt { method := .GET, path := "/test" } (answered 400) < (answered 400).took := by decide +kernel
  have hnone := h.stops 0 _ _ ((apiRequest_attempts 0 _).mpr ⟨⟨by decide, by simp⟩, rfl⟩) (if_neg hintime) rfl
  rw [hb] at hnone
  cases hnone

end Policy
end Soter.RequestLayer
