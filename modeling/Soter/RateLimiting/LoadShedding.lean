import Mathlib.Algebra.Order.Ring.Rat
import Soter.Lib.Json

/-! The gates of `load_shedder.py`: what is shed when memory, the Celery queue or the providers are under pressure. -/
namespace Soter.LoadShedding
open Soter.Json (Text Value)

structure Settings where
  appEnv : String := "production"
  testProviderMode : Bool := false
  loadShedMemoryThresholdPercent : ℚ := mkRat 90 1
  loadShedMaxCeleryQueueDepth : ℤ := 100
  loadShedHighCeleryQueueDepth : Option ℤ := some 75
  loadShedLowCeleryQueueDepth : Option ℤ := some 50
  loadShedProviderDegradedThreshold : ℚ := mkRat 3 10

/-- What the gates ask of other parts: `check_system_resources`, and of the verification service whether all its providers are
unavailable and, where it has `get_provider_failure_rate`, the rate; `none` where asking the service raises. -/
structure World where
  resourcesHealthy : Bool
  providers : Option (Bool × Option ℚ)

/-- `payload` is what `json.loads` makes of `_body`, `none` where there is no such attribute or it cannot be read. -/
structure Request where
  path : Text
  method : Text
  payload : Option (Value ℚ)

inductive Reason
  | memory
  | queue_full
  | queue_high
  | provider_down
  | provider_degraded
  deriving DecidableEq

def REASON_MESSAGES : Reason → String
  | .memory => "Service temporarily unavailable due to high memory pressure"
  | .queue_full => "Service temporarily unavailable: task queue is at capacity"
  | .queue_high => "Service temporarily unavailable: task queue is under high load"
  | .provider_down => "Service temporarily unavailable: AI providers are currently down"
  | .provider_degraded => "Service temporarily unavailable: AI providers are degraded"

inductive Detail
  | int (n : ℤ)
  | float (q : ℚ)
  | str (s : String)

inductive Response
  | shed (retryAfter : ℕ) (code message : String) (reason : Reason) (details : List (String × Detail))
  | manualReview (manualReviewReason : String)

def buildShedResponse (reason : Reason) (details : List (String × Detail)) : Response :=
  .shed 30 "SERVICE_OVERLOADED" (REASON_MESSAGES reason) reason details

def buildManualReviewResponse : Response :=
  .manualReview "All AI providers are currently unavailable; claim queued for human review."

/-- `threshold and depth >= threshold`. -/
def reached (threshold : Option ℤ) (depth : ℕ) : Bool :=
  match threshold with
  | none => false
  | some n => n ≠ 0 ∧ n ≤ depth

def checkQueuePressure (settings : Settings) (depth : Option ℕ) : Option (Reason × List (String × Detail)) :=
  if settings.appEnv = "test" then none
  else
    match depth with
    | none => none
    | some depth =>
      if settings.loadShedMaxCeleryQueueDepth ≤ depth then
        some (.queue_full, [("queue_depth", .int depth), ("max_queue_depth", .int settings.loadShedMaxCeleryQueueDepth)])
      else if reached settings.loadShedHighCeleryQueueDepth depth then
        some (.queue_high, [("queue_depth", .int depth),
          ("high_threshold", .int (settings.loadShedHighCeleryQueueDepth.getD 0))])
      else none

def getLlmProviderHealth (settings : Settings) (world : World) : Option String :=
  if settings.appEnv = "test" ∨ settings.testProviderMode then none
  else
    match world.providers with
    | none => none
    | some (allUnavailable, failureRate) =>
      if allUnavailable then some "down"
      else if ∃ rate ∈ failureRate, settings.loadShedProviderDegradedThreshold ≤ rate then some "degraded"
      else none

def checkProviderPressure (settings : Settings) (world : World) : Option (Reason × List (String × Detail)) :=
  match getLlmProviderHealth settings world with
  | some "down" => some (.provider_down, [("provider_health", .str "down")])
  | some "degraded" => some (.provider_degraded, [("provider_health", .str "degraded")])
  | _ => none

def isJobCreationRoute (path : Text) (method : Text) : Bool :=
  method.map Char.toUpper = "POST".toList ∧ ("/ai/inference".toList.isSuffixOf path ∨ "/ai/ocr/jobs".toList.isSuffixOf path)

def isLlmRoute (path : Text) (method : Text) : Bool :=
  method.map Char.toUpper = "POST".toList ∧ "/ai/humanitarian/verify".toList.isSuffixOf path

inductive Priority
  | low
  | normal
  | high
  deriving DecidableEq

def Priority.name : Priority → String
  | low => "low"
  | normal => "normal"
  | high => "high"

def extractPriorityFromRequest (request : Request) : Priority :=
  match request.payload with
  | some (.obj members) =>
    match members.lookup "priority".toList with
    | some (.str name) =>
      if name = "low".toList then .low
      else if name = "high".toList then .high
      else .normal
    | _ => .normal
  | _ => .normal

def shouldShedBasedOnPriority (settings : Settings) (priority : String) (queueDepth : Option ℕ) : Bool :=
  match queueDepth with
  | none => false
  | some depth =>
    let high := reached settings.loadShedHighCeleryQueueDepth depth
    let full : Bool := settings.loadShedMaxCeleryQueueDepth ≤ depth
    if priority = "high" then full
    else if priority = "normal" then full || high
    else if priority = "low" then reached settings.loadShedLowCeleryQueueDepth depth || high
    else false

/-- `queueDepth` is the depth that `evaluate_load_shed` reads itself, `checked` the one that `check_queue_pressure` reads. -/
def evaluateLoadShed (settings : Settings) (world : World) (queueDepth checked : Option ℕ) (request : Request) :
    Option Response :=
  if ¬ world.resourcesHealthy then
    some (buildShedResponse .memory [("threshold_percent", .float settings.loadShedMemoryThresholdPercent)])
  else
    let queued :=
      if isJobCreationRoute request.path request.method then
        (checkQueuePressure settings checked).bind fun (reason, details) =>
          if shouldShedBasedOnPriority settings (extractPriorityFromRequest request).name queueDepth then
            some (buildShedResponse reason details)
          else none
      else none
    queued <|>
      if isLlmRoute request.path request.method then
        (checkProviderPressure settings world).map fun (reason, details) =>
          if reason = .provider_down then buildManualReviewResponse else buildShedResponse reason details
      else none

structure LoadShedError where
  reason : Reason
  message : String
  details : List (String × Detail)

def ensureQueueCapacity (settings : Settings) (checked : Option ℕ) (priority : String) : Except LoadShedError Unit :=
  match checkQueuePressure settings checked with
  | none => .ok ()
  | some (reason, details) =>
    if shouldShedBasedOnPriority settings priority checked then .error ⟨reason, REASON_MESSAGES reason, details⟩ else .ok ()

section Policy
variable {ι : Type} {settings : Settings} {world : World} {depth : ℕ}

def Priority.rank : Priority → ℕ
  | low => 0
  | normal => 1
  | high => 2

/-- `low <= high <= max`, of those that are set. -/
structure Settings.Ordered (settings : Settings) : Prop where
  high_le {high} : settings.loadShedHighCeleryQueueDepth = some high → high ≤ settings.loadShedMaxCeleryQueueDepth
  low_le {low} : settings.loadShedLowCeleryQueueDepth = some low → low ≤ settings.loadShedMaxCeleryQueueDepth
  low_le_high {low high} : settings.loadShedLowCeleryQueueDepth = some low →
    settings.loadShedHighCeleryQueueDepth = some high → low ≤ high

structure RespectsPriority (settings : Settings) (priority : ι → Priority) (sheds : ι → ℕ → Prop) : Prop where
  lower {r r' d} : sheds r d → (priority r').rank < (priority r).rank → sheds r' d
  deeper {r d d'} : sheds r d → d ≤ d' → sheds r d'
  low {r low} {d : ℕ} : priority r = .low → settings.loadShedLowCeleryQueueDepth = some low → low ≤ d → sheds r d
  full {r} {d : ℕ} : settings.loadShedMaxCeleryQueueDepth ≤ d → sheds r d

abbrev JobRequest := { request : Request // isJobCreationRoute request.path request.method = true }

/-- Both reads see `depth`. -/
def evaluateSheds (settings : Settings) (world : World) (request : JobRequest) (depth : ℕ) : Prop :=
  ∃ retryAfter code message reason details,
    evaluateLoadShed settings world (some depth) (some depth) request.1 =
      some (.shed retryAfter code message reason details)

def ensureSheds (settings : Settings) (priority : Priority) (depth : ℕ) : Prop :=
  ∃ error, ensureQueueCapacity settings (some depth) priority.name = .error error

def isSet (threshold : Option ℤ) : Prop := ∃ n ∈ threshold, n ≠ 0

def Settings.pressureStart (settings : Settings) : ℤ :=
  match settings.loadShedHighCeleryQueueDepth with
  | none => settings.loadShedMaxCeleryQueueDepth
  | some high => if high = 0 then settings.loadShedMaxCeleryQueueDepth else high

structure Settings.LowReported (settings : Settings) : Prop where
  some_set : isSet settings.loadShedLowCeleryQueueDepth ∨ isSet settings.loadShedHighCeleryQueueDepth
  start_le {low} : settings.loadShedLowCeleryQueueDepth = some low → settings.pressureStart ≤ max low 0

def ShedsAt (settings : Settings) (depth : ℕ) : Priority → Prop
  | .high => settings.loadShedMaxCeleryQueueDepth ≤ depth
  | .normal => settings.pressureStart ≤ depth
  | .low => settings.pressureStart ≤ depth ∧
      (isSet settings.loadShedLowCeleryQueueDepth ∨ isSet settings.loadShedHighCeleryQueueDepth)

variable {priority : ι → Priority} {sheds : ι → ℕ → Prop}

theorem reached_iff {threshold : Option ℤ} : reached threshold depth ↔ ∃ n ∈ threshold, n ≠ 0 ∧ n ≤ depth := by
  cases threshold <;> simp [reached]

theorem Settings.Ordered.start_le (h : settings.Ordered) : settings.pressureStart ≤ settings.loadShedMaxCeleryQueueDepth := by
  unfold Settings.pressureStart
  split
  · exact le_rfl
  · rename_i high hhigh
    have hle := h.high_le hhigh
    split <;> omega

theorem Settings.Ordered.start_le_iff (h : settings.Ordered) : settings.pressureStart ≤ depth ↔
      settings.loadShedMaxCeleryQueueDepth ≤ depth ∨ reached settings.loadShedHighCeleryQueueDepth depth := by
  have hle := h.start_le
  unfold Settings.pressureStart reached at *
  split
  · simp_all
  · simp_all
    omega

theorem isSome_checkQueuePressure (h : settings.Ordered) (hreads : settings.appEnv ≠ "test") :
    (checkQueuePressure settings (some depth)).isSome ↔ settings.pressureStart ≤ depth := by
  rw [h.start_le_iff, checkQueuePressure, if_neg hreads]
  split_ifs with hfull hhigh <;> simp [*]

theorem sheds_iff (h : settings.Ordered) (hreads : settings.appEnv ≠ "test") (priority : Priority) :
    (checkQueuePressure settings (some depth)).isSome ∧ shouldShedBasedOnPriority settings priority.name (some depth) ↔
      ShedsAt settings depth priority := by
  rw [isSome_checkQueuePressure h hreads]
  have hle := h.start_le
  have hstart := @Settings.Ordered.start_le_iff settings depth h
  cases priority with
  | high =>
    simp only [shouldShedBasedOnPriority, Priority.name, ShedsAt, if_true, decide_eq_true_eq]
    omega
  | normal =>
    have hname : ¬ "normal" = "high" := by decide
    simp only [shouldShedBasedOnPriority, Priority.name, ShedsAt, if_neg hname, if_true, Bool.or_eq_true,
      decide_eq_true_eq, ← hstart, and_self]
  | low =>
    have hhigh : ¬ "low" = "high" := by decide
    have hnormal : ¬ "low" = "normal" := by decide
    simp only [shouldShedBasedOnPriority, Priority.name, ShedsAt, if_neg hhigh, if_neg hnormal, if_true, Bool.or_eq_true]
    apply and_congr_right
    intro hpressure
    constructor
    · rintro (hlow | hhigh)
      · obtain ⟨n, hn, hne, -⟩ := reached_iff.mp hlow
        exact .inl ⟨n, hn, hne⟩
      · obtain ⟨n, hn, hne, -⟩ := reached_iff.mp hhigh
        exact .inr ⟨n, hn, hne⟩
    · -- Where high is unset the pressure is that of a full queue, which no low threshold exceeds.
      intro hset
      by_cases hhigh : reached settings.loadShedHighCeleryQueueDepth depth
      · exact .inr hhigh
      have hfull := (hstart.mp hpressure).resolve_right hhigh
      rcases hset with ⟨low, hlow, hne⟩ | ⟨high, hset, hne⟩
      · have := h.low_le hlow
        exact .inl (reached_iff.mpr ⟨low, hlow, hne, by omega⟩)
      · have := h.high_le hset
        exact absurd (reached_iff.mpr ⟨high, hset, hne, by omega⟩) hhigh

theorem ensureSheds_iff (h : settings.Ordered) (hreads : settings.appEnv ≠ "test") (priority : Priority) :
    ensureSheds settings priority depth ↔ ShedsAt settings depth priority := by
  rw [← sheds_iff h hreads, ensureSheds, ensureQueueCapacity]
  cases hpressure : checkQueuePressure settings (some depth) with
  | none => simp
  | some result =>
    dsimp only
    split_ifs with hshed <;> simp [hshed]

theorem not_isLlmRoute (request : JobRequest) : isLlmRoute request.1.path request.1.method = false := by
  have hroute := request.2
  simp only [isJobCreationRoute, decide_eq_true_eq] at hroute
  simp only [isLlmRoute, decide_eq_false_iff_not]
  rintro ⟨-, hverify⟩
  -- The last characters of the paths differ.
  have hlast {suffix : Text} (h : suffix.isSuffixOf request.1.path) (hne : suffix ≠ []) :
      suffix.getLast? = request.1.path.getLast? := by
    obtain ⟨start, hstart⟩ := List.isSuffixOf_iff_suffix.mp h
    rw [← hstart, List.getLast?_append_of_ne_nil _ hne]
  have hy := hlast hverify (by decide)
  rcases hroute.2 with hinference | hjobs
  · exact absurd (hy.trans (hlast hinference (by decide)).symm) (by decide)
  · exact absurd (hy.trans (hlast hjobs (by decide)).symm) (by decide)

theorem evaluateSheds_iff (h : settings.Ordered) (hreads : settings.appEnv ≠ "test") (request : JobRequest) :
    evaluateSheds settings world request depth ↔
      world.resourcesHealthy = false ∨ ShedsAt settings depth (extractPriorityFromRequest request.1) := by
  rw [← sheds_iff h hreads, evaluateSheds, evaluateLoadShed, not_isLlmRoute request, request.2]
  cases world.resourcesHealthy with
  | false => simp [buildShedResponse]
  | true =>
    cases hpressure : checkQueuePressure settings (some depth) with
    | none => simp
    | some result =>
      by_cases hshed : shouldShedBasedOnPriority settings (extractPriorityFromRequest request.1).name (some depth) <;>
        simp [hshed, buildShedResponse]

theorem RespectsPriority.of_lowReported (h : settings.Ordered) (hlow : settings.LowReported) {always : Prop} (hsheds : ∀ r d, sheds r d ↔ always ∨ ShedsAt settings d (priority r)) :
    RespectsPriority settings priority sheds := by
  have hstart := h.start_le
  have hset := hlow.some_set
  constructor
  · intro r r' d hshed hrank
    rw [hsheds] at hshed ⊢
    apply hshed.imp_right
    intro hshed
    cases hr : priority r <;> cases hr' : priority r' <;> simp_all only [ShedsAt, Priority.rank, and_true] <;> omega
  · intro r d d' hshed hle
    rw [hsheds] at hshed ⊢
    apply hshed.imp_right
    intro hshed
    cases hr : priority r <;> simp_all only [ShedsAt, and_true] <;> omega
  · intro r d low hr hsome hle
    have := hlow.start_le hsome
    rw [hsheds, hr]
    exact .inr ⟨by omega, hset⟩
  · intro r d hle
    rw [hsheds]
    apply Or.inr
    cases hr : priority r <;> simp_all only [ShedsAt, and_true] <;> omega

theorem RespectsPriority.lowReported (hall : Function.Surjective priority)
    (hsheds : ∀ r d, sheds r d ↔ ShedsAt settings d (priority r)) (h : RespectsPriority settings priority sheds) :
    settings.LowReported := by
  obtain ⟨r, hr⟩ := hall .low
  have hlow (d : ℕ) : sheds r d ↔ ShedsAt settings d .low := hr ▸ hsheds r d
  constructor
  · have hfull := h.full (r := r) (d := settings.loadShedMaxCeleryQueueDepth.toNat) (by omega)
    exact ((hlow _).mp hfull).2
  · intro low hsome
    have hshed := h.low (d := (max low 0).toNat) hr hsome (by omega)
    have := ((hlow _).mp hshed).1
    omega

theorem extractPriority_surjective :
    Function.Surjective fun request : JobRequest => extractPriorityFromRequest request.1 := by
  intro priority
  refine ⟨⟨⟨"/ai/inference".toList, "POST".toList, some (.obj [("priority".toList, .str priority.name.toList)])⟩, ?_⟩, ?_⟩
  · show isJobCreationRoute "/ai/inference".toList "POST".toList = true
    decide
  cases priority <;> rfl

theorem shedding_respects_priority_iff (hordered : settings.Ordered) (hreads : settings.appEnv ≠ "test") :
    ((∀ world, RespectsPriority settings (fun request : JobRequest => extractPriorityFromRequest request.1)
        (evaluateSheds settings world)) ↔ settings.LowReported) ∧
      (RespectsPriority settings id (ensureSheds settings) ↔ settings.LowReported) := by
  constructor
  · constructor
    · intro h
      have hhealthy (request : JobRequest) (d : ℕ) : evaluateSheds settings ⟨true, none⟩ request d ↔
          ShedsAt settings d (extractPriorityFromRequest request.1) := by
        simp [evaluateSheds_iff hordered hreads]
      exact (h ⟨true, none⟩).lowReported extractPriority_surjective hhealthy
    · intro hlow world
      exact .of_lowReported hordered hlow fun request d => evaluateSheds_iff hordered hreads request
  · constructor
    · intro h
      exact h.lowReported Function.surjective_id fun priority d => ensureSheds_iff hordered hreads priority
    · intro hlow
      have hsheds (priority : Priority) (d : ℕ) : ensureSheds settings priority d ↔ False ∨ ShedsAt settings d priority := by
        rw [ensureSheds_iff hordered hreads, false_or]
      exact .of_lowReported hordered hlow hsheds

theorem shedding_respects_priority_demo :
    RespectsPriority { loadShedHighCeleryQueueDepth := some 75, loadShedLowCeleryQueueDepth := none } id
      (ensureSheds { loadShedHighCeleryQueueDepth := some 75, loadShedLowCeleryQueueDepth := none }) := by
  apply (shedding_respects_priority_iff ⟨_, _, _⟩ _).2.mpr
  · exact ⟨.inr ⟨75, rfl, by decide⟩, by simp⟩
  · simp
  · simp
  · simp
  · decide

/-- With the default thresholds 50, 75 and 100 a request of low priority is not shed at depth 60. -/
theorem low_priority_kept : ({} : Settings).Ordered ∧ ¬ RespectsPriority {} id (ensureSheds {}) := by
  constructor
  · constructor <;> simp
  · intro h
    obtain ⟨error, herror⟩ := h.low (d := 60) (r := Priority.low) rfl rfl (by decide)
    have hok : ensureQueueCapacity {} (some 60) Priority.low.name = .ok () := rfl
    rw [hok] at herror
    cases herror

end Policy
end Soter.LoadShedding
