import Mathlib.Data.List.Sort
import Soter.RateLimiting.Limiter

/-! `_check_redis` (`rate_limiter.py`): the checks of one key by any number of processes, one pipeline at a time. -/
namespace Soter.RateLimiting.Distributed
open Soter.Runs Soter.SlidingWindow List

section Redis

abbrev SortedSet := List ℚ

def zadd (zset : SortedSet) (score : ℚ) : SortedSet := if score ∈ zset then zset else zset.orderedInsert (· ≤ ·) score

def zremrangebyscore (zset : SortedSet) (low high : ℚ) : SortedSet := zset.filter fun score => ¬ (low ≤ score ∧ score ≤ high)

/-- How far a check has come; `none` is the answer that falls back to memory. -/
inductive Stage
  | started
  | counted (currentCount : ℕ) (oldest : Option ℚ)
  | answered (result : Option RateLimitResult)
  deriving DecidableEq

structure RedisCheck where
  now : ℚ
  stage : Stage
  deriving DecidableEq

structure Redis where
  clock : ℚ
  zset : SortedSet
  expireAt : Option ℚ
  checks : List RedisCheck

def Redis.fresh (clock : ℚ) : Redis where
  clock
  zset := []
  expireAt := none
  checks := []

def Redis.live (s : Redis) (time : ℚ) : SortedSet :=
  match s.expireAt with
  | some expireAt => if expireAt ≤ time then [] else s.zset
  | none => s.zset

variable (settings : Settings) (request : Request)

def limit : ℤ := (resolveLimit settings request.path).1

def windowSeconds : ℤ := (resolveLimit settings request.path).2

def refusal (now earliest : ℚ) : RateLimitResult :=
  let retryAfter := secondsLeft earliest (windowSeconds settings request) now
  { allowed := false
    limit := limit settings request
    remaining := 0
    resetSeconds := retryAfter
    retryAfter
    endpoint := request.path
    method := request.method
    apiKey := extractApiKey request
    windowSeconds := windowSeconds settings request }

def admission (now earliest : ℚ) (currentCount : ℕ) : RateLimitResult :=
  { allowed := true
    limit := limit settings request
    remaining := max 0 (limit settings request - currentCount - 1)
    resetSeconds := secondsLeft earliest (windowSeconds settings request) now
    retryAfter := 0
    endpoint := request.path
    method := request.method
    apiKey := extractApiKey request
    windowSeconds := windowSeconds settings request }

/-- What the first pipeline leaves: the entries outside the window are removed, and the others are counted. -/
def pruned (s : Redis) (time now : ℚ) : SortedSet :=
  zremrangebyscore (s.live time) 0 (now - windowSeconds settings request)

def afterCount (now : ℚ) (zset : SortedSet) : Stage :=
  if limit settings request ≤ zset.length then
    .answered (some (refusal settings request now (zset.head?.getD (now - windowSeconds settings request))))
  else .counted zset.length zset.head?

def Redis.record (s : Redis) (time now : ℚ) : Redis :=
  { s with
    zset := zadd (s.live time) now
    expireAt := some (time + (windowSeconds settings request + 5)) }

inductive Act
  | start
  | count (i : ℕ)
  | add (i : ℕ)
  | fail (i : ℕ) (executed : Bool)

structure TimedAct where
  time : ℚ
  act : Act

def Redis.answer (s : Redis) (i : ℕ) (now : ℚ) (stage : Stage) : Redis := { s with checks := s.checks.set i ⟨now, stage⟩ }

def act (s : Redis) (time : ℚ) : Act → Option Redis
  | .start => some { s with checks := s.checks ++ [⟨time, .started⟩] }
  | .count i =>
    match s.checks[i]? with
    | some ⟨now, .started⟩ =>
      let zset := pruned settings request s time now
      some ({ s with zset }.answer i now (afterCount settings request now zset))
    | _ => none
  | .add i =>
    match s.checks[i]? with
    | some ⟨now, .counted currentCount oldest⟩ =>
      some ((s.record settings request time now).answer i now
        (.answered (some (admission settings request now (oldest.getD now) currentCount))))
    | _ => none
  | .fail i executed =>
    match s.checks[i]? with
    | some ⟨now, .started⟩ =>
      some ((if executed then { s with zset := pruned settings request s time now } else s).answer i now (.answered none))
    | some ⟨now, .counted _ _⟩ =>
      some ((if executed then s.record settings request time now else s).answer i now (.answered none))
    | _ => none

def step (s : Redis) (l : TimedAct) : Option Redis :=
  if settings.rateLimitEnabled = true ∧ s.clock ≤ l.time then
    (act settings request s l.time l.act).map fun s' => { s' with clock := l.time }
  else none

def Step (s : Redis) (l : TimedAct) (s' : Redis) : Prop := step settings request s l = some s'

end Redis

def RedisCheck.isAllowed (c : RedisCheck) : Bool :=
  match c.stage with
  | .answered (some result) => result.allowed
  | _ => false

/-- The clock values of the requests that the Redis path has allowed, and of all requests. -/
def Redis.allowed (s : Redis) : List ℚ := (s.checks.filter RedisCheck.isAllowed).map RedisCheck.now

def Redis.requested (s : Redis) : List ℚ := s.checks.map RedisCheck.now

def inMemory (settings : Settings) (request : Request) (start : ℚ) (requests : List ℚ) : Limiter :=
  (requests.map fun now => ⟨now, request⟩).foldl (serve settings) (Limiter.fresh start)

/-- No window holds more allowed requests than the limit, of which a negative one allows none, and no more are allowed
than by the in-memory path. -/
structure Admits (settings : Settings) (request : Request) (start : ℚ) (s : Redis) : Prop where
  bounded : ∀ a b : ℚ, b - a ≤ windowSeconds settings request →
    countIn s.allowed a b ≤ (limit settings request).toNat
  asInMemory : s.allowed.length ≤ ((inMemory settings request start s.requested).times request.storageKey).length

/-- A check that records itself still has its place: no allowed request of its window is missing from the sorted set, no
entry has its timestamp, and there are fewer entries than the limit. -/
structure HasPlace (settings : Settings) (request : Request) (s : Redis) (time now : ℚ) : Prop where
  present : ∀ other ∈ s.allowed, now - windowSeconds settings request < other → other ∈ s.live time
  distinct : now ∉ s.live time
  room : (((s.live time).filter (now - windowSeconds settings request < ·)).length : ℤ) < limit settings request

instance (settings : Settings) (request : Request) (s : Redis) (time now : ℚ) :
    Decidable (HasPlace settings request s time now) :=
  decidable_of_iff
    ((∀ other ∈ s.allowed, now - windowSeconds settings request < other → other ∈ s.live time) ∧ now ∉ s.live time ∧
      (((s.live time).filter (now - windowSeconds settings request < ·)).length : ℤ) < limit settings request)
    ⟨fun h => ⟨h.1, h.2.1, h.2.2⟩, fun h => ⟨h.present, h.distinct, h.room⟩⟩

/-- The check that a transition records, if it is one that records a check, has its place. -/
def KeepsPlace (settings : Settings) (request : Request) (t : Transition Redis TimedAct) : Prop :=
  match t.label.act with
  | .add i => ∀ c ∈ t.pre.checks[i]?, HasPlace settings request t.pre t.label.time c.now
  | _ => True

instance (settings : Settings) (request : Request) : ∀ t, Decidable (KeepsPlace settings request t)
  | ⟨pre, ⟨time, .add i⟩, _⟩ =>
    inferInstanceAs (Decidable (∀ c ∈ pre.checks[i]?, HasPlace settings request pre time c.now))
  | ⟨_, ⟨_, .start⟩, _⟩ | ⟨_, ⟨_, .count _⟩, _⟩ | ⟨_, ⟨_, .fail _ _⟩, _⟩ => .isTrue trivial

section InMemory
variable {settings : Settings} {request : Request} {start : ℚ} {requests : List ℚ}

theorem inMemory_spec (henabled : settings.rateLimitEnabled = true) (hsorted : requests.Pairwise (· ≤ ·))
    (hstart : ∀ x ∈ requests, start ≤ x) :
    Tracks (limit settings request) (windowSeconds settings request) request.storageKey
        (inMemory settings request start requests) ∧
      (inMemory settings request start requests).times request.storageKey =
        admitAll (limit settings request).toNat (windowSeconds settings request : ℚ) requests ∧
      ∀ bound, start ≤ bound → (∀ x ∈ requests, x ≤ bound) → (inMemory settings request start requests).now ≤ bound := by
  induction requests using reverseRecOn with
  | nil => exact ⟨Tracks.fresh _ _ _ _, rfl, fun _ hbound _ => hbound⟩
  | append_singleton requests x ih =>
    obtain ⟨hbefore, -, hlast⟩ := pairwise_append.mp hsorted
    obtain ⟨htracks, htimes, hnow⟩ := ih hbefore fun y hy => hstart y (mem_append_left _ hy)
    have hserve : inMemory settings request start (requests ++ [x]) =
        serve settings (inMemory settings request start requests) ⟨x, request⟩ := by
      rw [inMemory, map_append, foldl_append]
      rfl
    have hle : (inMemory settings request start requests).now ≤ x :=
      hnow x (hstart x (mem_append_right _ (mem_singleton_self x))) fun y hy =>
        hlast y hy x (mem_singleton_self x)
    have hstep : RateLimiting.Step settings (inMemory settings request start requests) ⟨x, request⟩
        (serve settings (inMemory settings request start requests) ⟨x, request⟩) := if_pos ⟨henabled, hle⟩
    rw [hserve]
    refine ⟨hstep.tracks htracks fun _ => ⟨rfl, rfl⟩, ?_, fun bound _ hbound => ?_⟩
    · have hself := hstep.times_self htracks
      rw [admitAll_snoc, ← htimes]
      exact hself
    · exact hbound x (mem_append_right _ (mem_singleton_self x))

end InMemory
section Invariant
variable {settings : Settings} {request : Request} {start time : ℚ} {s s' : Redis} {l : TimedAct} {i : ℕ}
  {c : RedisCheck} {stage : Stage}

theorem requested_answer (hc : s.checks[i]? = some c) : (s.answer i c.now stage).requested = s.requested := by
  obtain ⟨hlt, hget⟩ := List.getElem?_eq_some_iff.mp hc
  apply List.ext_getElem?
  intro j
  simp only [Redis.requested, Redis.answer, getElem?_map, getElem?_set]
  by_cases hj : i = j
  · subst hj
    simp [hlt, hget]
  · simp [hj]

theorem allowed_answer (hc : s.checks[i]? = some c) (hnot : c.isAllowed = false) : (s.answer i c.now stage).allowed.Perm
      (if RedisCheck.isAllowed ⟨c.now, stage⟩ then c.now :: s.allowed else s.allowed) := by
  obtain ⟨hlt, hget⟩ := List.getElem?_eq_some_iff.mp hc
  have hset : s.checks.set i ⟨c.now, stage⟩ = s.checks.take i ++ ⟨c.now, stage⟩ :: s.checks.drop (i + 1) :=
    set_eq_take_append_cons_drop .. |>.trans (if_pos hlt)
  have hold : s.checks = s.checks.take i ++ c :: s.checks.drop (i + 1) := by
    rw [← hget, getElem_cons_drop, take_append_drop]
  have hallowed : s.allowed = ((s.checks.take i).filter RedisCheck.isAllowed).map RedisCheck.now ++
      ((s.checks.drop (i + 1)).filter RedisCheck.isAllowed).map RedisCheck.now := by
    unfold Redis.allowed
    conv_lhs => rw [hold]
    rw [filter_append, filter_cons, hnot, if_neg Bool.false_ne_true, map_append]
  rw [hallowed, Redis.allowed, Redis.answer]
  dsimp only
  rw [hset, filter_append, filter_cons, map_append]
  split
  · exact perm_middle
  · exact List.Perm.refl _

structure Good (settings : Settings) (request : Request) (start : ℚ) (s : Redis) : Prop where
  sorted : s.requested.Pairwise (· ≤ ·)
  past : ∀ x ∈ s.requested, x ≤ s.clock
  after : ∀ x ∈ s.requested, start ≤ x
  begun : start ≤ s.clock
  nodup : s.allowed.Nodup
  bounded : Bounded (limit settings request).toNat (windowSeconds settings request : ℚ) s.allowed

theorem Good.fresh : Good settings request start (Redis.fresh start) where
  sorted := List.Pairwise.nil
  past _ hx := by cases hx
  after _ hx := by cases hx
  begun := le_refl start
  nodup := nodup_nil
  bounded := Bounded.nil

theorem Good.answer (hs : Good settings request start s) (hclock : s.clock ≤ time) (hc : s.checks[i]? = some c)
    (hnot : c.isAllowed = false)
    (hplace : RedisCheck.isAllowed ⟨c.now, stage⟩ = true → HasPlace settings request s time c.now)
    (hchecks : s'.checks = (s.answer i c.now stage).checks) (hnow : s'.clock = time) :
    Good settings request start s' := by
  have hrequested : s'.requested = s.requested := by
    rw [Redis.requested, hchecks]
    exact requested_answer hc
  have hallowed : s'.allowed.Perm (if RedisCheck.isAllowed ⟨c.now, stage⟩ then c.now :: s.allowed else s.allowed) := by
    rw [Redis.allowed, hchecks]
    exact allowed_answer hc hnot
  have hnew : (if RedisCheck.isAllowed ⟨c.now, stage⟩ then c.now :: s.allowed else s.allowed).Nodup ∧
      Bounded (limit settings request).toNat (windowSeconds settings request : ℚ)
        (if RedisCheck.isAllowed ⟨c.now, stage⟩ then c.now :: s.allowed else s.allowed) := by
    split
    · rename_i hyes
      have hhas := hplace hyes
      have hpositive : (0 : ℚ) < windowSeconds settings request := by
        exact_mod_cast parseRateLimit_window _
      have hfresh : c.now ∉ s.allowed := fun hmem =>
        hhas.distinct (hhas.present _ hmem (sub_lt_self _ hpositive))
      -- The allowed requests that count are among the entries that count.
      have hfew : s.allowed.countP (c.now - windowSeconds settings request < ·) < (limit settings request).toNat := by
        have hsub : s.allowed.filter (c.now - windowSeconds settings request < ·) ⊆
            (s.live time).filter (c.now - windowSeconds settings request < ·) := by
          intro other hother
          obtain ⟨hmem, hlater⟩ := mem_filter.mp hother
          exact mem_filter.mpr ⟨hhas.present other hmem (of_decide_eq_true hlater), hlater⟩
        have hle := (subperm_of_subset (hs.nodup.filter _) hsub).length_le
        have hroom := hhas.room
        rw [countP_eq_length_filter]
        omega
      exact ⟨nodup_cons.mpr ⟨hfresh, hs.nodup⟩, hs.bounded.cons hfew⟩
    · exact ⟨hs.nodup, hs.bounded⟩
  refine ⟨?_, ?_, ?_, ?_, hallowed.nodup_iff.mpr hnew.1, hnew.2.perm hallowed.symm⟩
  · rw [hrequested]
    exact hs.sorted
  · rw [hrequested, hnow]
    exact fun x hx => (hs.past x hx).trans hclock
  · rw [hrequested]
    exact hs.after
  · rw [hnow]
    exact hs.begun.trans hclock

theorem isAllowed_afterCount (now : ℚ) (zset : SortedSet) :
    RedisCheck.isAllowed ⟨now, afterCount settings request now zset⟩ = false := by
  unfold afterCount
  split
  · rfl
  · rfl

theorem Good.arrives (hs : Good settings request start s) (hclock : s.clock ≤ time) :
    Good settings request start ⟨time, s.zset, s.expireAt, s.checks ++ [⟨time, .started⟩]⟩ := by
  have hrequested : Redis.requested ⟨time, s.zset, s.expireAt, s.checks ++ [⟨time, .started⟩]⟩ =
      s.requested ++ [time] := by
    simp [Redis.requested]
  have hallowed : Redis.allowed ⟨time, s.zset, s.expireAt, s.checks ++ [⟨time, .started⟩]⟩ = s.allowed := by
    simp [Redis.allowed, RedisCheck.isAllowed]
  have hpast : ∀ x ∈ s.requested, x ≤ time := fun x hx => (hs.past x hx).trans hclock
  refine ⟨?_, ?_, ?_, hs.begun.trans hclock, ?_, ?_⟩
  · rw [hrequested]
    apply pairwise_append.mpr
    refine ⟨hs.sorted, pairwise_singleton _ _, fun x hx y hy => ?_⟩
    rw [mem_singleton.mp hy]
    exact hpast x hx
  · rw [hrequested]
    intro x hx
    rcases mem_append.mp hx with hx | hx
    · exact hpast x hx
    · exact le_of_eq (mem_singleton.mp hx)
  · rw [hrequested]
    intro x hx
    rcases mem_append.mp hx with hx | hx
    · exact hs.after x hx
    · rw [mem_singleton.mp hx]
      exact hs.begun.trans hclock
  · rw [hallowed]
    exact hs.nodup
  · rw [hallowed]
    exact hs.bounded

theorem act_good {a : Act} (h : act settings request s time a = some s') (hs : Good settings request start s)
    (hclock : s.clock ≤ time) (hplace : ∀ l, l.act = a → l.time = time → KeepsPlace settings request ⟨s, l, s'⟩) :
    Good settings request start { s' with clock := time } := by
  cases a with
  | start =>
    cases h
    exact hs.arrives hclock
  | count i =>
    simp only [act] at h
    split at h
    · rename_i now hc
      cases h
      refine hs.answer hclock hc rfl (fun hallowed => ?_) rfl rfl
      rw [isAllowed_afterCount] at hallowed
      cases hallowed
    · cases h
  | add i =>
    simp only [act] at h
    split at h
    · rename_i now currentCount oldest hc
      cases h
      have hhas : HasPlace settings request s time now := hplace ⟨time, .add i⟩ rfl rfl _ hc
      exact hs.answer hclock hc rfl (fun _ => hhas) rfl rfl
    · cases h
  | fail i executed =>
    simp only [act] at h
    split at h
    · rename_i now hc
      cases h
      refine @Good.answer _ _ _ _ _ _ _ _ (.answered none) hs hclock hc rfl (fun hallowed => by cases hallowed) ?_ rfl
      cases executed with
      | _ => rfl
    · rename_i now currentCount oldest hc
      cases h
      refine @Good.answer _ _ _ _ _ _ _ _ (.answered none) hs hclock hc rfl (fun hallowed => by cases hallowed) ?_ rfl
      cases executed with
      | _ => rfl
    · cases h

theorem Step.good (h : Step settings request s l s') (hs : Good settings request start s)
    (hplace : KeepsPlace settings request ⟨s, l, s'⟩) :
    settings.rateLimitEnabled = true ∧ Good settings request start s' := by
  unfold Step step at h
  split at h
  case isFalse => cases h
  rename_i hserved
  obtain ⟨s'', hact, rfl⟩ := Option.map_eq_some_iff.mp h
  refine ⟨hserved.1, act_good hact hs hserved.2 fun l' hl' htime => ?_⟩
  have hsame : l' = l := by
    cases l
    cases l'
    dsimp only at hl' htime
    rw [hl', htime]
  rw [hsame]
  exact hplace

theorem Good.admits (hs : Good settings request start s) (henabled : settings.rateLimitEnabled = true) :
    Admits settings request start s where
  bounded _ _ hlength := hs.bounded.countIn_le hlength
  asInMemory := by
    have hpositive : (0 : ℚ) < windowSeconds settings request := by
      exact_mod_cast parseRateLimit_window _
    have hsub : s.allowed.Sublist s.requested := filter_sublist.map _
    rw [(inMemory_spec henabled hs.sorted hs.after).2.1]
    exact hs.bounded.length_le_admitAll hpositive hs.sorted hsub

/-- When every check that records itself still has its place, the Redis path admits no more than the limit in any window
and no more than the in-memory path. -/
theorem redis_admits {tr : List (Transition Redis TimedAct)} (h : Run (Step settings request) (Redis.fresh start) tr s)
    (hplace : ∀ t ∈ tr, KeepsPlace settings request t) : ∀ t ∈ tr, Admits settings request start t.post := by
  intro t ht
  obtain ⟨hpre, hpost⟩ := h.invariant_at Good.fresh hplace (fun _ hstep hkeeps hgood => (hstep.good hgood hkeeps).2) ht
  exact hpost.admits ((h.step_of_mem ht).good hpre (hplace t ht)).1

end Invariant

def demoPlay (limitStr : String) (acts : List TimedAct) : List (Transition Redis TimedAct) × Redis :=
  play (step (demoSettings limitStr) demoRequest) (Redis.fresh 0) acts

theorem demoPlay_run (limitStr : String) (acts : List TimedAct) :
    Run (Step (demoSettings limitStr) demoRequest) (Redis.fresh 0) (demoPlay limitStr acts).1
      (demoPlay limitStr acts).2 := play_run (fun _ _ _ h => h) acts _

def roomyActs : List TimedAct :=
  [⟨0, .start⟩, ⟨mkRat 1 4, .start⟩, ⟨mkRat 1 4, .count 0⟩, ⟨mkRat 1 2, .count 1⟩, ⟨mkRat 1 2, .add 1⟩,
    ⟨mkRat 1 2, .add 0⟩, ⟨mkRat 3 4, .start⟩, ⟨mkRat 3 4, .count 2⟩]

theorem redis_admits_demo : (demoPlay "2/second" roomyActs).2.allowed = [0, mkRat 1 4] ∧
    ∀ t ∈ (demoPlay "2/second" roomyActs).1, Admits (demoSettings "2/second") demoRequest 0 t.post := by
  refine ⟨by decide +kernel, redis_admits (demoPlay_run "2/second" roomyActs) ?_⟩
  decide +kernel

def overlappingActs : List TimedAct :=
  [⟨0, .start⟩, ⟨1, .start⟩, ⟨1, .count 0⟩, ⟨1, .count 1⟩, ⟨1, .add 0⟩, ⟨1, .add 1⟩]

def coincidingActs : List TimedAct :=
  [⟨0, .start⟩, ⟨0, .count 0⟩, ⟨0, .add 0⟩, ⟨0, .start⟩, ⟨0, .count 1⟩, ⟨0, .add 1⟩, ⟨0, .start⟩, ⟨0, .count 2⟩,
    ⟨0, .add 2⟩]

/-- Overlapping checks are let in over the limit, and so are checks that do not overlap but share a timestamp. -/
theorem redis_exceeds_limit : (∃ tr s, Run (Step (demoSettings "1/minute") demoRequest) (Redis.fresh 0) tr s ∧
      ¬ Admits (demoSettings "1/minute") demoRequest 0 s) ∧
    ∃ tr s, Run (Step (demoSettings "2/minute") demoRequest) (Redis.fresh 0) tr s ∧
      ¬ Admits (demoSettings "2/minute") demoRequest 0 s := by
  refine ⟨⟨_, _, demoPlay_run "1/minute" overlappingActs, fun h => ?_⟩,
    ⟨_, _, demoPlay_run "2/minute" coincidingActs, fun h => ?_⟩⟩
  · have htwo := h.bounded (-1) 1 (by decide +kernel)
    revert htwo
    decide +kernel
  · have hthree := h.bounded (-1) 0 (by decide +kernel)
    revert hthree
    decide +kernel

end Soter.RateLimiting.Distributed
