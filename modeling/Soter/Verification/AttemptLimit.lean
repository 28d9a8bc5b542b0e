import Mathlib.Data.List.Nodup
import Soter.Lib.Exclusive
import Soter.Verification.Flow

/-! How often a code may be guessed. -/
namespace Soter.Verification
open Soter.Tasks Soter.Runs List

variable {config : Config}

def guesses (id issue : ℕ) (events : List Event) : ℕ := events.count (.failed id issue)

def completions (id : ℕ) (events : List Event) : ℕ := events.count (.completed id)

def Completes (id : ℕ) (t : FlowTransition) : Prop :=
  t.post.store.events = .completed id :: t.pre.store.events

/-- No code is guessed at more often than the configuration says, and a session is completed once, while it
is pending. -/
structure AttemptsLimited (config : Config) (tr : List FlowTransition) : Prop where
  limited : ∀ t ∈ tr, ∀ id issue, guesses id issue t.post.store.events ≤ config.maxAttemptsPerSession
  once : ∀ t ∈ tr, ∀ id, completions id t.post.store.events ≤ 1
  closed : tr.Pairwise fun t t' =>
    ∀ row ∈ t.post.store.sessions, row.status ≠ .pending → ¬ Completes row.id t'

def Query.sessionId : Query → Option ℕ
  | .compare session _ => some session.id
  | .fail id _ => some id
  | .succeed id => some id
  | _ => none

/-- The session passes the checks of `complete`. -/
def VerificationSession.IsOpen (config : Config) (now : ℤ) (session : VerificationSession) : Prop :=
  session.status = .pending ∧ now ≤ session.expiresAt ∧ session.attempts < config.maxAttemptsPerSession ∧
    (config.decrypt session.code).isSome = true

instance (now : ℤ) (session : VerificationSession) : Decidable (session.IsOpen config now) :=
  inferInstanceAs (Decidable (_ ∧ _ ∧ _ ∧ _))

/-- A session is neither checked for a comparison nor marked as expired while a comparison with one of its codes is
under way, and a comparison that failed is written down. -/
def Query.IsOrderly (config : Config) (p : FlowPool) : Query → Prop
  | .findUnique .complete id =>
    (p.store.find id).any (·.IsOpen config p.store.now) = true → ¬ p.Busy Query.sessionId id
  | .expire id => ¬ p.Busy Query.sessionId id
  | .fail .. => p.store.db.isOk = true
  | _ => True

def Orderly (config : Config) (t : FlowTransition) : Prop := ∀ q ∈ t.pre.asked t.label, q.IsOrderly config t.pre

instance (p : FlowPool) (q : Query) : Decidable (q.IsOrderly config p) :=
  match q with
  | .findUnique .complete id => inferInstanceAs
    (Decidable ((p.store.find id).any (·.IsOpen config p.store.now) = true → ¬ p.Busy Query.sessionId id))
  | .expire id => inferInstanceAs (Decidable (¬ p.Busy Query.sessionId id))
  | .fail .. => inferInstanceAs (Decidable (p.store.db.isOk = true))
  | .clock | .elapse _ | .count .. | .create .. | .findUnique .resend _ | .renew .. | .compare .. | .succeed _
  | .send _ | .foresee _ => .isTrue trivial

instance (t : FlowTransition) : Decidable (Orderly config t) :=
  inferInstanceAs (Decidable (∀ q ∈ t.pre.asked t.label, q.IsOrderly config t.pre))

inductive Stage
  | fresh
  /-- The session passed the checks; its code has been compared or not. -/
  | comparing (session : VerificationSession) (isMatch : Option Bool)

def Stage.allowed : Stage → Query → Prop
  | .fresh, q => q.sessionId = none
  | .comparing session none, .compare session' _ => session' = session
  | .comparing session (some true), .succeed id => id = session.id
  | .comparing session (some false), .fail id attempts => id = session.id ∧ attempts = session.attempts + 1
  | _, _ => False

def Stage.next (config : Config) : Stage → (q : Query) → q.Reply → Stage
  | .fresh, .findUnique .complete _, .ok (some session, now) =>
    if session.IsOpen config now then .comparing session none else .fresh
  | .comparing session _, .compare _ isMatch, _ => .comparing session (some isMatch)
  | _, _, _ => .fresh

def protocol (config : Config) : Protocol Query Query.Reply Stage where
  allowed := Stage.allowed
  next := Stage.next config

def Stage.WorksOn : Stage → ℕ → Prop
  | .comparing session _, id => session.id = id
  | .fresh, _ => False

abbrev Proceeds (config : Config) (σ : Stage) (t : Handler) : Prop :=
  t.Follows (protocol config) (fun σ _ => σ = .fresh) σ

theorem expireSession_follows (id : ℕ) : Proceeds config .fresh (expireSession id) := by
  refine ⟨rfl, fun reply => ?_⟩
  rcases reply with e | _
  · exact rfl
  · exact rfl

theorem compareCode_follows (session : VerificationSession) (isMatch : Bool) :
    Proceeds config (.comparing session none) (compareCode session isMatch) := by
  refine ⟨rfl, fun _ => ?_⟩
  cases isMatch with
  | true =>
    refine ⟨rfl, fun reply => ?_⟩
    rcases reply with e | _
    · exact rfl
    · exact rfl
  | false =>
    refine ⟨⟨rfl, rfl⟩, fun reply => ?_⟩
    rcases reply with e | _
    · exact rfl
    · exact rfl

theorem start_follows (dto : StartVerificationDto) (code : Text) (sent : Except String Unit) :
    Proceeds config .fresh (start config dto code sent) := by
  rw [start]
  split
  · exact rfl
  · refine ⟨rfl, fun asked => ⟨rfl, fun counted => ?_⟩⟩
    rcases counted with e | recentCount
    · exact rfl
    · refine Task.follows_ite (fun _ => rfl) fun _ => ⟨rfl, fun now => ⟨rfl, fun created => ?_⟩⟩
      rcases created with e | sessionId
      · exact rfl
      · refine ⟨rfl, fun reply => ?_⟩
        rcases reply with e | _
        · exact rfl
        · exact rfl

theorem resend_follows (sessionId : ℕ) (code : Text) (sent : Except String Unit) :
    Proceeds config .fresh (resend config sessionId code sent) := by
  refine ⟨rfl, fun found => ?_⟩
  rcases found with e | ⟨_ | session, now⟩
  · exact rfl
  · exact rfl
  · refine Task.follows_ite (fun _ => rfl) fun _ => ?_
    refine Task.follows_ite (fun _ => expireSession_follows session.id) fun _ => ?_
    refine Task.follows_ite (fun _ => rfl) fun _ => ⟨rfl, fun now => ⟨rfl, fun renewed => ?_⟩⟩
    rcases renewed with e | _
    · exact rfl
    · dsimp only
      split
      · exact rfl
      · refine ⟨rfl, fun reply => ?_⟩
        rcases reply with e | _
        · exact rfl
        · exact rfl

theorem complete_follows (dto : CompleteVerificationDto) : Proceeds config .fresh (complete config dto) := by
  refine ⟨rfl, fun found => ?_⟩
  rcases found with e | ⟨_ | session, now⟩
  · exact rfl
  · exact rfl
  · change Proceeds config (if session.IsOpen config now then .comparing session none else .fresh) _
    -- a session that fails a check of the code is not open
    refine Task.follows_ite (fun hstatus => ?_) fun hpending => Task.follows_ite (fun hexpired => ?_) fun halive =>
      Task.follows_ite (fun hmax => ?_) fun hbelow => ?_
    · rw [if_neg fun h => hstatus h.1]
      exact rfl
    · rw [if_neg fun h => absurd h.2.1 (not_le.mpr hexpired)]
      exact expireSession_follows session.id
    · rw [if_neg fun h => absurd h.2.2.1 (not_lt.mpr hmax)]
      exact rfl
    · by_cases hcode : (config.decrypt session.code).isSome = true
      · rw [if_pos ⟨not_not.mp hpending, not_lt.mp halive, not_le.mp hbelow, hcode⟩]
        split
        · rename_i hnone
          rw [hnone] at hcode
          cases hcode
        · exact compareCode_follows session _
      · rw [if_neg fun h => hcode h.2.2.2]
        split
        · exact rfl
        · rename_i storedCode hsome
          rw [hsome] at hcode
          exact absurd rfl hcode

theorem body_follows (op : FlowOp) : Proceeds config .fresh (op.body config) := by
  cases op with
  | start dto code sent => exact start_follows dto code sent
  | resend sessionId code sent => exact resend_follows sessionId code sent
  | complete dto => exact complete_follows dto
  | elapse d | foresee db => exact ⟨rfl, fun _ => rfl⟩

section Requests
variable {s s' : Store} {q : Query}

structure Store.Numbered (s : Store) : Prop where
  below : ∀ row ∈ s.sessions, row.id < s.created
  unique : (s.sessions.map (·.id)).Nodup

theorem ask_ok {α : Type} {a b : α} (h : s.ask a = .ok b) : b = a := by
  rw [Store.ask] at h
  split at h
  · cases h
  · cases h
    rfl

theorem update_ok {id : ℕ} {f : VerificationSession → VerificationSession} {events : List Event} {issues : ℕ}
    {a : Unit} (h : s.update id f events issues = .ok (a, s')) :
    (s.find id).isSome = true ∧ s' = { s with
      sessions := s.sessions.map (updateSession id f), issues := s.issues + issues, events := events ++ s.events } := by
  cases hfind : s.find id with
  | none =>
    simp only [Store.update, hfind] at h
    cases hasked : s.ask ((), s) with
    | error e =>
      rw [hasked] at h
      cases h
    | ok _ =>
      rw [hasked] at h
      cases h
  | some row =>
    simp only [Store.update, hfind] at h
    exact ⟨rfl, (Prod.ext_iff.mp (ask_ok h)).2⟩

theorem create_ok {channel : VerificationChannel} {identifier code : Text} {expiresAt : ℤ} {id : ℕ}
    (h : s.create channel identifier code expiresAt = .ok (id, s')) :
    s' = { s with
      sessions := s.sessions ++
        [⟨s.created, channel, identifier, code, 0, 0, .pending, expiresAt, s.now, s.issues⟩]
      created := s.created + 1
      issues := s.issues + 1 } :=
  (Prod.ext_iff.mp (ask_ok h)).2

def Query.closes : Query → Option ℕ
  | .expire id => some id
  | .succeed id => some id
  | _ => none

inductive Came (q : Query) (s : Store) (row' : VerificationSession) : Prop
  | kept (row : VerificationSession) (mem : row ∈ s.sessions) (id : row'.id = row.id)
      (status : row'.status = row.status ∨ q.closes = some row.id ∧ row'.status ≠ .pending)
      (attempts : row'.attempts = row.attempts ∨ q = .fail row.id row'.attempts)
  | new (id : row'.id = s.created) (status : row'.status = .pending) (attempts : row'.attempts = 0)

theorem Came.same {row : VerificationSession} (h : row ∈ s.sessions) : Came q s row :=
  .kept row h rfl (.inl rfl) (.inl rfl)

theorem came_update {id : ℕ} {f : VerificationSession → VerificationSession} {row' : VerificationSession}
    (h : row' ∈ s.sessions.map (updateSession id f)) (hid : ∀ row, (f row).id = row.id)
    (hstatus : ∀ row, row.id = id → (f row).status = row.status ∨ q.closes = some row.id ∧ (f row).status ≠ .pending)
    (hattempts : ∀ row, row.id = id → (f row).attempts = row.attempts ∨ q = .fail row.id (f row).attempts) :
    Came q s row' := by
  obtain ⟨row, hrow, rfl⟩ := mem_map.mp h
  rw [updateSession]
  split
  · rename_i heq
    exact .kept row hrow (hid row) (hstatus row heq) (hattempts row heq)
  · exact .same hrow

theorem perform_came (q : Query) (s : Store) : ∀ row ∈ (perform q s).2.sessions, Came q s row := by
  have hsame : ∀ row ∈ s.sessions, Came q s row := fun _ h => .same h
  cases q with
  | create channel identifier code expiresAt =>
    refine commit_keeps (P := fun s' : Store => ∀ row ∈ s'.sessions, Came _ s row) hsame fun id s' htx row hrow => ?_
    rw [create_ok htx] at hrow
    rcases mem_append.mp hrow with hrow | hrow
    · exact .same hrow
    · rw [mem_singleton.mp hrow]
      exact .new rfl rfl rfl
  | expire id =>
    refine commit_keeps (P := fun s' : Store => ∀ row ∈ s'.sessions, Came _ s row) hsame fun _ s' htx row hrow => ?_
    rw [(update_ok htx).2] at hrow
    exact came_update hrow (fun _ => rfl) (fun row h => .inr ⟨congrArg some h.symm, by simp⟩) fun _ _ => .inl rfl
  | renew id code resendCount expiresAt =>
    refine commit_keeps (P := fun s' : Store => ∀ row ∈ s'.sessions, Came _ s row) hsame fun _ s' htx row hrow => ?_
    rw [(update_ok htx).2] at hrow
    exact came_update hrow (fun _ => rfl) (fun _ _ => .inl rfl) fun _ _ => .inl rfl
  | fail id attempts =>
    refine commit_keeps (P := fun s' : Store => ∀ row ∈ s'.sessions, Came _ s row) hsame fun _ s' htx row hrow => ?_
    rw [(update_ok htx).2] at hrow
    exact came_update hrow (fun _ => rfl) (fun _ _ => .inl rfl) fun row h => .inr (by rw [h])
  | succeed id =>
    refine commit_keeps (P := fun s' : Store => ∀ row ∈ s'.sessions, Came _ s row) hsame fun _ s' htx row hrow => ?_
    rw [(update_ok htx).2] at hrow
    exact came_update hrow (fun _ => rfl) (fun row h => .inr ⟨congrArg some h.symm, by simp⟩) fun _ _ => .inl rfl
  | _ => exact hsame

theorem perform_events (q : Query) (s : Store) : (perform q s).2.events = s.events ∨
      (∃ session, q = .compare session false ∧
        (perform q s).2.events = .failed session.id session.issue :: s.events) ∨
      ∃ id, q = .succeed id ∧ (s.find id).isSome = true ∧ (perform q s).2.events = .completed id :: s.events ∧
        ∀ row ∈ (perform q s).2.sessions, row.id = id → row.status = .completed := by
  cases q with
  | create channel identifier code expiresAt =>
    refine .inl (commit_keeps (P := fun s' : Store => s'.events = s.events) rfl fun id s' htx => ?_)
    rw [create_ok htx]
  | expire id =>
    refine .inl (commit_keeps (P := fun s' : Store => s'.events = s.events) rfl fun _ s' htx => ?_)
    rw [(update_ok htx).2]
    rfl
  | renew id code resendCount expiresAt =>
    refine .inl (commit_keeps (P := fun s' : Store => s'.events = s.events) rfl fun _ s' htx => ?_)
    rw [(update_ok htx).2]
    rfl
  | fail id attempts =>
    refine .inl (commit_keeps (P := fun s' : Store => s'.events = s.events) rfl fun _ s' htx => ?_)
    rw [(update_ok htx).2]
    rfl
  | succeed id =>
    rcases commit_cases (s.update id (fun row => { row with status := .completed }) [.completed id] 0) s with
      ⟨e, -, hcommit⟩ | ⟨a, s', htx, hcommit⟩
    · refine .inl ?_
      rw [perform, hcommit]
    · rw [perform, hcommit, (update_ok htx).2]
      refine .inr (.inr ⟨id, rfl, (update_ok htx).1, rfl, fun row' hrow hid => ?_⟩)
      obtain ⟨row, -, rfl⟩ := mem_map.mp hrow
      by_cases heq : row.id = id
      · rw [updateSession, if_pos heq]
      · rw [updateSession, if_neg heq] at hid
        exact absurd hid heq
  | compare session isMatch =>
    cases isMatch with
    | true => exact .inl rfl
    | false => exact .inr (.inl ⟨session, rfl, rfl⟩)
  | _ => exact .inl rfl

theorem perform_created_le (q : Query) (s : Store) : s.created ≤ (perform q s).2.created := by
  have hupdate : ∀ id f events issues, s.created ≤ (commit (s.update id f events issues) s).2.created := by
    intro id f events issues
    refine commit_keeps (P := fun s' : Store => s.created ≤ s'.created) (le_refl _) fun _ s' htx => ?_
    rw [(update_ok htx).2]
  cases q with
  | create channel identifier code expiresAt =>
    refine commit_keeps (P := fun s' : Store => s.created ≤ s'.created) (le_refl _) fun id s' htx => ?_
    rw [create_ok htx]
    exact Nat.le_succ _
  | expire id | renew id code resendCount expiresAt | fail id attempts | succeed id => exact hupdate _ _ _ _
  | _ => exact le_refl _

theorem perform_numbered (h : s.Numbered) (q : Query) : (perform q s).2.Numbered := by
  have hupdate : ∀ (id : ℕ) (f : VerificationSession → VerificationSession) (events : List Event) (issues : ℕ),
      (∀ row, (f row).id = row.id) → (commit (s.update id f events issues) s).2.Numbered := by
    intro id f events issues hid
    refine commit_keeps (P := Store.Numbered) h fun _ s' htx => ?_
    rw [(update_ok htx).2]
    have hsame : ∀ row, (updateSession id f row).id = row.id := by
      intro row
      rw [updateSession]
      split
      · exact hid row
      · rfl
    refine ⟨fun row' hrow => ?_, ?_⟩
    · obtain ⟨row, hold, rfl⟩ := mem_map.mp hrow
      rw [hsame row]
      exact h.below row hold
    · have hids : s.sessions.map ((·.id) ∘ updateSession id f) = s.sessions.map (·.id) :=
        map_congr_left fun row _ => hsame row
      rw [map_map, hids]
      exact h.unique
  cases q with
  | create channel identifier code expiresAt =>
    refine commit_keeps (P := Store.Numbered) h fun id s' htx => ?_
    rw [create_ok htx]
    refine ⟨fun row hrow => ?_, ?_⟩
    · rcases mem_append.mp hrow with hrow | hrow
      · exact Nat.lt_succ_of_lt (h.below row hrow)
      · rw [mem_singleton.mp hrow]
        exact Nat.lt_succ_self _
    · rw [map_append, nodup_append]
      refine ⟨h.unique, nodup_singleton _, fun id hid id' hid' heq => ?_⟩
      obtain ⟨row, hrow, rfl⟩ := mem_map.mp hid
      rw [mem_singleton.mp hid'] at heq
      exact absurd heq (h.below row hrow).ne
  | expire id | renew id code resendCount expiresAt | fail id attempts | succeed id => exact hupdate _ _ _ _ fun _ => rfl
  | _ => exact ⟨h.below, h.unique⟩

theorem fail_writes {id attempts : ℕ} (hdb : s.db.isOk = true) :
    ∀ row ∈ (perform (.fail id attempts) s).2.sessions, row.id = id → row.attempts = attempts := by
  rcases commit_cases (s.update id (fun row => { row with attempts := attempts }) [] 0) s with
    ⟨e, htx, hcommit⟩ | ⟨a, s', htx, hcommit⟩
  · intro row hrow hid
    rw [perform, hcommit] at hrow
    -- the update only fails because there is no such session
    cases hfind : s.find id with
    | none => exact absurd (decide_eq_true hid) (find?_eq_none.mp hfind row hrow)
    | some found =>
      simp only [Store.update, hfind, Store.ask] at htx
      split at htx
      · rename_i e hdown
        rw [hdown] at hdb
        cases hdb
      · cases htx
  · rw [perform, hcommit, (update_ok htx).2]
    intro row' hrow hid
    obtain ⟨row, -, rfl⟩ := mem_map.mp hrow
    by_cases heq : row.id = id
    · rw [updateSession, if_pos heq]
    · rw [updateSession, if_neg heq] at hid
      exact absurd hid heq

theorem findUnique_ok {reader : Reader} {id : ℕ} {found : Option VerificationSession} {now : ℤ}
    (h : (perform (.findUnique reader id) s).1 = .ok (found, now)) : s.find id = found ∧ s.now = now := by
  have heq := ask_ok h
  exact ⟨(congrArg Prod.fst heq).symm, (congrArg Prod.snd heq).symm⟩

end Requests
section Serial
variable {s : Store} {stages : List Stage} {σ : Stage} {i : ℕ} {q : Query}

def Event.sessionId : Event → ℕ
  | .failed id _ => id
  | .completed id => id

def Event.isFailureOf (id : ℕ) : Event → Bool
  | .failed id' _ => id' = id
  | .completed _ => false

def failures (id : ℕ) (events : List Event) : ℕ := events.countP (·.isFailureOf id)

theorem guesses_le_failures (id issue : ℕ) (events : List Event) : guesses id issue events ≤ failures id events := by
  refine countP_mono_left fun e _ he => ?_
  rw [eq_of_beq he]
  exact decide_eq_true rfl

def Stage.Knows (config : Config) (s : Store) : Stage → Prop
  | .fresh => True
  | .comparing session isMatch =>
    session.id < s.created ∧ session.attempts < config.maxAttemptsPerSession ∧
      failures session.id s.events ≤ session.attempts + (if isMatch = some false then 1 else 0) ∧
      ∀ row ∈ s.sessions, row.id = session.id → row.status = .pending ∧ row.attempts = session.attempts

/-- The codes of a session are compared one call at a time, and each comparison that fails is written down. -/
structure Strict (config : Config) (stages : List Stage) (s : Store) : Prop where
  numbered : s.Numbered
  events : ∀ e ∈ s.events, e.sessionId < s.created
  single : Exclusive Stage.WorksOn stages
  knows : ∀ σ ∈ stages, σ.Knows config s
  limited : ∀ id, failures id s.events ≤ config.maxAttemptsPerSession
  counted : ∀ row ∈ s.sessions, (∀ σ ∈ stages, ¬ σ.WorksOn row.id) → failures row.id s.events ≤ row.attempts
  opened : ∀ row ∈ s.sessions, row.status = .pending → completions row.id s.events = 0
  once : ∀ id, completions id s.events ≤ 1

structure OrderlyAt (config : Config) (stages : List Stage) (s : Store) (q : Query) : Prop where
  checks : ∀ id session, q = .findUnique .complete id → s.find id = some session → session.IsOpen config s.now →
    ∀ σ ∈ stages, ¬ σ.WorksOn id
  expires : ∀ id, q = .expire id → ∀ σ ∈ stages, ¬ σ.WorksOn id
  writes : ∀ id attempts, q = .fail id attempts → s.db.isOk = true

theorem worksOn_sessionId (hallowed : σ.allowed q) {id : ℕ} : σ.WorksOn id ↔ q.sessionId = some id := by
  cases σ with
  | fresh =>
    have hnone : q.sessionId = none := hallowed
    rw [hnone]
    exact ⟨fun h => h.elim, fun h => by cases h⟩
  | comparing session isMatch =>
    have hsession : q.sessionId = some session.id := by
      rcases isMatch with _ | _ | _ <;> cases q <;> first | exact hallowed.elim | skip
      · exact congrArg (fun session : VerificationSession => some session.id) hallowed
      · exact congrArg some hallowed.1
      · exact congrArg some hallowed
    rw [hsession, Option.some.injEq]
    exact Iff.rfl

structure Spared (id : ℕ) (s s' : Store) : Prop where
  rows : ∀ row' ∈ s'.sessions, row'.id = id →
    ∃ row ∈ s.sessions, row.id = id ∧ row'.status = row.status ∧ row'.attempts = row.attempts
  failures : failures id s'.events = failures id s.events
  completions : completions id s'.events = completions id s.events

theorem events_spared {id : ℕ} (h : q.sessionId ≠ some id) : failures id (perform q s).2.events = failures id s.events ∧
      completions id (perform q s).2.events = completions id s.events := by
  rcases perform_events q s with hsame | ⟨session, rfl, hevents⟩ | ⟨id', rfl, -, hevents, -⟩
  · rw [hsame]
    exact ⟨rfl, rfl⟩
  · have hne : session.id ≠ id := fun heq => h (congrArg some heq)
    rw [hevents]
    exact ⟨countP_cons_of_neg (by simpa [Event.isFailureOf] using hne), count_cons_of_ne (by simp)⟩
  · have hne : id' ≠ id := fun heq => h (congrArg some heq)
    rw [hevents]
    exact ⟨countP_cons_of_neg (by simp [Event.isFailureOf]), count_cons_of_ne (by simpa using hne)⟩

theorem perform_spares {id : ℕ} (hid : id < s.created) (hcloses : q.closes ≠ some id) (h : q.sessionId ≠ some id) :
    Spared id s (perform q s).2 where
  rows row' hrow' heq := by
    rcases perform_came q s row' hrow' with ⟨row, hrow, hsame, hstatus, hattempts⟩ | ⟨hnew, -, -⟩
    · have hrowid : row.id = id := hsame.symm.trans heq
      refine ⟨row, hrow, hrowid, ?_, ?_⟩
      · rcases hstatus with hstatus | ⟨hclosed, -⟩
        · exact hstatus
        · rw [hrowid] at hclosed
          exact absurd hclosed hcloses
      · rcases hattempts with hattempts | hfail
        · exact hattempts
        · rw [hfail, hrowid] at h
          exact absurd rfl h
    · omega
  failures := (events_spared h).1
  completions := (events_spared h).2

theorem Stage.Knows.spared {session : VerificationSession} {isMatch : Option Bool} {s' : Store}
    (h : (Stage.comparing session isMatch).Knows config s) (hcreated : s.created ≤ s'.created)
    (hspared : Spared session.id s s') : (Stage.comparing session isMatch).Knows config s' := by
  obtain ⟨hbelow, hmax, hfailures, hrows⟩ := h
  refine ⟨lt_of_lt_of_le hbelow hcreated, hmax, ?_, fun row' hrow' hid => ?_⟩
  · rw [hspared.failures]
    exact hfailures
  · obtain ⟨row, hrow, hrowid, hstatus, hattempts⟩ := hspared.rows row' hrow' hid
    rw [hstatus, hattempts]
    exact hrows row hrow hrowid

theorem others_know (h : Strict config stages s) (horderly : OrderlyAt config stages s q) (hi : stages[i]? = some σ)
    (hallowed : σ.allowed q) (j : ℕ) (τ : Stage) (hji : j ≠ i) (hj : stages[j]? = some τ) :
    τ.Knows config (perform q s).2 := by
  have hτ := mem_of_getElem? hj
  cases τ with
  | fresh => trivial
  | comparing session isMatch =>
    have hknows := h.knows _ hτ
    have hother : q.sessionId ≠ some session.id := fun heq =>
      h.single.other hi hji hj ((worksOn_sessionId hallowed).mpr heq) rfl
    refine hknows.spared (perform_created_le q s) (perform_spares hknows.1 (fun hcloses => ?_) hother)
    cases q with
    | expire id =>
      have hid : session.id = id := (Option.some.inj hcloses).symm
      exact horderly.expires id rfl _ hτ hid
    | succeed id => exact hother hcloses
    | _ => cases hcloses

theorem next_find {found : Option VerificationSession} {id : ℕ} {now : ℤ} (reader : Reader)
    (hreply : (perform (.findUnique reader id) s).1 = .ok (found, now)) :
    Stage.next config .fresh (.findUnique reader id) (perform (.findUnique reader id) s).1 = .fresh ∨
      ∃ session, reader = .complete ∧ s.find id = some session ∧ session.IsOpen config s.now ∧
        Stage.next config .fresh (.findUnique reader id) (perform (.findUnique reader id) s).1 =
          .comparing session none := by
  obtain ⟨hfind, hnow⟩ := findUnique_ok hreply
  rw [hreply, hfind, hnow]
  cases reader with
  | resend => exact .inl rfl
  | complete =>
    cases found with
    | none => exact .inl rfl
    | some session =>
      by_cases hopen : session.IsOpen config now
      · exact .inr ⟨session, rfl, rfl, hopen, if_pos hopen⟩
      · exact .inl (if_neg hopen)

theorem next_cases (config : Config) (s : Store) (hallowed : σ.allowed q) : Stage.next config σ q (perform q s).1 = .fresh ∨
      (∃ session isMatch, σ = .comparing session none ∧ q = .compare session isMatch ∧
        Stage.next config σ q (perform q s).1 = .comparing session (some isMatch)) ∨
      ∃ id session, σ = .fresh ∧ q = .findUnique .complete id ∧ s.find id = some session ∧
        session.IsOpen config s.now ∧ Stage.next config σ q (perform q s).1 = .comparing session none := by
  cases σ with
  | fresh =>
    cases q with
    | findUnique reader id =>
      rcases hreply : (perform (.findUnique reader id) s).1 with e | ⟨found, now⟩
      · refine .inl ?_
        cases reader with
        | _ => rfl
      · rw [← hreply]
        rcases next_find reader hreply with hfresh | ⟨session, rfl, hfind, hopen, hnext⟩
        · exact .inl hfresh
        · exact .inr (.inr ⟨id, session, rfl, rfl, hfind, hopen, hnext⟩)
    | _ => exact .inl rfl
  | comparing session isMatch =>
    rcases isMatch with _ | _ | _
    · cases q with
      | compare session' isMatch =>
        have heq : session' = session := hallowed
        rw [heq]
        exact .inr (.inl ⟨session, isMatch, rfl, rfl, rfl⟩)
      | _ => exact hallowed.elim
    · cases q with
      | fail id attempts => exact .inl rfl
      | _ => exact hallowed.elim
    · cases q with
      | succeed id => exact .inl rfl
      | _ => exact hallowed.elim

theorem find_mem {id : ℕ} {session : VerificationSession} (h : s.find id = some session) :
    session ∈ s.sessions ∧ session.id = id := by
  have hid := find?_some h
  exact ⟨mem_of_find?_eq_some h, of_decide_eq_true hid⟩

theorem next_knows (h : Strict config stages s) (horderly : OrderlyAt config stages s q)
    (hi : stages[i]? = some σ) (hallowed : σ.allowed q) :
    (Stage.next config σ q (perform q s).1).Knows config (perform q s).2 := by
  have hknows := h.knows σ (mem_of_getElem? hi)
  rcases next_cases config s hallowed with
    hnext | ⟨session, isMatch, rfl, rfl, hnext⟩ | ⟨id, session, rfl, rfl, hfind, hopen, hnext⟩
  · rw [hnext]
    trivial
  · rw [hnext]
    obtain ⟨hbelow, hmax, hfailures, hrows⟩ := hknows
    refine ⟨hbelow, hmax, ?_, hrows⟩
    cases isMatch with
    | true => exact hfailures
    | false =>
      have hone : failures session.id (.failed session.id session.issue :: s.events) =
          failures session.id s.events + 1 := countP_cons_of_pos (decide_eq_true rfl)
      change failures session.id (.failed session.id session.issue :: s.events) ≤ session.attempts + 1
      rw [hone]
      exact Nat.succ_le_succ hfailures
  · rw [hnext]
    obtain ⟨hmem, hid⟩ := find_mem hfind
    have hfree : ∀ σ ∈ stages, ¬ σ.WorksOn session.id := by
      rw [hid]
      exact horderly.checks id session rfl hfind hopen
    refine ⟨h.numbered.below session hmem, hopen.2.2.1, h.counted session hmem hfree, fun row hrow heq => ?_⟩
    have hsame : row = session := inj_on_of_nodup_map h.numbered.unique hrow hmem heq
    rw [hsame]
    exact ⟨hopen.1, rfl⟩

theorem single_serve (h : Strict config stages s) (horderly : OrderlyAt config stages s q)
    (hi : stages[i]? = some σ) (hallowed : σ.allowed q) :
    Exclusive Stage.WorksOn (stages.set i (Stage.next config σ q (perform q s).1)) := by
  refine h.single.set hi fun id hworks => ?_
  rcases next_cases config s hallowed with
    hnext | ⟨session, isMatch, rfl, -, hnext⟩ | ⟨id', session, -, hq, hfind, hopen, hnext⟩
  · rw [hnext] at hworks
    exact hworks.elim
  · rw [hnext] at hworks
    exact .inl hworks
  · rw [hnext] at hworks
    have hid : id' = id := (find_mem hfind).2.symm.trans hworks
    rw [← hid]
    exact .inr (horderly.checks id' session hq hfind hopen)

theorem events_serve (h : Strict config stages s) (hi : stages[i]? = some σ) (hallowed : σ.allowed q) :
    ∀ e ∈ (perform q s).2.events, e.sessionId < s.created := by
  have hold : ∀ id, q.sessionId = some id → id < s.created := by
    intro id hid
    have hknows := h.knows σ (mem_of_getElem? hi)
    have hworks := (worksOn_sessionId hallowed).mpr hid
    cases σ with
    | fresh => exact hworks.elim
    | comparing session isMatch =>
      have hsame : session.id = id := hworks
      rw [← hsame]
      exact hknows.1
  rcases perform_events q s with hsame | ⟨session, rfl, hevents⟩ | ⟨id, rfl, -, hevents, -⟩
  · rw [hsame]
    exact h.events
  · rw [hevents, forall_mem_cons]
    exact ⟨hold _ rfl, h.events⟩
  · rw [hevents, forall_mem_cons]
    exact ⟨hold _ rfl, h.events⟩

theorem limited_serve (h : Strict config stages s) (hi : stages[i]? = some σ) (hallowed : σ.allowed q) (id : ℕ) :
    failures id (perform q s).2.events ≤ config.maxAttemptsPerSession := by
  rcases perform_events q s with hsame | ⟨session, rfl, hevents⟩ | ⟨id', rfl, -, hevents, -⟩
  · rw [hsame]
    exact h.limited id
  · by_cases hid : session.id = id
    · have hknows := h.knows σ (mem_of_getElem? hi)
      cases σ with
      | fresh => cases hallowed
      | comparing session' isMatch =>
        rcases isMatch with _ | _ | _
        · have heq : session = session' := hallowed
          obtain ⟨-, hmax, hfailures, -⟩ := hknows
          rw [← heq, hid, if_neg (by simp)] at hfailures
          rw [← heq] at hmax
          have hone : failures id (perform (.compare session false) s).2.events = failures id s.events + 1 := by
            rw [hevents]
            exact countP_cons_of_pos (decide_eq_true hid)
          omega
        · exact hallowed.elim
        · exact hallowed.elim
    · have hother : (Query.compare session false).sessionId ≠ some id := fun heq => hid (Option.some.inj heq)
      rw [(events_spared hother).1]
      exact h.limited id
  · rw [hevents, failures, countP_cons_of_neg (by simp [Event.isFailureOf])]
    exact h.limited id

theorem counted_serve (h : Strict config stages s) (horderly : OrderlyAt config stages s q)
    (hi : stages[i]? = some σ) (hallowed : σ.allowed q) : ∀ row ∈ (perform q s).2.sessions,
    (∀ τ ∈ stages.set i (Stage.next config σ q (perform q s).1), ¬ τ.WorksOn row.id) →
      failures row.id (perform q s).2.events ≤ row.attempts := by
  intro row' hrow' hfree
  have hlt : i < stages.length := (List.getElem?_eq_some_iff.mp hi).1
  rcases perform_came q s row' hrow' with ⟨row, hrow, hid, -, hattempts⟩ | ⟨hnew, -, -⟩
  · rw [hid] at hfree ⊢
    by_cases hmine : q.sessionId = some row.id
    · have hknows := h.knows σ (mem_of_getElem? hi)
      have hself := hfree _ (mem_set hlt _)
      have hworks := (worksOn_sessionId hallowed).mpr hmine
      cases σ with
      | fresh => exact hworks.elim
      | comparing session isMatch =>
        have hsame : session.id = row.id := hworks
        obtain ⟨-, -, hfailures, hrows⟩ := hknows
        rw [hsame] at hfailures
        rcases isMatch with _ | _ | _
        · -- the call goes on to write the comparison down
          cases q with
          | compare session' isMatch => exact absurd hworks hself
          | _ => exact hallowed.elim
        · cases q with
          | fail id attempts =>
            have hwritten := fail_writes (horderly.writes id attempts rfl) row' hrow'
              (hid.trans (Option.some.inj hmine).symm)
            rcases perform_events (.fail id attempts) s with hevents | ⟨_, hq, -⟩ | ⟨_, hq, -⟩
            · rw [hevents, hwritten, hallowed.2]
              exact hfailures
            · cases hq
            · cases hq
          | _ => exact hallowed.elim
        · cases q with
          | succeed id =>
            have hkept : row'.attempts = session.attempts := by
              rcases hattempts with hattempts | hq
              · exact hattempts.trans (hrows row hrow hsame.symm).2
              · cases hq
            have hevents : failures row.id (perform (.succeed id) s).2.events = failures row.id s.events := by
              rcases perform_events (.succeed id) s with hevents | ⟨_, hq, -⟩ | ⟨_, -, -, hevents, -⟩
              · rw [hevents]
              · cases hq
              · rw [hevents]
                exact countP_cons_of_neg (by simp [Event.isFailureOf])
            rw [hevents, hkept]
            exact hfailures
          | _ => exact hallowed.elim
    · have hkept : row'.attempts = row.attempts := by
        rcases hattempts with hattempts | hq
        · exact hattempts
        · rw [hq] at hmine
          exact absurd rfl hmine
      rw [(events_spared hmine).1, hkept]
      refine h.counted row hrow fun τ hτ hworks => ?_
      obtain ⟨j, hj⟩ := mem_iff_getElem?.mp hτ
      by_cases hji : j = i
      · rw [hji, hi, Option.some.injEq] at hj
        rw [← hj] at hworks
        exact hmine ((worksOn_sessionId hallowed).mp hworks)
      · refine hfree τ (mem_of_getElem? (i := j) ?_) hworks
        rw [getElem?_set_ne (Ne.symm hji)]
        exact hj
  · have hnone : failures row'.id (perform q s).2.events = 0 := by
      refine countP_eq_zero.mpr fun e he hfailed => ?_
      have hbelow := events_serve h hi hallowed e he
      cases e with
      | failed id issue =>
        have hsame : id = row'.id := of_decide_eq_true hfailed
        rw [Event.sessionId] at hbelow
        omega
      | completed id => cases hfailed
    rw [hnone]
    exact Nat.zero_le _

theorem opened_serve (h : Strict config stages s) (hi : stages[i]? = some σ) (hallowed : σ.allowed q) :
    ∀ row ∈ (perform q s).2.sessions, row.status = .pending → completions row.id (perform q s).2.events = 0 := by
  intro row' hrow' hpending
  rcases perform_came q s row' hrow' with ⟨row, hrow, hid, hstatus, -⟩ | ⟨hnew, -, -⟩
  · have hbefore : completions row'.id s.events = 0 := by
      rw [hid]
      rcases hstatus with hstatus | ⟨-, hclosed⟩
      · exact h.opened row hrow (hstatus.symm.trans hpending)
      · exact absurd hpending hclosed
    rcases perform_events q s with hsame | ⟨session, -, hevents⟩ | ⟨id, -, -, hevents, hcompleted⟩
    · rw [hsame]
      exact hbefore
    · rw [hevents, completions, count_cons_of_ne (by simp)]
      exact hbefore
    · have hne : id ≠ row'.id := by
        intro heq
        have hdone := hcompleted row' hrow' heq.symm
        rw [hpending] at hdone
        cases hdone
      rw [hevents, completions, count_cons_of_ne (by simpa using hne)]
      exact hbefore
  · refine count_eq_zero.mpr fun he => ?_
    have hbelow := events_serve h hi hallowed _ he
    rw [Event.sessionId] at hbelow
    omega

theorem pending_of_succeed (h : Strict config stages s) {id : ℕ} (hi : stages[i]? = some σ)
    (hallowed : σ.allowed (.succeed id)) : ∀ row ∈ s.sessions, row.id = id → row.status = .pending := by
  intro row hrow hid
  have hknows := h.knows σ (mem_of_getElem? hi)
  have hworks := (worksOn_sessionId hallowed).mpr rfl
  cases σ with
  | fresh => exact hworks.elim
  | comparing session isMatch => exact (hknows.2.2.2 row hrow (hid.trans hworks.symm)).1

theorem once_serve (h : Strict config stages s) (hi : stages[i]? = some σ) (hallowed : σ.allowed q) (id : ℕ) :
    completions id (perform q s).2.events ≤ 1 := by
  rcases perform_events q s with hsame | ⟨session, -, hevents⟩ | ⟨id', rfl, hfound, hevents, -⟩
  · rw [hsame]
    exact h.once id
  · rw [hevents, completions, count_cons_of_ne (by simp)]
    exact h.once id
  · obtain ⟨row, hfind⟩ := Option.isSome_iff_exists.mp hfound
    obtain ⟨hrow, hid⟩ := find_mem hfind
    by_cases heq : id' = id
    · have hnone := h.opened row hrow (pending_of_succeed h hi hallowed row hrow hid)
      rw [hid, heq] at hnone
      rw [hevents, heq, completions, count_cons_self]
      exact Nat.succ_le_succ hnone.le
    · rw [hevents, completions, count_cons_of_ne (by simpa using heq)]
      exact h.once id

theorem strict_serve (h : Strict config stages s) (horderly : OrderlyAt config stages s q)
    (hi : stages[i]? = some σ) (hallowed : σ.allowed q) :
    Strict config (stages.set i (Stage.next config σ q (perform q s).1)) (perform q s).2 where
  numbered := perform_numbered h.numbered q
  events e he := lt_of_lt_of_le (events_serve h hi hallowed e he) (perform_created_le q s)
  single := single_serve h horderly hi hallowed
  knows := forall_mem_set (next_knows h horderly hi hallowed) (others_know h horderly hi hallowed)
  limited := limited_serve h hi hallowed
  counted := counted_serve h horderly hi hallowed
  opened := opened_serve h hi hallowed
  once := once_serve h hi hallowed

theorem strict_start (h : Strict config stages s) : Strict config (stages ++ [.fresh]) s where
  numbered := h.numbered
  events := h.events
  single := h.single.snoc fun _ => id
  knows σ hσ := by
    rcases mem_append.mp hσ with hσ | hσ
    · exact h.knows σ hσ
    · rw [mem_singleton.mp hσ]
      trivial
  limited := h.limited
  counted row hrow hfree := h.counted row hrow fun σ hσ => hfree σ (mem_append_left _ hσ)
  opened := h.opened
  once := h.once

end Serial
section Runs
variable {now : ℤ} {p : FlowPool} {tr : List FlowTransition}

def InOrder (config : Config) (p : FlowPool) : Prop :=
  ∃ stages, p.At (protocol config) (fun σ _ => σ = .fresh) stages ∧ Strict config stages p.store

theorem inOrder_idle : InOrder config ({ store := { now := now } } : FlowPool) := by
  refine ⟨[], List.Forall₂.nil, ?_⟩
  exact
    { numbered := ⟨fun _ h => absurd h not_mem_nil, nodup_nil⟩
      events := fun _ h => absurd h not_mem_nil
      single := Exclusive.nil
      knows := fun _ h => absurd h not_mem_nil
      limited := fun _ => Nat.zero_le _
      counted := fun _ h => absurd h not_mem_nil
      opened := fun _ h => absurd h not_mem_nil
      once := fun _ => Nat.zero_le _ }

theorem busy_of_worksOn {stages : List Stage} (h : p.At (protocol config) (fun σ _ => σ = .fresh) stages)
    {σ : Stage} (hσ : σ ∈ stages) {id : ℕ} (hworks : σ.WorksOn id) : p.Busy Query.sessionId id := by
  refine h.busy Stage.WorksOn (fun σ _ id hfresh hworks => ?_)
    (fun σ q id hallowed hworks => (worksOn_sessionId hallowed).mp hworks) hσ hworks
  rw [hfresh] at hworks
  exact hworks

theorem orderlyAt {stages : List Stage} (h : p.At (protocol config) (fun σ _ => σ = .fresh) stages) {q : Query}
    (hq : q.IsOrderly config p) : OrderlyAt config stages p.store q where
  checks id session heq hfind hopen σ hσ hworks := by
    subst heq
    refine hq ?_ (busy_of_worksOn h hσ hworks)
    rw [hfind]
    exact decide_eq_true hopen
  expires id heq σ hσ hworks := by
    subst heq
    exact hq (busy_of_worksOn h hσ hworks)
  writes id attempts heq := by
    subst heq
    exact hq

theorem inOrder_of_run (hrun : Run (FlowStep config) { store := { now := now } } tr p)
    (horderly : ∀ t ∈ tr, Orderly config t) {t : FlowTransition} (ht : t ∈ tr) :
    InOrder config t.pre ∧ InOrder config t.post := by
  refine hrun.invariant_at (I := InOrder config) (C := Orderly config) inOrder_idle horderly
    (fun t hstep hC hpre => ?_) ht
  obtain ⟨stages, hat, hstrict⟩ := hpre
  rcases hat.step body_follows hstep with ⟨-, hstore, hat'⟩ | ⟨i, σ, q, -, hq, hσ, hallowed, hstore, hat'⟩
  · refine ⟨_, hat', ?_⟩
    rw [hstore]
    exact strict_start hstrict
  · refine ⟨_, hat', ?_⟩
    rw [hstore]
    exact strict_serve hstrict (orderlyAt hat (hC q hq)) hσ hallowed

def Store.Closed (s : Store) (id : ℕ) : Prop :=
  id < s.created ∧ ∀ row ∈ s.sessions, row.id = id → row.status ≠ .pending

theorem perform_closed {s : Store} {id : ℕ} (h : s.Closed id) (q : Query) : (perform q s).2.Closed id := by
  refine ⟨lt_of_lt_of_le h.1 (perform_created_le q s), fun row' hrow' hid => ?_⟩
  rcases perform_came q s row' hrow' with ⟨row, hrow, hsame, hstatus, -⟩ | ⟨hnew, -, -⟩
  · rcases hstatus with hstatus | ⟨-, hclosed⟩
    · rw [hstatus]
      exact h.2 row hrow (hsame.symm.trans hid)
    · exact hclosed
  · have := h.1
    omega

theorem staysClosed (hrun : Run (FlowStep config) { store := { now := now } } tr p) :
    tr.Pairwise fun t t' => ∀ id, t.post.store.Closed id → t'.pre.store.Closed id := by
  refine hrun.pairwise_pre (R := fun p p' => ∀ id, p.store.Closed id → p'.store.Closed id) (fun _ _ h => h)
    (fun _ _ _ hab hbc id h => hbc id (hab id h)) fun t ht id hclosed => ?_
  rcases (hrun.step_of_mem ht).store with ⟨-, hstore⟩ | ⟨q, -, hstore⟩
  · rw [hstore]
    exact hclosed
  · rw [hstore]
    exact perform_closed hclosed q

theorem pending_of_completes (hrun : Run (FlowStep config) { store := { now := now } } tr p)
    (horderly : ∀ t ∈ tr, Orderly config t) {t : FlowTransition} (ht : t ∈ tr) {id : ℕ} (hcompletes : Completes id t) :
    ¬ t.pre.store.Closed id := by
  obtain ⟨stages, hat, hstrict⟩ := (inOrder_of_run hrun horderly ht).1
  have hgrown : t.post.store.events ≠ t.pre.store.events := by
    rw [hcompletes]
    exact cons_ne_self _ _
  rcases hat.step body_follows (hrun.step_of_mem ht) with
    ⟨-, hstore, -⟩ | ⟨i, σ, q, -, -, hσ, hallowed, hstore, -⟩
  · rw [hstore] at hgrown
    exact absurd rfl hgrown
  · rw [Completes, hstore] at hcompletes
    rcases perform_events q t.pre.store with hsame | ⟨session, -, hevents⟩ | ⟨id', rfl, hfound, hevents, -⟩
    · rw [hstore] at hgrown
      exact absurd hsame hgrown
    · rw [hevents] at hcompletes
      cases hcompletes
    · rw [hevents] at hcompletes
      cases hcompletes
      obtain ⟨row, hfind⟩ := Option.isSome_iff_exists.mp hfound
      obtain ⟨hrow, hid⟩ := find_mem hfind
      exact fun hclosed => hclosed.2 row hrow hid (pending_of_succeed hstrict hσ hallowed row hrow hid)

/-- The attempt limit: in every run in which the codes of a session are compared one call at a time, and each comparison
that fails is written down, no code is guessed at more often than the configuration says, and a session is completed
once, while it is pending. -/
theorem attemptsLimited_of_orderly (hrun : Run (FlowStep config) { store := { now := now } } tr p)
    (horderly : ∀ t ∈ tr, Orderly config t) : AttemptsLimited config tr where
  limited t ht id issue := by
    obtain ⟨stages, -, hstrict⟩ := (inOrder_of_run hrun horderly ht).2
    exact le_trans (guesses_le_failures id issue _) (hstrict.limited id)
  once t ht id := by
    obtain ⟨stages, -, hstrict⟩ := (inOrder_of_run hrun horderly ht).2
    exact hstrict.once id
  closed := by
    refine (staysClosed hrun).imp_of_mem fun {t t'} ht ht' hstays row hrow hstatus hcompletes => ?_
    obtain ⟨stages, -, hstrict⟩ := (inOrder_of_run hrun horderly ht).2
    refine pending_of_completes hrun horderly ht' hcompletes (hstays row.id ?_)
    refine ⟨hstrict.numbered.below row hrow, fun row' hrow' hid => ?_⟩
    have hsame : row' = row := inj_on_of_nodup_map hstrict.numbered.unique hrow' hrow hid
    rw [hsame]
    exact hstatus

def markedConfig : Config where
  encrypt code := 'v' :: code
  decrypt
    | 'v' :: code => some code
    | _ => none
  encryptDeterministic identifier := 'd' :: identifier
  decryptDeterministic
    | 'd' :: identifier => some identifier
    | _ => none
  toLowerCase := id

def started : List (Turn FlowOp) :=
  .start (.start { channel := .email, email := some "ada@example.org".toList } "123456".toList (.ok ())) ::
    replicate 5 (.advance 0)

def guess (code : String) : Turn FlowOp := .start (.complete ⟨0, code.toList⟩)

def guessing (turns : List (Turn FlowOp)) : List FlowTransition × FlowPool :=
  play (Pool.take perform (FlowOp.body markedConfig)) { store := { now := 0 } } (started ++ turns)

theorem guessing_run (turns : List (Turn FlowOp)) :
    Run (FlowStep markedConfig) { store := { now := 0 } } (guessing turns).1 (guessing turns).2 :=
  play_run (fun _ _ _ h => h) _ _

theorem attemptsLimited_guessing :
    AttemptsLimited markedConfig (guessing [guess "654321", .advance 1, .advance 1, .advance 1,
      guess "123456", .advance 2, .advance 2, .advance 2]).1 :=
  attemptsLimited_of_orderly (guessing_run _) (by decide +kernel)

def parallelGuesses : List (Turn FlowOp) :=
  replicate 6 (guess "654321") ++ [1, 2, 3, 4, 5, 6].map .advance ++ [1, 2, 3, 4, 5, 6].map .advance

theorem parallelGuesses_unlimited : ¬ AttemptsLimited markedConfig (guessing parallelGuesses).1 := by
  intro h
  have hsix : ¬ ∀ t ∈ (guessing parallelGuesses).1,
      guesses 0 0 t.post.store.events ≤ markedConfig.maxAttemptsPerSession := by
    decide +kernel
  exact hsix fun t ht => h.limited t ht 0 0

end Runs
end Soter.Verification
