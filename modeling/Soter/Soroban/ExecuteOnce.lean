import Soter.Soroban.Stages

/-! Submissions of one record: an adapter that may come to anything, and when no submission is made
after one that has succeeded. -/
namespace Soter.Soroban
open Soter.Tasks Soter.Runs List

inductive SubmissionQuery
  | submit (call : AdapterCall)
  | outcome
  /-- What the next call to come back will come to is decided elsewhere. -/
  | foresee (result : Except String String)

def SubmissionQuery.Reply : SubmissionQuery → Type
  | .submit _ | .foresee _ => Unit
  | .outcome => Except String String

inductive SubmissionEvent
  | made (call : AdapterCall)
  | ended (result : Except String String)

def SubmissionEvent.isMade : SubmissionEvent → Bool
  | .made _ => true
  | .ended _ => false

def SubmissionEvent.isSuccess : SubmissionEvent → Bool
  | .ended (.ok _) => true
  | _ => false

structure SubmissionLog where
  foreseen : Except String String := .error "Contract transaction failed"
  events : List SubmissionEvent := []

def serveSubmission : (c : SubmissionQuery) → Time → SubmissionLog → c.Reply × SubmissionLog
  | .submit call, _, k => ((), { k with events := k.events ++ [.made call] })
  | .outcome, _, k => (k.foreseen, { k with events := k.events ++ [.ended k.foreseen] })
  | .foresee result, _, k => ((), { k with foreseen := result })

def anyAdapter (call : AdapterCall) : Handler SubmissionQuery.Reply String :=
  .ask (.chain (.submit call)) fun _ => .ask (.chain .outcome) fun result => .done result

abbrev SubmissionSystem := System SubmissionLog SubmissionQuery.Reply (Except String String)
abbrev SubmissionOp := LifecycleOp (Except String String)
abbrev SubmissionTransition := Transition SubmissionSystem (Turn SubmissionOp)

def SubmissionStep : SubmissionSystem → Turn SubmissionOp → SubmissionSystem → Prop :=
  Pool.Step (perform serveSubmission) (LifecycleOp.body anyAdapter .foresee)

theorem asks_anyAdapter (call : AdapterCall) : (anyAdapter call).Asks Query.Outside :=
  ⟨trivial, fun _ => ⟨trivial, fun _ => trivial⟩⟩

variable {q : SubmissionQueries} {s : Store SubmissionLog}

abbrev SubmissionQueries := Query SubmissionQuery

def SubmissionLog.Succeeded (k : SubmissionLog) : Prop := ∃ e ∈ k.events, e.isSuccess = true

def SubmissionLog.Once (k : SubmissionLog) : Prop :=
  k.events.Pairwise fun earlier later => earlier.isSuccess = true → later.isMade = false

structure AtMostOnce (t : SubmissionTransition) : Prop where
  once : t.post.store.chain.Once
  terminal : t.pre.store.transaction.status.terminal →
    t.post.store.transaction.status = t.pre.store.transaction.status ∨
      ∃ id forceRetry now, t.pre.asked t.label = some (.resetForRetry id forceRetry now)
  attempts : t.post.store.transaction.attemptCount ≤ t.post.store.transaction.maxAttempts

/-- The adapter is called while no call has succeeded, and a write to a record that is confirmed, failed
or expired writes the status that it has. -/
structure Admitted (p : SubmissionSystem) (turn : Turn SubmissionOp) : Prop where
  fresh : ∀ call, p.asked turn = some (.chain (.submit call)) → ¬ p.store.chain.Succeeded
  keeps : ∀ q id status, p.asked turn = some q → q.sets = some (id, status) →
    p.store.transaction.id = id → p.store.transaction.status.terminal →
      status = p.store.transaction.status

theorem once_append {events : List SubmissionEvent} {e : SubmissionEvent}
    {k : SubmissionLog} (hk : k.events = events ++ [e]) (h : SubmissionLog.Once { events := events }) :
    k.Once ↔ (e.isMade = true → ¬ SubmissionLog.Succeeded { events := events }) := by
  rw [SubmissionLog.Once, hk, pairwise_append]
  constructor
  · rintro ⟨-, -, hlast⟩ hmade ⟨a, ha, hsuccess⟩
    have hnot := hlast a ha e (mem_singleton_self e) hsuccess
    exact absurd hmade (by rw [hnot]; decide)
  · intro hfresh
    refine ⟨h, pairwise_singleton _ e, fun a ha b hb hsuccess => ?_⟩
    rw [mem_singleton.mp hb]
    exact Bool.eq_false_iff.mpr fun hmade => hfresh hmade ⟨a, ha, hsuccess⟩

theorem once_perform (h : s.chain.Once) : (perform serveSubmission q s).2.chain.Once ↔
    ∀ call, q = .chain (.submit call) → ¬ s.chain.Succeeded := by
  have hsame : (perform serveSubmission q s).2.chain.events = s.chain.events →
      (∀ call, q ≠ .chain (.submit call)) → ((perform serveSubmission q s).2.chain.Once ↔
        ∀ call, q = .chain (.submit call) → ¬ s.chain.Succeeded) := by
    intro hevents hne
    rw [SubmissionLog.Once, hevents]
    exact ⟨fun _ call hq => absurd hq (hne call), fun _ => h⟩
  have hupdate : ∀ id f, (s.update id f).2.chain = s.chain := by
    intro id f
    rw [Store.update]
    split <;> rfl
  cases q with
  | chain c =>
    cases c with
    | submit call =>
      rw [once_append (k := (perform serveSubmission (.chain (.submit call)) s).2.chain) rfl h]
      exact ⟨fun hfresh _ _ => hfresh rfl, fun hfresh _ => hfresh call rfl⟩
    | outcome =>
      rw [once_append (k := (perform serveSubmission (.chain .outcome) s).2.chain) rfl h]
      exact ⟨fun _ _ heq => (by cases heq), fun _ heq => (by cases heq)⟩
    | foresee result => exact hsame rfl fun _ heq => by cases heq
  | updateTransactionStatus id status now | confirm id txHash attemptNumber now | recordError id error
  | resetForRetry id forceRetry now => exact hsame (congrArg _ (hupdate id _)) fun _ heq => by cases heq
  | expire createdBefore now =>
    refine hsame ?_ fun _ heq => by cases heq
    simp only [perform]
    split <;> rfl
  | _ => exact hsame rfl fun _ heq => by cases heq

theorem terminal_perform (hterminal : s.transaction.status.terminal) :
    ((perform serveSubmission q s).2.transaction.status = s.transaction.status ∨
      ∃ id forceRetry now, q = .resetForRetry id forceRetry now) ↔
    ∀ id status, q.sets = some (id, status) → s.transaction.id = id → status = s.transaction.status := by
  cases hsets : q.sets with
  | none => exact ⟨fun _ _ _ => nofun, fun _ => status_perform_of_not_sets hsets hterminal⟩
  | some target =>
    obtain ⟨id, status⟩ := target
    have hstatus : (perform serveSubmission q s).2.transaction.status =
        if s.transaction.id = id then status else s.transaction.status :=
      status_perform_of_sets hsets
    constructor
    · rintro (hkept | ⟨id', forceRetry, now, rfl⟩) id' status' htarget hid
      · cases htarget
        rw [if_pos hid] at hstatus
        exact hstatus.symm.trans hkept
      · cases hsets
    · intro hkeeps
      left
      rw [hstatus]
      split
      · exact hkeeps id status rfl ‹_›
      · rfl

theorem admitted_of_none {p : SubmissionSystem} {turn : Turn SubmissionOp} (h : p.asked turn = none) :
    Admitted p turn := by
  refine ⟨fun call hcall => ?_, fun q id status hq => ?_⟩
  · rw [h] at hcall
    cases hcall
  · rw [h] at hq
    cases hq

theorem atMostOnce_iff {t : SubmissionTransition} (honce : t.pre.store.chain.Once)
    (hattempts : t.post.store.transaction.attemptCount ≤ t.post.store.transaction.maxAttempts)
    (hstep : SubmissionStep t.pre t.label t.post) : AtMostOnce t ↔ Admitted t.pre t.label := by
  rcases hstep.store with ⟨hnone, hstore⟩ | ⟨q, hq, hstore⟩
  · constructor
    · exact fun _ => admitted_of_none hnone
    · intro _
      exact ⟨hstore ▸ honce, fun _ => .inl (by rw [hstore]), hattempts⟩
  · have hasked : ∀ q', t.pre.asked t.label = some q' ↔ q = q' := by
      intro q'
      rw [hq, Option.some.injEq]
    constructor
    · intro h
      have hfresh := h.once
      rw [hstore, once_perform honce] at hfresh
      refine ⟨fun call hcall => hfresh call ((hasked _).mp hcall), ?_⟩
      intro q' id status hq' hsets hid hterminal
      have hkept := h.terminal hterminal
      simp only [hasked, hstore] at hkept
      rw [← (hasked q').mp hq'] at hsets
      exact (terminal_perform hterminal).mp hkept id status hsets hid
    · intro h
      refine ⟨?_, fun hterminal => ?_, hattempts⟩
      · rw [hstore, once_perform honce]
        exact fun call hcall => h.fresh call ((hasked _).mpr hcall)
      · simp only [hasked, hstore]
        exact (terminal_perform hterminal).mpr fun id status hsets hid =>
          h.keeps q id status hq hsets hid hterminal

section OneAtATime

inductive SubmissionStage
  | ready
  | waiting
  | won
  | lost

def submission : Protocol SubmissionQuery SubmissionQuery.Reply SubmissionStage where
  allowed a c :=
    match a, c with
    | .ready, .submit _ => True
    | .waiting, .outcome => True
    | _, _ => False
  next a c reply :=
    match c with
    | .submit _ => .waiting
    | .outcome =>
      match (reply : Except String String) with
      | .ok _ => .won
      | .error _ => .lost
    | .foresee _ => a

def SubmissionStage.ends : SubmissionStage → Except String String → Prop
  | .won, .ok _ => True
  | .lost, .error _ => True
  | _, _ => False

theorem follows_anyAdapter (call : AdapterCall) :
    (anyAdapter call).Follows (outside submission) SubmissionStage.ends .ready := by
  refine ⟨trivial, fun _ => ⟨trivial, fun result => ?_⟩⟩
  cases (result : Except String String) with
  | ok hash | error e => trivial

/-- One handler at a time is at work on the record, and a success is about to be written down or has
been. -/
structure AtMostOneSuccess (stages : List (Stage SubmissionStage)) (s : Store SubmissionLog) : Prop where
  oneAtWork : OneAtWork stages s
  success : s.chain.Succeeded →
    s.transaction.status = .confirmed ∨ ∃ (i : ℕ) (id : String), stages[i]? = some (.working id .won)
  once : s.chain.Once

variable {stages : List (Stage SubmissionStage)} {s' : Store SubmissionLog} {i : ℕ} {σ τ : Stage SubmissionStage}
  {id : String} {a : SubmissionStage}

theorem AtMostOneSuccess.not_succeeded (h : AtMostOneSuccess stages s)
    (hi : stages[i]? = some (.working id a)) (ha : a ≠ .won) : ¬ s.chain.Succeeded := by
  intro hsuccess
  rcases h.success hsuccess with hconfirmed | ⟨j, id', hj⟩
  · rcases (h.oneAtWork.subject i _ id hi rfl).2 with hstatus | hstatus
    · rw [hstatus] at hconfirmed
      cases hconfirmed
    · rw [hstatus] at hconfirmed
      cases hconfirmed
  · have hij := h.oneAtWork.alone i j _ _ id id' hi hj rfl rfl
    subst hij
    rw [hi] at hj
    cases hj
    exact ha rfl

theorem AtMostOneSuccess.carry (h : AtMostOneSuccess stages s) (hi : stages[i]? = some σ)
    (hevents : s'.chain.events = s.chain.events)
    (hstatus : s.transaction.status = .confirmed → s'.transaction.status = .confirmed)
    (hwon : ∀ id, σ = .working id .won → τ = .working id .won) (hsuccess : s'.chain.Succeeded) :
    s'.transaction.status = .confirmed ∨ ∃ (j : ℕ) (id : String), (stages.set i τ)[j]? = some (.working id .won) := by
  rw [SubmissionLog.Succeeded, hevents] at hsuccess
  rcases h.success hsuccess with hconfirmed | ⟨j, id, hj⟩
  · exact .inl (hstatus hconfirmed)
  · refine .inr ⟨j, id, ?_⟩
    by_cases hij : i = j
    · subst hij
      rw [hi] at hj
      rw [List.getElem?_set_self (List.getElem?_eq_some_iff.mp hi).1, hwon id (Option.some.inj hj)]
    · rw [List.getElem?_set_ne hij]
      exact hj

theorem AtMostOneSuccess.serve_idle (h : AtMostOneSuccess stages s) (hi : stages[i]? = some .idle)
    (hallowed : Stage.idle.mayAsk submission SubmissionStage.ends .foresee q) (hC : Orderly q s)
    (hsuccess : (perform serveSubmission q s).2.chain.Succeeded) :
    (perform serveSubmission q s).2.transaction.status = .confirmed ∨ ∃ (j : ℕ) (id : String),
      (stages.set i (Stage.idle.after submission .ready q (perform serveSubmission q s).1))[j]? =
        some (.working id .won) := by
  cases q with
  | updateTransactionStatus id status now =>
    by_cases hid : s.transaction.id = id
    · rw [perform, update_of_eq hid] at hsuccess
      -- the record was pending: nothing has succeeded
      have hfree : ¬ s.taken := by
        rw [Store.taken, hC hid]
        decide
      rcases h.success hsuccess with hconfirmed | ⟨j, id', hj⟩
      · rw [hC hid] at hconfirmed
        cases hconfirmed
      · cases h.oneAtWork.nobody hfree hj
    · rw [perform, update_of_ne hid] at hsuccess ⊢
      exact h.carry hi rfl (fun hstatus => hstatus) (fun _ heq => by cases heq) hsuccess
  | resetForRetry id forceRetry now =>
    rw [perform, update_of_ne hC] at hsuccess ⊢
    exact h.carry hi rfl (fun hstatus => hstatus) (fun _ heq => by cases heq) hsuccess
  | expire createdBefore now =>
    have hevents : (perform serveSubmission (.expire createdBefore now) s).2.chain.events =
        s.chain.events := by
      simp only [perform]
      split <;> rfl
    refine h.carry hi hevents (fun hstatus => ?_) (fun _ heq => by cases heq) hsuccess
    have hterminal : s.transaction.status.terminal := .inl hstatus
    have hsame : (perform serveSubmission (.expire createdBefore now) s).2.transaction.status =
        s.transaction.status ∨ ∃ id forceRetry now',
          (.expire createdBefore now : SubmissionQueries) = .resetForRetry id forceRetry now' :=
      status_perform_of_not_sets rfl hterminal
    rcases hsame with hkept | ⟨id, forceRetry, now', hq⟩
    · exact hkept.trans hstatus
    · cases hq
  | chain c =>
    obtain ⟨result, rfl⟩ := hallowed
    exact h.carry hi rfl (fun hstatus => hstatus) (fun _ heq => by cases heq) hsuccess
  | confirm id txHash attemptNumber now | recordError id error => cases hallowed
  | _ => exact h.carry hi rfl (fun hstatus => hstatus) (fun _ heq => by cases heq) hsuccess

theorem AtMostOneSuccess.serve_working (h : AtMostOneSuccess stages s) (hi : stages[i]? = some (.working id a))
    (hallowed : (Stage.working id a).mayAsk submission SubmissionStage.ends .foresee q)
    (hsuccess : (perform serveSubmission q s).2.chain.Succeeded) :
    (perform serveSubmission q s).2.transaction.status = .confirmed ∨ ∃ (j : ℕ) (id' : String),
      (stages.set i ((Stage.working id a).after submission .ready q
        (perform serveSubmission q s).1))[j]? = some (.working id' .won) := by
  have hid := (h.oneAtWork.subject i _ id hi rfl).1
  cases q with
  | confirm id' txHash attemptNumber now =>
    obtain ⟨rfl, -⟩ := hallowed
    rw [perform, update_of_eq hid]
    exact .inl rfl
  | recordError id' error =>
    obtain ⟨rfl, hends⟩ := hallowed
    have hlost : a ≠ .won := by
      rintro rfl
      exact hends
    rw [perform, update_of_eq hid] at hsuccess
    exact absurd hsuccess (h.not_succeeded hi hlost)
  | chain c =>
    cases c with
    | submit call =>
      have hready : a ≠ .won := by
        rintro rfl
        exact hallowed
      obtain ⟨e, he, hsuccess⟩ := hsuccess
      rcases mem_append.mp he with he | he
      · exact absurd ⟨e, he, hsuccess⟩ (h.not_succeeded hi hready)
      · rw [mem_singleton.mp he] at hsuccess
        cases hsuccess
    | outcome =>
      have hwaiting : a ≠ .won := by
        rintro rfl
        exact hallowed
      obtain ⟨e, he, hsuccess⟩ := hsuccess
      rcases mem_append.mp he with he | he
      · exact absurd ⟨e, he, hsuccess⟩ (h.not_succeeded hi hwaiting)
      · rw [mem_singleton.mp he] at hsuccess
        refine .inr ⟨i, id, ?_⟩
        rw [List.getElem?_set_self (List.getElem?_eq_some_iff.mp hi).1]
        cases hforeseen : s.chain.foreseen with
        | ok hash => simp only [perform, serveSubmission, Stage.after, submission, hforeseen]
        | error e =>
          rw [hforeseen] at hsuccess
          cases hsuccess
    | foresee result =>
      exact absurd hallowed (by cases a <;> exact fun h => h)
  | clock | sleepUntil t | findUnique id' => exact h.carry hi rfl (fun hstatus => hstatus) (fun _ hwon => hwon) hsuccess
  | _ => cases hallowed

theorem AtMostOneSuccess.start (h : AtMostOneSuccess stages s) : AtMostOneSuccess (stages ++ [.idle]) s := by
  refine ⟨h.oneAtWork.start, fun hsuccess => ?_, h.once⟩
  rcases h.success hsuccess with hconfirmed | ⟨j, id, hj⟩
  · exact .inl hconfirmed
  · refine .inr ⟨j, id, ?_⟩
    rw [List.getElem?_append_left (List.getElem?_eq_some_iff.mp hj).1]
    exact hj

theorem AtMostOneSuccess.served (h : AtMostOneSuccess stages s) (hi : stages[i]? = some σ)
    (hallowed : σ.mayAsk submission SubmissionStage.ends .foresee q) (hC : Orderly q s) :
    AtMostOneSuccess (stages.set i (σ.after submission .ready q (perform serveSubmission q s).1))
      (perform serveSubmission q s).2 := by
  refine ⟨h.oneAtWork.served hi hallowed hC, fun hsuccess => ?_, (once_perform h.once).mpr ?_⟩
  · cases σ with
    | idle => exact h.serve_idle hi hallowed hC hsuccess
    | working id a => exact h.serve_working hi hallowed hsuccess
    | stray id =>
      rcases hallowed with rfl | rfl | ⟨error, rfl⟩
      · exact h.carry hi rfl (fun hstatus => hstatus) (fun _ heq => by cases heq) hsuccess
      · exact h.carry hi rfl (fun hstatus => hstatus) (fun _ heq => by cases heq) hsuccess
      · rw [perform, update_of_ne (h.oneAtWork.stray i id hi)] at hsuccess ⊢
        exact h.carry hi rfl (fun hstatus => hstatus) (fun _ heq => by cases heq) hsuccess
    | ended =>
      obtain ⟨id, rfl⟩ := hallowed
      exact h.carry hi rfl (fun hstatus => hstatus) (fun _ heq => by cases heq) hsuccess
  · rintro call rfl
    cases σ with
    | idle =>
      obtain ⟨result, hresult⟩ := hallowed
      cases hresult
    | working id a =>
      have hready : a ≠ .won := by
        rintro rfl
        exact hallowed
      exact h.not_succeeded hi hready
    | stray id => rcases hallowed with hq | hq | ⟨error, hq⟩ <;> cases hq
    | ended =>
      obtain ⟨id, hq⟩ := hallowed
      cases hq

end OneAtATime
section Runs
variable {p p' : SubmissionSystem} {turn : Turn SubmissionOp} {tr : List SubmissionTransition}
  {s₀ : Store SubmissionLog}

theorem admitted_of_orderly {q : SubmissionQueries} (hq : p.asked turn = some q)
    (honce : (perform serveSubmission q p.store).2.chain.Once) (hbefore : p.store.chain.Once)
    (hC : Orderly q p.store) : Admitted p turn := by
  refine ⟨fun call hcall => ?_, fun q' id status hq' hsets hid hterminal => ?_⟩
  · rw [hq] at hcall
    exact (once_perform hbefore).mp honce call (Option.some.inj hcall)
  · rw [hq] at hq'
    cases hq'
    cases q with
    | updateTransactionStatus id' status' now =>
      cases hsets
      rw [SorobanTransactionStatus.terminal, hC hid] at hterminal
      exact absurd hterminal (by decide)
    | confirm id' txHash attemptNumber now =>
      cases hsets
      rw [SorobanTransactionStatus.terminal, hC hid] at hterminal
      exact absurd hterminal (by decide)
    | recordError id' error =>
      cases hsets
      rw [SorobanTransactionStatus.terminal, hC hid] at hterminal
      exact absurd hterminal (by decide)
    | _ => cases hsets

/-- Over every run: no submission is made after one has succeeded, a record that is confirmed, failed or
expired is left so but for a retry by hand, and the attempts stay within their bound, if and only if the
adapter is never called after a success and no write moves such a record. So it is in every run in which
an attempt marks the record while it is pending and writes its result while it is submitted. -/
theorem at_most_once_iff (hattempts : s₀.transaction.attemptCount ≤ s₀.transaction.maxAttempts)
    (hfresh : s₀.chain.events = []) (hrun : Run SubmissionStep { store := s₀ } tr p) :
    ((∀ t ∈ tr, AtMostOnce t) ↔ ∀ t ∈ tr, Admitted t.pre t.label) ∧
      ((∀ t ∈ tr, ∀ q, t.pre.asked t.label = some q → Orderly q t.pre.store) →
        ∀ t ∈ tr, AtMostOnce t) := by
  have hstart : s₀.chain.Once := by
    rw [SubmissionLog.Once, hfresh]
    exact List.Pairwise.nil
  have hcount : ∀ t ∈ tr,
      t.post.store.transaction.attemptCount ≤ t.post.store.transaction.maxAttempts :=
    fun t ht => attempts_run asks_anyAdapter hattempts hrun ht
  constructor
  · constructor
    · intro h t ht
      have honce : ∀ t ∈ tr, t.pre.store.chain.Once ∧ t.post.store.chain.Once := fun t ht =>
        hrun.invariant_at (I := fun p => p.store.chain.Once) (C := AtMostOnce) hstart h
          (fun t _ hlaws _ => hlaws.once) ht
      exact (atMostOnce_iff (honce t ht).1 (hcount t ht) (hrun.step_of_mem ht)).mp (h t ht)
    · intro h t ht
      have honce := hrun.invariant_at (I := fun p => p.store.chain.Once)
        (C := fun t => Admitted t.pre t.label ∧
          t.post.store.transaction.attemptCount ≤ t.post.store.transaction.maxAttempts)
        hstart (fun t ht => ⟨h t ht, hcount t ht⟩)
        (fun t hstep hc hpre => ((atMostOnce_iff hpre hc.2 hstep).mpr hc.1).once) ht
      exact (atMostOnce_iff honce.1 (hcount t ht) (hrun.step_of_mem ht)).mpr (h t ht)
  · intro hC t ht
    have hidle : AtMostOneSuccess [] s₀ := by
      refine ⟨OneAtWork.idle, ?_, hstart⟩
      rintro ⟨e, he, -⟩
      rw [hfresh] at he
      cases he
    have hstaged := Pool.Staged.run (follows_body follows_anyAdapter)
      (fun stages s hJ => hJ.start) (fun stages s i σ q hJ hi hallowed hC => hJ.served hi hallowed hC)
      hrun (Pool.Staged.idle hidle) hC ht
    obtain ⟨⟨before, -, hbefore⟩, ⟨after, -, hafter⟩⟩ := hstaged
    have hstep := hrun.step_of_mem ht
    refine (atMostOnce_iff hbefore.once (hcount t ht) hstep).mpr ?_
    rcases hstep.store with ⟨hnone, -⟩ | ⟨q, hq, hstore⟩
    · exact admitted_of_none hnone
    · exact admitted_of_orderly hq (hstore ▸ hafter.once) hbefore.once (hC t ht q hq)

end Runs

def sampleParams : CreateSorobanTransactionParams String where
  claimId := some "claim"
  operation := .disburseClaim
  packageId := some "7"

/-- The record as `createTransaction` leaves it. -/
def sampleRecord : TrackedTransaction where
  toSorobanTransaction := sampleParams.row 0
  id := "tx"
  updatedAt := 0

def sampleStore : Store SubmissionLog where
  now := 0
  transaction := sampleRecord
  chain := {}

/-- The new record has its job, the scheduler adds another one, and two workers read the record before
either marks it. The first has its submission succeed, and the second submits. -/
def bothSubmit : List (Turn SubmissionOp) :=
  [.start (.scheduleTransaction "tx"), .advance 0,
    .start .scheduleRetryableTransactions, .advance 1, .advance 1, .advance 1,
    .start (.process 0 0), .start (.process 0 0), .advance 2, .advance 3, .advance 2, .advance 3,
    .start (.chain (.ok "hash")), .advance 4, .advance 2, .advance 2, .advance 2, .advance 2,
    .advance 3, .advance 3, .advance 3]

def played (turns : List (Turn SubmissionOp)) : List SubmissionTransition × SubmissionSystem :=
  play (Pool.take (perform serveSubmission) (LifecycleOp.body anyAdapter .foresee))
    { store := sampleStore } turns

theorem played_run (turns : List (Turn SubmissionOp)) :
    Run SubmissionStep { store := sampleStore } (played turns).1 (played turns).2 :=
  play_run (fun _ _ _ h => h) turns _

theorem at_most_once_first : (∀ t ∈ (played (bothSubmit.take 18)).1, AtMostOnce t) ↔
      ∀ t ∈ (played (bothSubmit.take 18)).1, Admitted t.pre t.label :=
  (at_most_once_iff (by decide) rfl (played_run _)).1

theorem bothSubmit_events : (played bothSubmit).1.getLast?.map
      (fun t => t.post.store.chain.events.map fun e => (e.isMade, e.isSuccess)) =
        some [(true, false), (false, true), (true, false)] := by
  decide +kernel

theorem bothSubmit_twice : ¬ ∀ t ∈ (played bothSubmit).1, AtMostOnce t := by
  intro h
  cases hlast : (played bothSubmit).1.getLast? with
  | none =>
    have hevents := bothSubmit_events
    rw [hlast] at hevents
    cases hevents
  | some t =>
    have hevents := bothSubmit_events
    rw [hlast, Option.map_some, Option.some.injEq] at hevents
    have honce := (h t (mem_of_getLast? hlast)).once
    rw [SubmissionLog.Once] at honce
    obtain ⟨a, b, c, hlist⟩ : ∃ a b c, t.post.store.chain.events = [a, b, c] :=
      length_eq_three.mp (by simpa using congrArg length hevents)
    rw [hlist] at hevents honce
    simp only [map_cons, map_nil, cons.injEq, Prod.mk.injEq, and_true] at hevents
    obtain ⟨-, ⟨-, hb⟩, hc, -⟩ := hevents
    have hnot := (pairwise_cons.mp (pairwise_cons.mp honce).2).1 c
      (mem_singleton_self c) hb
    rw [hc] at hnot
    cases hnot

end Soter.Soroban
