import Soter.Lib.Run

/-! Handlers that share a store. A handler is cut at its requests to the store: each request is
served at once, and between two of them any other handler may have its turn. -/
namespace Soter.Tasks
open Soter.Runs

variable {R R' ε ε' α β S Op : Type} {Reply : R → Type} {Reply' : R' → Type}

/-- What is left of a handler: its result, or the next request and what follows the reply. -/
inductive Task (R : Type) (Reply : R → Type) (ε α : Type)
  | done (result : Except ε α)
  | ask (r : R) (next : Reply r → Task R Reply ε α)

def Task.bind : Task R Reply ε α → (α → Task R Reply ε β) → Task R Reply ε β
  | .done (.ok a), f => f a
  | .done (.error e), _ => .done (.error e)
  | .ask r next, f => .ask r fun reply => (next reply).bind f

instance : Monad (Task R Reply ε) where
  pure a := .done (.ok a)
  bind := Task.bind

variable {tx : Except ε (α × S)} {s : S}

theorem Task.bind_eq (t : Task R Reply ε α) (f : α → Task R Reply ε β) : t >>= f = t.bind f := rfl

theorem Task.done_ok_bind (a : α) (f : α → Task R Reply ε β) : (Task.done (.ok a) : Task R Reply ε α).bind f = f a := rfl

theorem Task.done_error_bind (e : ε) (f : α → Task R Reply ε β) :
    (Task.done (.error e) : Task R Reply ε α).bind f = .done (.error e) := rfl

def Task.attempt : Task R Reply ε α → Task R Reply ε' (Except ε α)
  | .done result => .done (.ok result)
  | .ask r next => .ask r fun reply => (next reply).attempt

def Task.lift (emb : R → R') (back : ∀ r, Reply' (emb r) → Reply r) :
    Task R Reply ε α → Task R' Reply' ε α
  | .done result => .done result
  | .ask r next => .ask (emb r) fun reply => (next (back r reply)).lift emb back

/-- The serving of one request: a failed transaction is rolled back. -/
def commit (tx : Except ε (α × S)) (s : S) : Except ε α × S :=
  match tx with
  | .ok (a, s') => (.ok a, s')
  | .error e => (.error e, s)

theorem commit_ok {s' : S} {a : α} (h : tx = .ok (a, s')) : commit tx s = (.ok a, s') := by
  rw [h]
  rfl

theorem commit_cases (tx : Except ε (α × S)) (s : S) : (∃ e, tx = .error e ∧ commit tx s = (.error e, s)) ∨
      ∃ a s', tx = .ok (a, s') ∧ commit tx s = (.ok a, s') := by
  cases tx with
  | error e => exact .inl ⟨e, rfl, rfl⟩
  | ok res => exact .inr ⟨res.1, res.2, rfl, rfl⟩

theorem commit_keeps {P : S → Prop} (hs : P s) (htx : ∀ a s', tx = .ok (a, s') → P s') : P (commit tx s).2 := by
  -- a rolled back transaction leaves the store it started from
  cases h : tx with
  | error e => exact hs
  | ok res => exact htx res.1 res.2 h

/-- A handler that runs from `s` to its end with nobody else having a turn. -/
def Task.alone (perform : (r : R) → S → Reply r × S) : Task R Reply ε α → S → Except ε α × S
  | .done result, s => (result, s)
  | .ask r next, s => (next (perform r s).1).alone perform (perform r s).2

section Answers
variable (answer : (r : R) → Reply r)

/-- What a handler comes to when every request has a fixed answer. -/
def Task.outcome : Task R Reply ε α → Except ε α
  | .done result => result
  | .ask r next => (next (answer r)).outcome

/-- The requests that it makes then. -/
def Task.trace : Task R Reply ε α → List R
  | .done _ => []
  | .ask r next => r :: (next (answer r)).trace

variable {answer}

theorem Task.outcome_bind (t : Task R Reply ε α) (f : α → Task R Reply ε β) :
    (t.bind f).outcome answer = t.outcome answer >>= fun a => (f a).outcome answer := by
  induction t with
  | done result => cases result <;> rfl
  | ask r next ih => exact ih _

theorem Task.trace_bind (t : Task R Reply ε α) (f : α → Task R Reply ε β) : (t.bind f).trace answer =
    t.trace answer ++ (match t.outcome answer with | .ok a => (f a).trace answer | .error _ => []) := by
  induction t with
  | done result => cases result <;> rfl
  | ask r next ih => exact congrArg (r :: ·) (ih _)

theorem Task.outcome_attempt (t : Task R Reply ε α) :
    (t.attempt : Task R Reply ε' (Except ε α)).outcome answer = .ok (t.outcome answer) := by
  induction t with
  | done result => rfl
  | ask r next ih => exact ih _

end Answers

/-- The store and the handlers started so far, each with the call it serves. -/
structure Pool (S R : Type) (Reply : R → Type) (ε α Op : Type) where
  store : S
  threads : List (Op × Task R Reply ε α) := []

/-- Whose turn it is: a new call comes in, or a started handler goes on to its next request. -/
inductive Turn (Op : Type)
  | start (op : Op)
  | advance (thread : ℕ)

def Turn.thread : Turn Op → Option ℕ
  | .start _ => none
  | .advance i => some i

/-- The request that is served at a turn. -/
def Pool.asked (p : Pool S R Reply ε α Op) : Turn Op → Option R
  | .start _ => none
  | .advance i =>
    match p.threads[i]? with
    | some (_, .ask r _) => some r
    | _ => none

variable (perform : (r : R) → S → Reply r × S) (body : Op → Task R Reply ε α)

def Pool.take (p : Pool S R Reply ε α Op) : Turn Op → Option (Pool S R Reply ε α Op)
  | .start op => some { p with threads := p.threads ++ [(op, body op)] }
  | .advance i =>
    match p.threads[i]? with
    | some (op, .ask r next) => some
        { store := (perform r p.store).2
          threads := p.threads.set i (op, next (perform r p.store).1) }
    | _ => none

def Pool.Step (p : Pool S R Reply ε α Op) (turn : Turn Op) (p' : Pool S R Reply ε α Op) : Prop :=
  p.take perform body turn = some p'

variable {perform body} {p p' : Pool S R Reply ε α Op} {turn : Turn Op}

theorem Pool.Step.store (h : p.Step perform body turn p') : (p.asked turn = none ∧ p'.store = p.store) ∨
      ∃ r, p.asked turn = some r ∧ p'.store = (perform r p.store).2 := by
  cases turn with
  | start op =>
    cases h
    exact .inl ⟨rfl, rfl⟩
  | advance i =>
    simp only [Pool.Step, Pool.take] at h
    simp only [Pool.asked]
    rcases Option.eq_none_or_eq_some p.threads[i]? with hi | ⟨⟨op, rest⟩, hi⟩
    · rw [hi] at h
      cases h
    rw [hi] at h ⊢
    cases rest with
    | done result => cases h
    | ask r next =>
      cases h
      exact .inr ⟨r, rfl, rfl⟩

theorem Pool.Step.store_of_asked {r : R} (h : p.Step perform body turn p')
    (hr : p.asked turn = some r) : p'.store = (perform r p.store).2 := by
  rcases h.store with ⟨hnone, -⟩ | ⟨r', hr', hstore⟩
  · rw [hr] at hnone
    cases hnone
  · rw [hr] at hr'
    cases hr'
    exact hstore

/-- What every request keeps while it meets `C` is kept by a run whose requests all meet `C`. -/
theorem Pool.run_invariant {I : S → Prop} {C : R → S → Prop} {tr : List (Transition (Pool S R Reply ε α Op) (Turn Op))}
    (hrun : Run (Pool.Step perform body) p tr p') (hI : I p.store)
    (hC : ∀ t ∈ tr, ∀ r, t.pre.asked t.label = some r → C r t.pre.store)
    (hkeep : ∀ r s, C r s → I s → I (perform r s).2) : I p'.store := by
  refine hrun.invariant (I := fun p => I p.store) hI hC fun t hstep hc hpre => ?_
  rcases hstep.store with ⟨-, hstore⟩ | ⟨r, hr, hstore⟩
  · rw [hstore]
    exact hpre
  · rw [hstore]
    exact hkeep r _ (hc r hr) hpre

end Soter.Tasks
