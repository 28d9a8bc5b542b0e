import Mathlib.Data.List.Forall2
import Soter.Lib.Rely

/-! One system of handlers seen as another. Some requests of the first are requests of the second;
the rest leave alone everything that the second one sees. -/
namespace Soter.Tasks
open Soter.Runs

variable {R R' S S' ε ε' α β Op Op' : Type} {Reply : R → Type} {Reply' : R' → Type}

section Shows
variable (see : (r : R) → Option ((r' : R') × (Reply r → Reply' r')))

/-- What is left of a handler is what is left of another one and requests that are not seen. -/
def Task.Shows : Task R Reply ε α → Task R' Reply' ε α → Prop
  | .done result, t' => t' = .done result
  | .ask r next, t' =>
    match see r with
    | none => ∀ reply, (next reply).Shows t'
    | some seen => ∃ next', t' = .ask seen.1 next' ∧ ∀ reply, (next reply).Shows (next' (seen.2 reply))

variable {see} {t' : Task R' Reply' ε α} {r : R}

variable {next : Reply r → Task R Reply ε α}

theorem Task.shows_unseen (hsee : see r = none) : (Task.ask r next).Shows see t' ↔ ∀ reply, (next reply).Shows see t' := by
  simp only [Task.Shows, hsee]

theorem Task.shows_seen {seen : (r' : R') × (Reply r → Reply' r')} (hsee : see r = some seen) :
    (Task.ask r next).Shows see t' ↔
      ∃ next', t' = .ask seen.1 next' ∧ ∀ reply, (next reply).Shows see (next' (seen.2 reply)) := by
  simp only [Task.Shows, hsee]

theorem Task.shows_done (result : Except ε α) : (Task.done result : Task R Reply ε α).Shows see (Task.done result) := rfl

theorem Task.Shows.bind {f : α → Task R Reply ε β} {f' : α → Task R' Reply' ε β}
    (hf : ∀ a, (f a).Shows see (f' a)) : ∀ {t : Task R Reply ε α} {t' : Task R' Reply' ε α},
      t.Shows see t' → (t.bind f).Shows see (t'.bind f')
  | .done (.ok a), _, rfl => hf a
  | .done (.error _), _, rfl => rfl
  | .ask r next, t', h => by
    cases hsee : see r with
    | none =>
      refine (Task.shows_unseen hsee).mpr fun reply => ?_
      exact Task.Shows.bind hf ((Task.shows_unseen hsee).mp h reply)
    | some seen =>
      obtain ⟨next', rfl, hnext⟩ := (Task.shows_seen hsee).mp h
      exact (Task.shows_seen hsee).mpr ⟨_, rfl, fun reply => Task.Shows.bind hf (hnext reply)⟩

theorem Task.Asks.shows_bind {f : Except ε' α → Task R Reply ε β} {u : Task R' Reply' ε β}
    (hf : ∀ result, (f result).Shows see u) : ∀ {t : Task R Reply ε' α},
      t.Asks (see · = none) → (t.attempt.bind f).Shows see u
  | .done result, _ => hf result
  | .ask _ _, h => (Task.shows_unseen h.1).mpr fun reply => Task.Asks.shows_bind hf (h.2 reply)

end Shows

section Pool
variable (see : (r : R) → Option ((r' : R') × (Reply r → Reply' r'))) (view : S → S')
  (opView : Op → Op') (perform : (r : R) → S → Reply r × S)
  (perform' : (r' : R') → S' → Reply' r' × S')

/-- What is seen of a request is served as the other system serves it. -/
def ServesAlike : Prop :=
  ∀ r s, match see r with
    | none => view (perform r s).2 = view s
    | some seen =>
      perform' seen.1 (view s) = (seen.2 (perform r s).1, view (perform r s).2)

def ThreadShows (thread : Op × Task R Reply ε α) (thread' : Op' × Task R' Reply' ε α) : Prop :=
  thread'.1 = opView thread.1 ∧ thread.2.Shows see thread'.2

structure Pool.Shows (p : Pool S R Reply ε α Op) (p' : Pool S' R' Reply' ε α Op') : Prop where
  store : p'.store = view p.store
  threads : List.Forall₂ (ThreadShows see opView) p.threads p'.threads

variable {see view opView perform perform'} {body : Op → Task R Reply ε α}
  {body' : Op' → Task R' Reply' ε α} {p q : Pool S R Reply ε α Op} {p' : Pool S' R' Reply' ε α Op'}

variable {A B : Type} {rel : A → B → Prop} {a : A} {b : B}

theorem forall₂_set (hab : rel a b) : ∀ {as : List A} {bs : List B} (i : ℕ), List.Forall₂ rel as bs →
      List.Forall₂ rel (as.set i a) (bs.set i b)
  | _, _, _, .nil => .nil
  | _, _, 0, .cons _ hrest => .cons hab hrest
  | _, _, i + 1, .cons hhead hrest => .cons hhead (forall₂_set hab i hrest)

theorem forall₂_set_left (hab : rel a b) : ∀ {as : List A} {bs : List B} (i : ℕ), List.Forall₂ rel as bs → bs[i]? = some b →
      List.Forall₂ rel (as.set i a) bs
  | _, _, _, .nil, _ => .nil
  | _, _, 0, .cons _ hrest, hb => by
    simp only [List.getElem?_cons_zero, Option.some.injEq] at hb
    subst hb
    exact .cons hab hrest
  | _, _, i + 1, .cons hhead hrest, hb => by
    simp only [List.getElem?_cons_succ] at hb
    exact .cons hhead (forall₂_set_left hab i hrest hb)

theorem forall₂_getElem? : ∀ {as : List A} {bs : List B} {i : ℕ}, List.Forall₂ rel as bs → as[i]? = some a →
      ∃ b, bs[i]? = some b ∧ rel a b
  | _, _, 0, .cons hhead _, ha => by
    simp only [List.getElem?_cons_zero, Option.some.injEq] at ha
    subst ha
    exact ⟨_, rfl, hhead⟩
  | _, _, i + 1, .cons _ hrest, ha => by
    simp only [List.getElem?_cons_succ] at ha ⊢
    exact forall₂_getElem? hrest ha

/-- A step of the one system is a step of the other or is not seen at all. -/
theorem Pool.Shows.step (hserve : ServesAlike see view perform perform')
    (hbody : ∀ op, (body op).Shows see (body' (opView op))) (h : p.Shows see view opView p')
    {turn : Turn Op} (hstep : p.Step perform body turn q) : ∃ q', q.Shows see view opView q' ∧
      (q' = p' ∨ ∃ turn', p'.Step perform' body' turn' q') := by
  cases turn with
  | start op =>
    cases hstep
    refine ⟨{ p' with threads := p'.threads ++ [(opView op, body' (opView op))] },
      ⟨h.store, ?_⟩, .inr ⟨.start (opView op), rfl⟩⟩
    have hnew : ThreadShows see opView (op, body op) (opView op, body' (opView op)) :=
      ⟨rfl, hbody op⟩
    exact List.rel_append h.threads (.cons hnew .nil)
  | advance i =>
    simp only [Pool.Step, Pool.take] at hstep
    split at hstep
    · rename_i op r next hi
      cases hstep
      obtain ⟨⟨op', t'⟩, hi', hop, hshows⟩ := forall₂_getElem? h.threads hi
      have hserved := hserve r p.store
      cases hsee : see r with
      | none =>
        rw [hsee] at hserved
        have hnext := (Task.shows_unseen hsee).mp hshows (perform r p.store).1
        refine ⟨p', ⟨h.store.trans hserved.symm, ?_⟩, .inl rfl⟩
        exact forall₂_set_left ⟨hop, hnext⟩ i h.threads hi'
      | some seen =>
        rw [hsee] at hserved
        obtain ⟨next', hask, hnext⟩ := (Task.shows_seen hsee).mp hshows
        have hstored : perform' seen.1 p'.store = (seen.2 (perform r p.store).1, view (perform r p.store).2) := by
          rw [h.store]
          exact hserved
        refine ⟨{ store := view (perform r p.store).2
                  threads := p'.threads.set i (op', next' (seen.2 (perform r p.store).1)) },
          ⟨rfl, forall₂_set ⟨hop, hnext _⟩ i h.threads⟩, .inr ⟨.advance i, ?_⟩⟩
        simp only at hask
        simp only [Pool.Step, Pool.take, hi', hask, hstored]
    · cases hstep

theorem Pool.Shows.run (hserve : ServesAlike see view perform perform')
    (hbody : ∀ op, (body op).Shows see (body' (opView op)))
    {tr : List (Transition (Pool S R Reply ε α Op) (Turn Op))} (h : p.Shows see view opView p')
    (hrun : Run (Pool.Step perform body) p tr q) :
    ∃ tr' q', Run (Pool.Step perform' body') p' tr' q' ∧ q.Shows see view opView q' := by
  induction hrun with
  | nil => exact ⟨[], p', .nil, h⟩
  | snoc _ hstep ih =>
    obtain ⟨tr', q', hrun', hshows⟩ := ih
    obtain ⟨q'', hshows', hq''⟩ := hshows.step hserve hbody hstep
    rcases hq'' with rfl | ⟨turn', hstep'⟩
    · exact ⟨tr', q'', hrun', hshows'⟩
    · exact ⟨_, q'', hrun'.snoc hstep', hshows'⟩

end Pool
end Soter.Tasks
