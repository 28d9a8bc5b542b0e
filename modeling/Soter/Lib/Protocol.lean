import Mathlib.Data.List.Forall2
import Soter.Lib.Rely

/-! Protocols of handlers: the stages that a handler goes through, what it may ask at each of them,
and what the stages of all the handlers tell about the store that they share. -/
namespace Soter.Tasks
open Soter.Runs

variable {R ε ε' α β S Op Stage : Type} {Reply : R → Type}

/-- What may be asked at a stage, and the stage that the reply leads to. -/
structure Protocol (R : Type) (Reply : R → Type) (Stage : Type) where
  allowed : Stage → R → Prop
  next : Stage → (r : R) → Reply r → Stage

variable {P : Protocol R Reply Stage}
section Follows
variable {σ : Stage}

/-- The handler keeps to the protocol from stage `σ` on, whatever it is told, and ends with `post`. -/
def Task.Follows (P : Protocol R Reply Stage) (post : Stage → Except ε α → Prop) :
    Stage → Task R Reply ε α → Prop
  | σ, .done result => post σ result
  | σ, .ask r next => P.allowed σ r ∧ ∀ reply, (next reply).Follows P post (P.next σ r reply)

theorem Task.Follows.mono {post post' : Stage → Except ε α → Prop} (hpost : ∀ σ result, post σ result → post' σ result) :
    ∀ {t : Task R Reply ε α} {σ : Stage}, t.Follows P post σ → t.Follows P post' σ
  | .done result, σ, h => hpost σ result h
  | .ask _ _, _, h => ⟨h.1, fun reply => Task.Follows.mono hpost (h.2 reply)⟩

theorem Task.follows_ite {c : Prop} [Decidable c] {t t' : Task R Reply ε α}
    {post : Stage → Except ε α → Prop} (h : c → t.Follows P post σ) (h' : ¬ c → t'.Follows P post σ) :
    (if c then t else t').Follows P post σ := by
  split
  · exact h ‹_›
  · exact h' ‹_›

theorem Task.Follows.bind {post : Stage → Except ε α → Prop} {post' : Stage → Except ε β → Prop}
    {f : α → Task R Reply ε β} (hok : ∀ σ a, post σ (.ok a) → (f a).Follows P post' σ)
    (herror : ∀ σ e, post σ (.error e) → post' σ (.error e)) :
    ∀ {t : Task R Reply ε α} {σ : Stage}, t.Follows P post σ → (t.bind f).Follows P post' σ
  | .done (.ok a), σ, h => hok σ a h
  | .done (.error e), σ, h => herror σ e h
  | .ask _ _, _, h => ⟨h.1, fun reply => Task.Follows.bind hok herror (h.2 reply)⟩

theorem Task.Follows.bind_done {f : α → β} {t : Task R Reply ε α} (h : t.Follows P (fun _ _ => True) σ) :
    (t.bind fun a => .done (.ok (f a))).Follows P (fun _ _ => True) σ := by
  refine Task.Follows.bind (fun σ a _ => ?_) (fun _ _ _ => trivial) h
  trivial

theorem Task.Follows.attempt {post : Stage → Except ε α → Prop} : ∀ {t : Task R Reply ε α} {σ : Stage}, t.Follows P post σ →
      (t.attempt : Task R Reply ε' (Except ε α)).Follows P (fun σ result => ∃ caught, result = .ok caught ∧ post σ caught) σ
  | .done result, _, h => ⟨result, rfl, h⟩
  | .ask _ _, _, h => ⟨h.1, fun reply => Task.Follows.attempt (h.2 reply)⟩

theorem Task.Follows.lift {R' : Type} {Reply' : R' → Type} {P' : Protocol R' Reply' Stage}
    {emb : R → R'} {back : ∀ r, Reply' (emb r) → Reply r} {post : Stage → Except ε α → Prop}
    (hallowed : ∀ σ r, P.allowed σ r → P'.allowed σ (emb r))
    (hnext : ∀ σ r reply, P.allowed σ r → P'.next σ (emb r) reply = P.next σ r (back r reply)) :
    ∀ {t : Task R Reply ε α} {σ : Stage}, t.Follows P post σ → (t.lift emb back).Follows P' post σ
  | .done _, _, h => h
  | .ask r next, σ, h => by
    refine ⟨hallowed σ r h.1, fun reply => ?_⟩
    rw [hnext σ r reply h.1]
    exact Task.Follows.lift hallowed hnext (h.2 _)

theorem Task.Follows.asks {A : R → Prop} {post : Stage → Except ε α → Prop}
    (hA : ∀ σ r, P.allowed σ r → A r) : ∀ {t : Task R Reply ε α} {σ : Stage}, t.Follows P post σ → t.Asks A
  | .done _, _, _ => trivial
  | .ask r _, _, h => ⟨hA _ r h.1, fun reply => Task.Follows.asks hA (h.2 reply)⟩

/-- Whatever a handler is told, its result meets `post`. -/
def Task.Gives (post : Except ε α → Prop) : Task R Reply ε α → Prop
  | .done result => post result
  | .ask _ next => ∀ reply, (next reply).Gives post

theorem Task.Follows.gives {post : Stage → Except ε α → Prop} {post' : Except ε α → Prop}
    (hpost : ∀ σ result, post σ result → post' result) :
    ∀ {t : Task R Reply ε α} {σ : Stage}, t.Follows P post σ → t.Gives post'
  | .done result, σ, h => hpost σ result h
  | .ask _ _, _, h => fun reply => Task.Follows.gives hpost (h.2 reply)

/-- A protocol inside another one: `f` places the stages of the inner one among those of the outer. -/
theorem Task.Follows.embed {Inner : Type} {Q : Protocol R Reply Inner} {f : Inner → Stage}
    {post : Inner → Except ε α → Prop} (hallowed : ∀ a r, Q.allowed a r → P.allowed (f a) r)
    (hnext : ∀ a r reply, Q.allowed a r → P.next (f a) r reply = f (Q.next a r reply)) :
    ∀ {t : Task R Reply ε α} {a : Inner}, t.Follows Q post a →
      t.Follows P (fun σ result => ∃ a', σ = f a' ∧ post a' result) (f a)
  | .done _, a, h => ⟨a, rfl, h⟩
  | .ask r next, a, h => by
    refine ⟨hallowed a r h.1, fun reply => ?_⟩
    rw [hnext a r reply h.1]
    exact Task.Follows.embed hallowed hnext (h.2 reply)

/-- A handler that only asks what is allowed at `σ` and leads nowhere else stays there. -/
theorem Task.Asks.follows {A : R → Prop} (hallowed : ∀ r, A r → P.allowed σ r)
    (hstay : ∀ r reply, A r → P.next σ r reply = σ) :
    ∀ {t : Task R Reply ε α}, t.Asks A → t.Follows P (fun σ' _ => σ' = σ) σ
  | .done _, _ => rfl
  | .ask r next, h => by
    refine ⟨hallowed r h.1, fun reply => ?_⟩
    rw [hstay r reply h.1]
    exact Task.Asks.follows hallowed hstay (h.2 reply)

end Follows

section Staged
variable {perform : (r : R) → S → Reply r × S} {body : Op → Task R Reply ε α} {start : Stage} {J : List Stage → S → Prop}
  {C : R → S → Prop} {p p' : Pool S R Reply ε α Op} {stages : List Stage} {post : Stage → Except ε α → Prop}
  {turn : Turn Op}

def Pool.At (P : Protocol R Reply Stage) (post : Stage → Except ε α → Prop)
    (p : Pool S R Reply ε α Op) (stages : List Stage) : Prop :=
  List.Forall₂ (fun thread σ => thread.2.Follows P post σ) p.threads stages

theorem Pool.At.thread (h : p.At P post stages) {i : ℕ} {thread : Op × Task R Reply ε α}
    (hi : p.threads[i]? = some thread) : ∃ σ, stages[i]? = some σ ∧ thread.2.Follows P post σ := by
  obtain ⟨hlt, hthread⟩ := List.getElem?_eq_some_iff.mp hi
  have hlen : i < stages.length := h.length_eq ▸ hlt
  have hfollows := h.get hlt hlen
  simp only [List.get_eq_getElem, hthread] at hfollows
  exact ⟨stages[i], List.getElem?_eq_getElem hlen, hfollows⟩

theorem Pool.At.stage (h : p.At P post stages) {i : ℕ} {σ : Stage} (hi : stages[i]? = some σ) :
    ∃ thread, p.threads[i]? = some thread ∧ thread.2.Follows P post σ := by
  obtain ⟨hlt, hσ⟩ := List.getElem?_eq_some_iff.mp hi
  have hlen : i < p.threads.length := h.length_eq ▸ hlt
  have hfollows := h.get hlen hlt
  simp only [List.get_eq_getElem, hσ] at hfollows
  exact ⟨p.threads[i], List.getElem?_eq_getElem hlen, hfollows⟩

theorem Pool.At.set (h : p.At P post stages) (i : ℕ) {thread : Op × Task R Reply ε α} {σ : Stage}
    (hthread : thread.2.Follows P post σ) (s : S) :
    ({ store := s, threads := p.threads.set i thread } : Pool S R Reply ε α Op).At P post (stages.set i σ) := by
  apply List.forall₂_iff_get.mpr
  refine ⟨by simpa using h.length_eq, fun j hj hj' => ?_⟩
  simp only [List.get_eq_getElem, List.getElem_set]
  by_cases hij : i = j
  · rw [if_pos hij, if_pos hij]
    exact hthread
  · rw [if_neg hij, if_neg hij]
    rw [List.length_set] at hj hj'
    exact h.get hj hj'

theorem Pool.At.step (hbody : ∀ op, (body op).Follows P post start) (h : p.At P post stages)
    (hstep : p.Step perform body turn p') :
    (p.asked turn = none ∧ p'.store = p.store ∧ p'.At P post (stages ++ [start])) ∨
      ∃ (i : ℕ) (σ : Stage) (r : R), turn = .advance i ∧ p.asked turn = some r ∧ stages[i]? = some σ ∧
        P.allowed σ r ∧ p'.store = (perform r p.store).2 ∧
        p'.At P post (stages.set i (P.next σ r (perform r p.store).1)) := by
  rcases hstep.cases with ⟨op, rfl, rfl⟩ | ⟨i, op, r, next, rfl, hi, hr, rfl⟩
  · refine .inl ⟨rfl, rfl, List.rel_append h ?_⟩
    exact List.Forall₂.cons (hbody op) List.Forall₂.nil
  · obtain ⟨σ, hσ, hfollows⟩ := h.thread hi
    refine .inr ⟨i, σ, r, rfl, Pool.asked_of_request hr, hσ, hfollows.1, rfl, ?_⟩
    exact h.set i (hfollows.2 _) _

/-- Every handler follows the protocol from a stage of its own, and `J` relates the stages to the
store. -/
def Pool.Staged (P : Protocol R Reply Stage) (J : List Stage → S → Prop)
    (p : Pool S R Reply ε α Op) : Prop :=
  ∃ stages, List.Forall₂ (fun thread σ => thread.2.Follows P (fun _ _ => True) σ) p.threads stages ∧
    J stages p.store

theorem Pool.Staged.request (h : p.Staged P J) {r : R} (hr : p.asked turn = some r) :
    ∃ (stages : List Stage) (i : ℕ) (σ : Stage), stages[i]? = some σ ∧ P.allowed σ r ∧ J stages p.store := by
  obtain ⟨stages, hthreads, hJ⟩ := h
  obtain ⟨op, hrequest⟩ := Pool.request_of_asked hr
  obtain ⟨i, next, -, hi⟩ := Pool.request_eq_some hrequest
  obtain ⟨σ, hσ, hfollows⟩ := Pool.At.thread hthreads hi
  exact ⟨stages, i, σ, hσ, hfollows.1, hJ⟩

theorem Pool.Staged.step (hbody : ∀ op, (body op).Follows P (fun _ _ => True) start)
    (hstart : ∀ stages s, J stages s → J (stages ++ [start]) s)
    (hserve : ∀ stages s i σ r, J stages s → stages[i]? = some σ → P.allowed σ r → C r s →
      J (stages.set i (P.next σ r (perform r s).1)) (perform r s).2)
    (h : p.Staged P J) (hstep : p.Step perform body turn p')
    (hC : ∀ r, p.asked turn = some r → C r p.store) : p'.Staged P J := by
  obtain ⟨stages, hthreads, hJ⟩ := h
  rcases Pool.At.step hbody hthreads hstep with
    ⟨-, hstore, hat⟩ | ⟨i, σ, r, -, hr, hσ, hallowed, hstore, hat⟩
  · exact ⟨stages ++ [start], hat, hstore ▸ hstart stages p.store hJ⟩
  · refine ⟨_, hat, ?_⟩
    rw [hstore]
    exact hserve stages p.store i σ r hJ hσ hallowed (hC r hr)

theorem Pool.Staged.idle {s : S} (h : J [] s) :
    Pool.Staged P J ({ store := s } : Pool S R Reply ε α Op) :=
  ⟨[], List.Forall₂.nil, h⟩

/-- In a run whose requests all meet `C`, the stages tell about the store in every state. -/
theorem Pool.Staged.run (hbody : ∀ op, (body op).Follows P (fun _ _ => True) start)
    (hstart : ∀ stages s, J stages s → J (stages ++ [start]) s)
    (hserve : ∀ stages s i σ r, J stages s → stages[i]? = some σ → P.allowed σ r → C r s →
      J (stages.set i (P.next σ r (perform r s).1)) (perform r s).2)
    {tr : List (Transition (Pool S R Reply ε α Op) (Turn Op))}
    (hrun : Run (Pool.Step perform body) p tr p') (h : p.Staged P J)
    (hC : ∀ t ∈ tr, ∀ r, t.pre.asked t.label = some r → C r t.pre.store)
    {t : Transition (Pool S R Reply ε α Op) (Turn Op)} (ht : t ∈ tr) : t.pre.Staged P J ∧ t.post.Staged P J :=
  hrun.invariant_at h hC (fun _ hstep hc hpre => hpre.step hbody hstart hserve hstep hc) ht

end Staged
end Soter.Tasks
