import Soter.Lib.Protocol

/-! What a handler has come to: what the stores that served its requests made of it. -/
namespace Soter.Tasks
open Soter.Runs

variable {R ε α S Op : Type} {Reply : R → Type}

/-- What is left of a handler after its next requests are served by these stores. -/
def Task.resume (perform : (r : R) → S → Reply r × S) : Task R Reply ε α → List S → Task R Reply ε α
  | t, [] => t
  | .done result, _ :: _ => .done result
  | .ask r next, s :: ss => (next (perform r s).1).resume perform ss

/-- The stores that serve the requests of the handler in place `i`. -/
def served (i : ℕ) (tr : List (Transition (Pool S R Reply ε α Op) (Turn Op))) : List S :=
  (tr.filter (·.label.thread = some i)).map (·.pre.store)

variable {perform : (r : R) → S → Reply r × S} {body : Op → Task R Reply ε α}
  {p p' : Pool S R Reply ε α Op} {tr : List (Transition (Pool S R Reply ε α Op) (Turn Op))} {i : ℕ}

theorem Task.resume_nil (t : Task R Reply ε α) : t.resume perform [] = t := by
  cases t <;> rfl

theorem Task.resume_done (result : Except ε α) (ss : List S) :
    (Task.done result : Task R Reply ε α).resume perform ss = .done result := by
  cases ss <;> rfl

theorem Task.resume_append (ss' : List S) : ∀ (t : Task R Reply ε α) (ss : List S),
    t.resume perform (ss ++ ss') = (t.resume perform ss).resume perform ss'
  | t, [] => by rw [List.nil_append, Task.resume_nil]
  | .done result, _ :: ss => by
    rw [List.cons_append, Task.resume_done, Task.resume_done, Task.resume_done]
  | .ask r next, s :: ss => Task.resume_append ss' (next (perform r s).1) ss

theorem mem_served {s : S} (h : s ∈ served i tr) : ∃ t ∈ tr, t.label = .advance i ∧ t.pre.store = s := by
  obtain ⟨t, ht, rfl⟩ := List.mem_map.mp h
  obtain ⟨ht, hi⟩ := List.mem_filter.mp ht
  refine ⟨t, ht, ?_, rfl⟩
  cases hlabel : t.label with
  | start op =>
    rw [hlabel] at hi
    cases hi
  | advance j =>
    rw [hlabel] at hi
    rw [Option.some.inj (of_decide_eq_true hi)]

/-- In a run, a handler goes on with what it is told at its turns. -/
theorem Pool.thread_resume (hrun : Run (Pool.Step perform body) p tr p') {op : Op} {t : Task R Reply ε α}
    (hi : p.threads[i]? = some (op, t)) : p'.threads[i]? = some (op, t.resume perform (served i tr)) := by
  induction hrun with
  | nil =>
    rw [served, List.filter_nil, List.map_nil, Task.resume_nil]
    exact hi
  | @snoc tr a turn b _ hstep ih =>
    rw [served, List.filter_append, List.map_append, Task.resume_append]
    by_cases hturn : turn = .advance i
    · subst hturn
      have hmine : ([⟨a, .advance i, b⟩] : List (Transition (Pool S R Reply ε α Op) (Turn Op))).filter
          (·.label.thread = some i) = [⟨a, .advance i, b⟩] := by simp [Turn.thread]
      rw [hmine]
      change _ = some (op, (t.resume perform (served i tr)).resume perform [a.store])
      rcases hstep.cases with ⟨op', hother, -⟩ | ⟨j, op', r, next, hj, hthread, -, hb⟩
      · cases hother
      · cases hj
        have hsame := ih.symm.trans hthread
        rw [Option.some.injEq, Prod.mk.injEq] at hsame
        rw [hb, hsame.1, hsame.2, Task.resume, Task.resume_nil]
        exact List.getElem?_set_self (List.getElem?_eq_some_iff.mp hthread).1
    · have hother : [(⟨a, turn, b⟩ : Transition _ _)].filter (·.label.thread = some i) = [] := by
        cases turn with
        | start op' => rfl
        | advance j =>
          have hne : j ≠ i := fun hji => hturn (by rw [hji])
          simp [Turn.thread, hne]
      rw [hother, List.map_nil, Task.resume_nil]
      exact hstep.thread_stays hturn ih

section Returned

def Task.returned? : Task R Reply ε α → Option α
  | .done (.ok a) => some a
  | _ => none

/-- A handler has come to `a`. -/
def Pool.Returned (p : Pool S R Reply ε α Op) (a : α) : Prop := ∃ thread ∈ p.threads, thread.2.returned? = some a

instance [DecidableEq α] (p : Pool S R Reply ε α Op) (a : α) : Decidable (p.Returned a) :=
  inferInstanceAs (Decidable (∃ thread ∈ p.threads, thread.2.returned? = some a))

theorem Task.eq_of_returned {t : Task R Reply ε α} {a : α} (h : t.returned? = some a) : t = .done (.ok a) := by
  cases t with
  | ask r next => cases h
  | done result =>
    cases result with
    | error e => cases h
    | ok b =>
      cases h
      rfl

theorem Pool.Step.done_stays {turn : Turn Op} (h : p.Step perform body turn p') {op : Op} {result : Except ε α}
    (hi : p.threads[i]? = some (op, .done result)) : p'.threads[i]? = some (op, .done result) := by
  refine h.thread_stays (fun hturn => ?_) hi
  rcases h.cases with ⟨op', hstart, -⟩ | ⟨j, op', r, next, hj, hthread, -⟩
  · rw [hturn] at hstart
    cases hstart
  · rw [hturn] at hj
    cases hj
    rw [hi] at hthread
    cases hthread

theorem Pool.Step.returned_stays {turn : Turn Op} (h : p.Step perform body turn p') {a : α} (ha : p.Returned a) :
    p'.Returned a := by
  obtain ⟨⟨op, t⟩, hthread, hreturned⟩ := ha
  have ht : t = .done (.ok a) := Task.eq_of_returned hreturned
  subst ht
  obtain ⟨i, hi⟩ := List.mem_iff_getElem?.mp hthread
  exact ⟨_, List.mem_of_getElem? (h.done_stays hi), rfl⟩

variable {Stage : Type} {P : Protocol R Reply Stage} {post : Stage → Except ε α → Prop} {stages : List Stage}

theorem Pool.At.stage_of_returned (h : p.At P post stages) {a : α} (ha : p.Returned a) : ∃ σ ∈ stages, post σ (.ok a) := by
  obtain ⟨⟨op, t⟩, hthread, hreturned⟩ := ha
  obtain ⟨i, hi⟩ := List.mem_iff_getElem?.mp hthread
  obtain ⟨σ, hσ, hfollows⟩ := h.thread hi
  have ht : t = .done (.ok a) := Task.eq_of_returned hreturned
  subst ht
  exact ⟨σ, List.mem_of_getElem? hσ, hfollows⟩

/-- A handler has come to `a` when it is at a stage that nothing else may end at, and nothing may be asked at. -/
theorem Pool.At.returned_of_stage (h : p.At P post stages) {σ : Stage} {a : α} (hσ : σ ∈ stages)
    (hquiet : ∀ r, ¬ P.allowed σ r) (hpost : ∀ result, post σ result → result = .ok a) : p.Returned a := by
  obtain ⟨i, hi⟩ := List.mem_iff_getElem?.mp hσ
  obtain ⟨⟨op, t⟩, hthread, hfollows⟩ := h.stage hi
  refine ⟨_, List.mem_of_getElem? hthread, ?_⟩
  cases t with
  | ask r next => exact absurd hfollows.1 (hquiet r)
  | done result =>
    have hresult : result = .ok a := hpost result hfollows
    rw [hresult]
    rfl

theorem Pool.At.quiet (h : p.At P post stages) {σ : Stage} (hi : stages[i]? = some σ)
    (hquiet : ∀ r, ¬ P.allowed σ r) : ∃ op result, p.threads[i]? = some (op, .done result) := by
  obtain ⟨⟨op, t⟩, hthread, hfollows⟩ := h.stage hi
  cases t with
  | ask r next => exact absurd hfollows.1 (hquiet r)
  | done result => exact ⟨op, result, hthread⟩

end Returned
end Soter.Tasks
