import Soter.Lib.Task

/-! Rely and guarantee for handlers that share a store. A handler may count on what the others are
known to leave alone, and promises something of each of its requests in return. -/
namespace Soter.Tasks
open Soter.Runs

variable {R ε α β S Op : Type} {Reply : R → Type}

variable {body : Op → Task R Reply ε α} {p' p : Pool S R Reply ε α Op}
section Request
variable {perform : (r : R) → S → Reply r × S} {turn : Turn Op}

/-- The request that is served at a turn, with the call whose handler asks it. -/
def Pool.request (p : Pool S R Reply ε α Op) : Turn Op → Option (Op × R)
  | .start _ => none
  | .advance i =>
    match p.threads[i]? with
    | some (op, .ask r _) => some (op, r)
    | _ => none

theorem Pool.asked_eq (p : Pool S R Reply ε α Op) (turn : Turn Op) : p.asked turn = (p.request turn).map Prod.snd := by
  cases turn with
  | start op => rfl
  | advance i =>
    simp only [Pool.asked, Pool.request]
    cases p.threads[i]? with
    | none => rfl
    | some thread =>
      obtain ⟨op, task⟩ := thread
      cases task with
      | done | ask => rfl

theorem Pool.asked_of_request {op : Op} {r : R} (h : p.request turn = some (op, r)) :
    p.asked turn = some r := by
  rw [Pool.asked_eq, h, Option.map_some]

theorem Pool.request_eq_some {op : Op} {r : R} (h : p.request turn = some (op, r)) :
    ∃ i next, turn = .advance i ∧ p.threads[i]? = some (op, .ask r next) := by
  cases turn with
  | start op' => cases h
  | advance i =>
    simp only [Pool.request] at h
    split at h
    · rename_i op' r' next hi
      cases h
      exact ⟨i, next, rfl, hi⟩
    · cases h

theorem Pool.Step.cases (h : p.Step perform body turn p') :
    (∃ op, turn = .start op ∧ p' = { p with threads := p.threads ++ [(op, body op)] }) ∨
      ∃ i op r next, turn = .advance i ∧ p.threads[i]? = some (op, .ask r next) ∧
        p.request turn = some (op, r) ∧
        p' = { store := (perform r p.store).2
               threads := p.threads.set i (op, next (perform r p.store).1) } := by
  cases turn with
  | start op =>
    cases h
    exact .inl ⟨op, rfl, rfl⟩
  | advance i =>
    simp only [Pool.Step, Pool.take] at h
    split at h
    · rename_i op r next hi
      cases h
      refine .inr ⟨i, op, r, next, rfl, hi, ?_, rfl⟩
      simp only [Pool.request, hi]
    · cases h

theorem Pool.Step.thread_stays (h : p.Step perform body turn p') {i : ℕ}
    (hi : turn ≠ .advance i) {thread : Op × Task R Reply ε α} (hthread : p.threads[i]? = some thread) :
    p'.threads[i]? = some thread := by
  rcases h.cases with ⟨op, -, rfl⟩ | ⟨j, op, r, next, rfl, -, -, rfl⟩
  · rw [List.getElem?_append_left (List.getElem?_eq_some_iff.mp hthread).1]
    exact hthread
  · have hne : j ≠ i := fun hji => hi (by rw [hji])
    rw [List.getElem?_set_ne hne]
    exact hthread

theorem Pool.Step.thread_advances {i : ℕ} (h : p.Step perform body (.advance i) p') {op : Op} {r : R}
    {next : Reply r → Task R Reply ε α} (hthread : p.threads[i]? = some (op, .ask r next)) :
    p'.store = (perform r p.store).2 ∧ p'.threads[i]? = some (op, next (perform r p.store).1) := by
  rcases h.cases with ⟨op', hturn, -⟩ | ⟨j, op', r', next', hturn, hj, -, rfl⟩
  · cases hturn
  · cases hturn
    rw [hthread] at hj
    cases hj
    exact ⟨rfl, List.getElem?_set_self (List.getElem?_eq_some_iff.mp hthread).1⟩

theorem Pool.request_of_asked {r : R} (h : p.asked turn = some r) : ∃ op, p.request turn = some (op, r) := by
  rw [Pool.asked_eq] at h
  obtain ⟨⟨op, r'⟩, hrequest, rfl⟩ := Option.map_eq_some_iff.mp h
  exact ⟨op, hrequest⟩

theorem Pool.asked_of_no_request (h : p.request turn = none) : p.asked turn = none := by
  rw [Pool.asked_eq, h, Option.map_none]

theorem Pool.Step.request_cases (h : p.Step perform body turn p') : (p.request turn = none ∧ p'.store = p.store) ∨
      ∃ op r, p.request turn = some (op, r) ∧ p'.store = (perform r p.store).2 := by
  rcases h.cases with ⟨op, rfl, rfl⟩ | ⟨i, op, r, next, -, -, hr, rfl⟩
  · exact .inl ⟨rfl, rfl⟩
  · exact .inr ⟨op, r, hr, rfl⟩

def Task.isDone : Task R Reply ε α → Bool
  | .done _ => true
  | .ask _ _ => false

def Pool.Quiet (p : Pool S R Reply ε α Op) : Prop :=
  p.threads.all (·.2.isDone) = true

instance : Decidable p.Quiet := inferInstanceAs (Decidable (_ = true))

end Request

section Asks
variable {P Q : R → Prop}

/-- Every request that a handler can come to meets `P`, whatever it is told. -/
def Task.Asks (P : R → Prop) : Task R Reply ε α → Prop
  | .done _ => True
  | .ask r next => P r ∧ ∀ reply, (next reply).Asks P

theorem Task.asks_done (result : Except ε α) : (Task.done result : Task R Reply ε α).Asks P :=
  trivial

theorem Task.Asks.of_forall (h : ∀ r, P r) : ∀ t : Task R Reply ε α, t.Asks P
  | .done _ => trivial
  | .ask r next => ⟨h r, fun reply => Task.Asks.of_forall h (next reply)⟩

theorem Task.Asks.mono (hPQ : ∀ r, P r → Q r) : ∀ {t : Task R Reply ε α}, t.Asks P → t.Asks Q
  | .done _, _ => trivial
  | .ask r _, h => ⟨hPQ r h.1, fun reply => Task.Asks.mono hPQ (h.2 reply)⟩

theorem Task.Asks.lift {R' : Type} {Reply' : R' → Type} {P' : R' → Prop} {emb : R → R'}
    {back : ∀ r, Reply' (emb r) → Reply r} (hP : ∀ r, P r → P' (emb r)) :
    ∀ {t : Task R Reply ε α}, t.Asks P → (t.lift emb back).Asks P'
  | .done _, _ => trivial
  | .ask r _, h => ⟨hP r h.1, fun reply => Task.Asks.lift hP (h.2 (back r reply))⟩

theorem Task.Asks.attempt {ε' : Type} :
    ∀ {t : Task R Reply ε α}, t.Asks P → (t.attempt : Task R Reply ε' (Except ε α)).Asks P
  | .done _, _ => trivial
  | .ask _ _, h => ⟨h.1, fun reply => Task.Asks.attempt (h.2 reply)⟩

theorem Task.Asks.bind {f : α → Task R Reply ε β} (hf : ∀ a, (f a).Asks P) :
    ∀ {t : Task R Reply ε α}, t.Asks P → (t.bind f).Asks P
  | .done (.ok a), _ => hf a
  | .done (.error _), _ => trivial
  | .ask _ _, h => ⟨h.1, fun reply => Task.Asks.bind hf (h.2 reply)⟩

theorem Task.Asks.done_bind {result : Except ε α} {f : α → Task R Reply ε β}
    (hf : ∀ a, result = .ok a → (f a).Asks P) : ((Task.done result).bind f).Asks P := by
  cases result with
  | ok a => exact hf a rfl
  | error e => trivial

theorem Task.Asks.mem_trace {answer : (r : R) → Reply r} {r : R} {t : Task R Reply ε α} (h : t.Asks P)
    (hr : r ∈ t.trace answer) : P r := by
  induction t with
  | done result => cases hr
  | ask r' next ih =>
    rcases List.mem_cons.mp hr with rfl | hr
    · exact h.1
    · exact ih _ (h.2 _) hr

theorem Task.asks_ite {c : Prop} [Decidable c] {t t' : Task R Reply ε α} (h : c → t.Asks P)
    (h' : ¬ c → t'.Asks P) : (if c then t else t').Asks P := by
  split
  · exact h ‹_›
  · exact h' ‹_›

theorem Task.Asks.bind_done {f : α → β} {t : Task R Reply ε α} (h : t.Asks P) : (t.bind fun a => .done (.ok (f a))).Asks P :=
  Task.Asks.bind (fun a => Task.asks_done (.ok (f a))) h

end Asks

section Throughout
variable {P : Task R Reply ε α → Prop}

/-- `P` holds of what is left of a handler, at whatever point and whatever it is told. -/
def Task.Throughout (P : Task R Reply ε α → Prop) : Task R Reply ε α → Prop
  | .done result => P (.done result)
  | .ask r next => P (.ask r next) ∧ ∀ reply, (next reply).Throughout P

theorem Task.Throughout.here : ∀ {t : Task R Reply ε α}, t.Throughout P → P t
  | .done _, h => h
  | .ask _ _, h => h.1

theorem Task.Asks.throughout {A : R → Prop} (hdone : ∀ result, P (.done result))
    (hask : ∀ r next, A r → P (.ask r next)) : ∀ {t : Task R Reply ε α}, t.Asks A → t.Throughout P
  | .done result, _ => hdone result
  | .ask r next, h => ⟨hask r next h.1, fun reply => Task.Asks.throughout hdone hask (h.2 reply)⟩

theorem Task.Throughout.bind {Q : Task R Reply ε β → Prop} {f : α → Task R Reply ε β}
    (hask : ∀ r next, P (.ask r next) → Q (.ask r fun reply => (next reply).bind f))
    (hdone : ∀ a, (f a).Throughout Q) (herror : ∀ e, Q (.done (.error e))) :
    ∀ {t : Task R Reply ε α}, t.Throughout P → (t.bind f).Throughout Q
  | .done (.ok a), _ => hdone a
  | .done (.error e), _ => herror e
  | .ask r next, h => ⟨hask r next h.1, fun reply => Task.Throughout.bind hask hdone herror (h.2 reply)⟩

end Throughout

section Keeps
variable (perform : (r : R) → S → Reply r × S) (rely : S → S → Prop) (I : S → Prop)
  (C ok : R → S → Prop)

/-- What a handler does from the store `s` on. Between its requests the store moves within `rely`
and `I`; granted `C` at a request, the request meets `ok`; and the result meets `post`. -/
def Task.Keeps (post : Except ε α → S → Prop) : Task R Reply ε α → S → Prop
  | .done result, s => ∀ s', rely s s' → I s' → post result s'
  | .ask r next, s => ∀ s', rely s s' → I s' → C r s' →
      ok r s' ∧ (next (perform r s').1).Keeps post (perform r s').2

variable {perform rely I C ok} {post : Except ε β → S → Prop} {s s' : S}

theorem Task.keeps_ask {r : R} {next : Reply r → Task R Reply ε β} :
    (Task.ask r next).Keeps perform rely I C ok post s ↔ ∀ s', rely s s' → I s' → C r s' →
      ok r s' ∧ (next (perform r s').1).Keeps perform rely I C ok post (perform r s').2 :=
  Iff.rfl

theorem Task.Keeps.moved (htrans : ∀ a b c, rely a b → rely b c → rely a c)
    {t : Task R Reply ε β} (h : t.Keeps perform rely I C ok post s) (hs : rely s s') :
    t.Keeps perform rely I C ok post s' := by
  cases t with
  | done result | ask r next => exact fun s'' hs'' hI => h s'' (htrans _ _ _ hs hs'') hI

theorem Task.keeps_of_moved (hrefl : ∀ a, rely a a) {t : Task R Reply ε β}
    (h : ∀ s', rely s s' → I s' → t.Keeps perform rely I C ok post s') :
    t.Keeps perform rely I C ok post s := by
  cases t with
  | done result | ask r next => exact fun s' hs hI => h s' hs hI s' (hrefl s') hI

/-- Requests that meet `ok` in every store are no matter of what the others do. -/
theorem Task.Keeps.of_asks {P : R → Prop} (hP : ∀ r s, P r → ok r s) (hpost : ∀ result s, post result s) :
    ∀ {t : Task R Reply ε β} {s : S}, t.Asks P → t.Keeps perform rely I C ok post s
  | .done result, _, _ => fun s' _ _ => hpost result s'
  | .ask r _, _, h => fun s' _ _ _ => ⟨hP r s' h.1, Task.Keeps.of_asks hP hpost (h.2 _)⟩

theorem Task.Keeps.bind_done {result : Except ε α} {f : α → Task R Reply ε β}
    (hok : ∀ a, result = .ok a → (f a).Keeps perform rely I C ok post s)
    (herror : ∀ e, result = .error e → (Task.done (.error e)).Keeps perform rely I C ok post s) :
    ((Task.done result : Task R Reply ε α).bind f).Keeps perform rely I C ok post s := by
  cases result with
  | ok a => exact hok a rfl
  | error e => exact herror e rfl

theorem Task.Keeps.bind (hrefl : ∀ a, rely a a) (post' : Except ε α → S → Prop) {f : α → Task R Reply ε β}
    (hok : ∀ a s, post' (.ok a) s → (f a).Keeps perform rely I C ok post s)
    (herror : ∀ e s, post' (.error e) s → post (.error e) s) :
    ∀ {t : Task R Reply ε α} {s : S}, t.Keeps perform rely I C ok post' s → (t.bind f).Keeps perform rely I C ok post s
  | .done (.ok a), _, h => Task.keeps_of_moved hrefl fun s' hs hI => hok a s' (h s' hs hI)
  | .done (.error e), _, h => fun s' hs hI => herror e s' (h s' hs hI)
  | .ask _ _, _, h => fun s' hs hI hC =>
      ⟨(h s' hs hI hC).1, Task.Keeps.bind hrefl post' hok herror (h s' hs hI hC).2⟩

theorem Task.Keeps.of_post {post' : Except ε β → S → Prop} (hpost : ∀ result s, post' result s → post result s) :
    ∀ {t : Task R Reply ε β} {s : S}, t.Keeps perform rely I C ok post' s → t.Keeps perform rely I C ok post s
  | .done result, _, h => fun s' hs hI => hpost result s' (h s' hs hI)
  | .ask _ _, _, h => fun s' hs hI hC =>
      ⟨(h s' hs hI hC).1, Task.Keeps.of_post hpost (h s' hs hI hC).2⟩

theorem Task.Keeps.frame {F : S → Prop} (hstable : ∀ a b, rely a b → F a → F b)
    (hserve : ∀ r a, I a → C r a → ok r a → rely a (perform r a).2) :
    ∀ {t : Task R Reply ε β} {s : S}, t.Keeps perform rely I C ok post s → F s →
      t.Keeps perform rely I C ok (fun result s => F s ∧ post result s) s
  | .done _, _, h, hF => fun s' hs hI => ⟨hstable _ _ hs hF, h s' hs hI⟩
  | .ask r _, _, h, hF => fun s' hs hI hC => by
    have hasked := h s' hs hI hC
    refine ⟨hasked.1, Task.Keeps.frame hstable hserve hasked.2 ?_⟩
    exact hstable _ _ (hserve r s' hI hC hasked.1) (hstable _ _ hs hF)

theorem Task.keeps_ite {c : Prop} [Decidable c] {t t' : Task R Reply ε β}
    (h : c → t.Keeps perform rely I C ok post s) (h' : ¬ c → t'.Keeps perform rely I C ok post s) :
    (if c then t else t').Keeps perform rely I C ok post s := by
  split
  · exact h ‹_›
  · exact h' ‹_›

theorem Task.Keeps.attempt {ε' : Type} {post' : Except ε α → S → Prop} :
    ∀ {t : Task R Reply ε α} {s : S}, t.Keeps perform rely I C ok post' s →
      (t.attempt : Task R Reply ε' (Except ε α)).Keeps perform rely I C ok
        (fun result s => ∃ caught, result = .ok caught ∧ post' caught s) s
  | .done result, _, h => fun s' hs hI => ⟨result, rfl, h s' hs hI⟩
  | .ask _ _, _, h => fun s' hs hI hC =>
      ⟨(h s' hs hI hC).1, Task.Keeps.attempt (h s' hs hI hC).2⟩

theorem Task.Keeps.bind_result (hrefl : ∀ a, rely a a) {f : α → Task R Reply ε β}
    (hf : ∀ a, ∃ result, f a = .done result) {t : Task R Reply ε α}
    (h : t.Keeps perform rely I C ok (fun _ _ => True) s) :
    (t.bind f).Keeps perform rely I C ok (fun _ _ => True) s := by
  refine Task.Keeps.bind hrefl (fun _ _ => True) (fun a s' _ => ?_) (fun _ _ _ => trivial) h
  obtain ⟨result, hresult⟩ := hf a
  rw [hresult]
  exact fun _ _ _ => trivial

end Keeps

section Run
variable {perform : (r : R) → S → Reply r × S} {rely : S → S → Prop} {I : S → Prop} {C ok : Op → R → S → Prop}
  {post : Op → Except ε α → S → Prop}

variable (perform rely I C ok post) in
/-- The invariant of a pool whose handlers all do what their calls stand for. -/
structure Pool.Kept (p : Pool S R Reply ε α Op) : Prop where
  store : I p.store
  threads : ∀ t ∈ p.threads, t.2.Keeps perform rely I (C t.1) (ok t.1) (post t.1) p.store

theorem Pool.Kept.request (hrefl : ∀ a, rely a a) (h : p.Kept perform rely I C ok post)
    {turn : Turn Op} {op : Op} {r : R} (hr : p.request turn = some (op, r))
    (hC : C op r p.store) : ok op r p.store := by
  obtain ⟨i, next, -, hi⟩ := Pool.request_eq_some hr
  exact (h.threads _ (List.mem_of_getElem? hi) p.store (hrefl _) h.store hC).1

/-- The rule of rely and guarantee for one turn: a request that meets `ok` moves the store within
`rely`, so that the other handlers still keep their promises. -/
theorem Pool.Kept.step (hrefl : ∀ a, rely a a) (htrans : ∀ a b c, rely a b → rely b c → rely a c)
    (hstart : ∀ op s, I s → (body op).Keeps perform rely I (C op) (ok op) (post op) s)
    (hserve : ∀ op r s, I s → C op r s → ok op r s → rely s (perform r s).2 ∧ I (perform r s).2)
    (h : p.Kept perform rely I C ok post) {turn : Turn Op} (hstep : p.Step perform body turn p')
    (hC : ∀ op r, p.request turn = some (op, r) → C op r p.store) : p'.Kept perform rely I C ok post := by
  rcases hstep.cases with ⟨op, -, rfl⟩ | ⟨i, op, r, next, -, hi, hr, rfl⟩
  · refine ⟨h.store, fun t ht => ?_⟩
    rcases List.mem_append.mp ht with ht | ht
    · exact h.threads t ht
    · rw [List.mem_singleton.mp ht]
      exact hstart op p.store h.store
  · have hthread := h.threads _ (List.mem_of_getElem? hi) p.store (hrefl _) h.store (hC op r hr)
    have hserved := hserve op r p.store h.store (hC op r hr) hthread.1
    refine ⟨hserved.2, fun t ht => ?_⟩
    rcases List.mem_or_eq_of_mem_set ht with ht | rfl
    · exact (h.threads t ht).moved htrans hserved.1
    · exact hthread.2

theorem Pool.Kept.idle {s : S} (h : I s) :
    Pool.Kept perform rely I C ok post ({ store := s } : Pool S R Reply ε α Op) :=
  ⟨h, fun _ ht => absurd ht List.not_mem_nil⟩

/-- In a run whose requests all meet `C`, every state keeps the promises. -/
theorem Pool.Kept.run (hrefl : ∀ a, rely a a) (htrans : ∀ a b c, rely a b → rely b c → rely a c)
    (hstart : ∀ op s, I s → (body op).Keeps perform rely I (C op) (ok op) (post op) s)
    (hserve : ∀ op r s, I s → C op r s → ok op r s → rely s (perform r s).2 ∧ I (perform r s).2)
    {tr : List (Transition (Pool S R Reply ε α Op) (Turn Op))}
    (hrun : Run (Pool.Step perform body) p tr p') (h : p.Kept perform rely I C ok post)
    (hC : ∀ t ∈ tr, ∀ op r, t.pre.request t.label = some (op, r) → C op r t.pre.store)
    {t : Transition (Pool S R Reply ε α Op) (Turn Op)} (ht : t ∈ tr) :
    t.pre.Kept perform rely I C ok post ∧ t.post.Kept perform rely I C ok post :=
  hrun.invariant_at h hC (fun _ hstep hc hpre => hpre.step hrefl htrans hstart hserve hstep hc) ht

theorem Pool.asks_of_run {P : Op → R → Prop} (hbody : ∀ op, (body op).Asks (P op)) {s : S}
    {tr : List (Transition (Pool S R Reply ε α Op) (Turn Op))}
    (hrun : Run (Pool.Step perform body) { store := s } tr p')
    {t : Transition (Pool S R Reply ε α Op) (Turn Op)} (ht : t ∈ tr) {op : Op} {r : R}
    (hr : t.pre.request t.label = some (op, r)) : P op r := by
  have hidle : Pool.Kept perform (fun _ _ => True) (fun _ => True) (fun _ _ _ => True)
      (fun op r _ => P op r) (fun _ _ _ => True) ({ store := s } : Pool S R Reply ε α Op) :=
    Pool.Kept.idle trivial
  have hkept := (Pool.Kept.run (fun _ => trivial) (fun _ _ _ _ _ => trivial)
    (fun op _ _ => .of_asks (fun _ _ h => h) (fun _ _ => trivial) (hbody op))
    (fun _ _ _ _ _ _ => ⟨trivial, trivial⟩) hrun hidle (fun _ _ _ _ _ => trivial) ht).1
  exact hkept.request (fun _ => trivial) hr trivial

theorem Pool.throughout_of_run {P : Op → Task R Reply ε α → Prop} (hbody : ∀ op, (body op).Throughout (P op)) {s : S}
    {tr : List (Transition (Pool S R Reply ε α Op) (Turn Op))}
    (hrun : Run (Pool.Step perform body) { store := s } tr p') :
    ∀ thread ∈ p'.threads, thread.2.Throughout (P thread.1) := by
  refine hrun.invariant (I := fun p => ∀ thread ∈ p.threads, thread.2.Throughout (P thread.1))
    (C := fun _ => True) (fun _ ht => absurd ht List.not_mem_nil) (fun _ _ => trivial)
    fun t hstep _ hpre => ?_
  rcases hstep.cases with ⟨op, -, hpost⟩ | ⟨i, op, r, next, -, hi, -, hpost⟩
  · rw [hpost]
    intro thread hthread
    rcases List.mem_append.mp hthread with hthread | hthread
    · exact hpre thread hthread
    · rw [List.mem_singleton.mp hthread]
      exact hbody op
  · rw [hpost]
    intro thread hthread
    rcases List.mem_or_eq_of_mem_set hthread with hthread | rfl
    · exact hpre thread hthread
    · exact (hpre _ (List.mem_of_getElem? hi)).2 _

end Run
end Soter.Tasks
