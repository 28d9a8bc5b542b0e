import Mathlib
import Soter.Cache.Interceptor

/-! When a cached response is that of the same request. -/
namespace Soter.Cache
open Soter.Json Soter.Tasks Soter.Runs List

section Joined
variable {Num : Type} {numerals : Numerals Num} {v w : Value Num}

theorem sortObject_wf (hv : v.WF) : (sortObject v).WF := Audit.sortDeep_wf hv

theorem sortObject_sorted (hv : v.WF) : (sortObject v).sorted = sortObject v := by
  have hproto : Audit.NoProto (sortObject v) := Audit.noProto_sortDeep hv
  induction hv with
  | null | bool b | num n | str s => rfl
  | @arr items each ih =>
    simp only [sortObject, Audit.sortDeep, Audit.sortDeepItems_eq, Value.sorted, sortedItems_eq, map_map]
    apply congrArg Value.arr
    exact map_congr_left fun v hv => ih v hv (Audit.noProto_sortDeep (each v hv))
  | @obj members keys each ih =>
    simp only [sortObject, Audit.sortDeep, Audit.sortDeepMembers_eq, Value.sorted, sortedMembers_eq]
    have hfixed : (((sortMembers (members.map fun m => (m.1, Audit.sortDeep m.2))).filter
        (·.1 ≠ Audit.protoKey)).map fun m => (m.1, m.2.sorted)) =
        (sortMembers (members.map fun m => (m.1, Audit.sortDeep m.2))).filter (·.1 ≠ Audit.protoKey) := by
      conv_rhs => rw [← map_id ((sortMembers _).filter _)]
      apply map_congr_left
      intro m hm
      obtain ⟨m', hm', rfl⟩ := mem_map.mp ((sortMembers_perm _).mem_iff.mp (mem_of_mem_filter hm))
      have hsorted := ih m' hm' (Audit.noProto_sortDeep (each m' hm'))
      exact Prod.ext rfl hsorted
    rw [hfixed]
    apply congrArg Value.obj
    exact ((sortMembers_pairwise _).sublist filter_sublist).insertionSort_eq

def joined (numerals : Numerals Num) (vs : List (Value Num)) : Text :=
  vs.flatMap fun v => separator ++ stringify numerals 0 v

theorem joined_cons (v : Value Num) (vs : List (Value Num)) :
    joined numerals (v :: vs) = separator ++ (stringify numerals 0 v ++ joined numerals vs) := by
  rw [joined, flatMap_cons, append_assoc]
  rfl

theorem intercalate_cons (a : Text) (ts : List Text) :
    separator.intercalate (a :: ts) = a ++ ts.flatMap (separator ++ ·) := by
  induction ts generalizing a with
  | nil => simp
  | cons t ts ih =>
    rw [intercalate_cons_cons, ih, flatMap_cons, append_assoc, append_assoc]

theorem joined_delimited (vs : List (Value Num)) : Delimited (joined numerals vs) := by
  intro c hc
  cases vs with
  | nil => cases hc
  | cons v vs =>
    rw [joined_cons] at hc
    cases hc
    decide

theorem joined_injective : ∀ {vs ws : List (Value Num)}, (∀ v ∈ vs, v.WF ∧ v.sorted = v) →
    (∀ w ∈ ws, w.WF ∧ w.sorted = w) → joined numerals vs = joined numerals ws → vs = ws
  | [], [], _, _, _ => rfl
  | [], w :: ws, _, _, h => by
    rw [joined_cons] at h
    cases h
  | v :: vs, [], _, _, h => by
    rw [joined_cons] at h
    cases h
  | v :: vs, w :: ws, hv, hw, h => by
    obtain ⟨hv, hvs⟩ := forall_mem_cons.mp hv
    obtain ⟨hw, hws⟩ := forall_mem_cons.mp hw
    rw [joined_cons, joined_cons] at h
    have h := append_cancel_left h
    have hread : ∀ n, (stringify numerals 0 v).length ≤ n →
        parseValue numerals n (stringify numerals 0 v ++ joined numerals vs) =
          some (v.visited, joined numerals vs) :=
      fun n hn => reads_stringify hv.1 0 n _ hn (joined_delimited vs)
    have hread' : ∀ n, (stringify numerals 0 w).length ≤ n →
        parseValue numerals n (stringify numerals 0 w ++ joined numerals ws) =
          some (w.visited, joined numerals ws) :=
      fun n hn => reads_stringify hw.1 0 n _ hn (joined_delimited ws)
    have hboth := hread _ (Nat.le_add_right _ (stringify numerals 0 w).length)
    rw [h, hread' _ (Nat.le_add_left _ _), Option.some.injEq, Prod.mk.injEq] at hboth
    have hvalue : v = w := by
      calc
        v = v.sorted := hv.2.symm
        _ = v.visited.sorted := (visited_same hv.1).symm
        _ = w.visited.sorted := by rw [hboth.1]
        _ = w.sorted := visited_same hw.1
        _ = w := hw.2
    have hrest : joined numerals vs = joined numerals ws := hboth.2.symm
    rw [hvalue, joined_injective hvs hws hrest]

end Joined
section Keys
variable {Num : Type} {sha256 : Text → Text} {numerals : Numerals Num} {options : CacheResponseOptions Num}
  {route : Text} {r r' : Request Num}

def Request.Takes (route : Text) (r : Request Num) : Prop := r.route = some route ∧ route ≠ []

structure SameRequest (options : CacheResponseOptions Num) (r r' : Request Num) : Prop where
  method : r.method = r'.method
  path : r.path = r'.path
  query : (Value.obj r.query).Same (.obj r'.query)
  body : options.includeBody = true → Option.Rel Value.Same r.body r'.body

variable (numerals) in
/-- The two requests differ in their methods or in what the key is made of, or in nothing at all. -/
def Separated (options : CacheResponseOptions Num) (r r' : Request Num) : Prop :=
  r.method ≠ r'.method ∨ exposed numerals options r ≠ exposed numerals options r' ∨
    SameRequest options r r'

theorem exposed_sorted (r : Request Num) : ∀ v ∈ exposed numerals options r, v.WF ∧ v.sorted = v := by
  intro v hv
  have hsorted : ∀ w : Value Num, w.WF → v = sortObject w → v.WF ∧ v.sorted = v := by
    intro w hw hvw
    rw [hvw]
    exact ⟨sortObject_wf hw, sortObject_sorted hw⟩
  rcases mem_append.mp hv with hv | hv
  · split at hv
    · cases hv
    · exact hsorted _ r.query_wf (mem_singleton.mp hv)
  · split at hv
    · obtain ⟨w, hw, hvw⟩ := Option.map_eq_some_iff.mp (Option.mem_toList.mp hv)
      exact hsorted w (r.body_wf w (Option.filter_eq_some_iff.mp hw).1) hvw.symm
    · cases hv

theorem rawKey_eq (hr : r.Takes route) : rawKey numerals options r =
    r.method ++ (separator ++ (route ++ joined numerals (exposed numerals options r))) := by
  have hroute : orText r.route r.path = route := by
    rw [hr.1]
    cases route with
    | nil => exact absurd rfl hr.2
    | cons c cs => rfl
  rw [rawKey, intercalate_cons, hroute, flatMap_cons, flatMap_map, append_assoc]
  rfl

theorem method_unique {m m' rest rest' : Text} (hm : ':' ∉ m) (hm' : ':' ∉ m')
    (h : m ++ (separator ++ rest) = m' ++ (separator ++ rest')) : m = m' ∧ rest = rest' := by
  induction m generalizing m' with
  | nil =>
    cases m' with
    | nil => exact ⟨rfl, append_cancel_left h⟩
    | cons c cs =>
      have hc : ':' = c := (cons.inj (show ':' :: (':' :: rest) = c :: _ from h)).1
      exact absurd (hc ▸ mem_cons_self) hm'
  | cons c cs ih =>
    cases m' with
    | nil =>
      have hc : c = ':' := (cons.inj (show c :: _ = ':' :: (':' :: rest') from h)).1
      exact absurd (hc ▸ mem_cons_self) hm
    | cons d ds =>
      obtain ⟨hcd, hrest⟩ := cons.inj h
      obtain ⟨hcs, hrest⟩ := ih (fun hc => hm (mem_cons_of_mem c hc)) (fun hd => hm' (mem_cons_of_mem d hd)) hrest
      exact ⟨by rw [hcd, hcs], hrest⟩

theorem generateCacheKey_eq_iff (hsha : Function.Injective sha256) (hgen : options.keyGenerator = none)
    (hr : r.Takes route) (hr' : r'.Takes route) :
    generateCacheKey sha256 numerals options r = generateCacheKey sha256 numerals options r' ↔
      r.method = r'.method ∧ exposed numerals options r = exposed numerals options r' := by
  rw [generateCacheKey, generateCacheKey, hgen]
  constructor
  · intro h
    have hraw := hsha (cons.inj (append_cancel_left h)).2
    rw [rawKey_eq hr, rawKey_eq hr'] at hraw
    obtain ⟨hmethod, hrest⟩ := method_unique r.method_token r'.method_token hraw
    exact ⟨hmethod, joined_injective (exposed_sorted r) (exposed_sorted r') (append_cancel_left hrest)⟩
  · rintro ⟨hmethod, hexposed⟩
    rw [rawKey_eq hr, rawKey_eq hr', hmethod, hexposed]

theorem same_of_key_iff (hsha : Function.Injective sha256) (hgen : options.keyGenerator = none)
    (hr : r.Takes route) (hr' : r'.Takes route) :
    (generateCacheKey sha256 numerals options r = generateCacheKey sha256 numerals options r' →
      SameRequest options r r') ↔ Separated numerals options r r' := by
  rw [generateCacheKey_eq_iff hsha hgen hr hr', Separated]
  tauto

theorem SameRequest.refl (options : CacheResponseOptions Num) (r : Request Num) : SameRequest options r r where
  method := rfl
  path := rfl
  query := rfl
  body _ := by
    cases r.body with
    | none => exact .none
    | some b => exact .some rfl

end Keys
section Answers
variable {Num : Type} {sha256 : Text → Text} {numerals : Numerals Num} {options : CacheResponseOptions Num}
  {route : Text} {admits : Request Num → Prop} {s : Store Num} {p : CachePool Num}

def Admitted (admits : Request Num → Prop) : CacheOp Num → Prop
  | .intercept r => admits r
  | _ => True

variable (sha256 numerals options admits) in
def Written (key : Text) (origin : Request Num) : Prop :=
  key = generateCacheKey sha256 numerals options origin ∧ admits origin

variable (sha256 numerals options admits) in
def Writes : Query Num → Prop
  | .set key _ _ origin => Written sha256 numerals options admits key origin
  | _ => True

variable (sha256 numerals options admits) in
def Store.Written (s : Store Num) : Prop :=
  ∀ e ∈ s.entries, Cache.Written sha256 numerals options admits e.key e.origin

def Answers (options : CacheResponseOptions Num) :
    CacheOp Num → Except String (Option (Answer Num)) → Prop
  | .intercept r, result => ∀ answer, result = .ok (some answer) → SameRequest options r answer.origin
  | _, _ => True

theorem get_some {key : Text} {answer : Answer Num} (h : s.get key = some answer) :
    ∃ e ∈ s.entries, e.key = key ∧ e.origin = answer.origin := by
  rw [Store.get] at h
  split at h
  · split at h
    · cases h
    · cases h
    · rename_i e _ he
      cases h
      have hkey := find?_some he
      simp only [decide_eq_true_eq] at hkey
      exact ⟨e, mem_of_find?_eq_some he, hkey.1, rfl⟩
  · cases h

theorem written_perform {q : Query Num} (h : s.Written sha256 numerals options admits)
    (hq : Writes sha256 numerals options admits q) :
    (perform q s).2.Written sha256 numerals options admits := by
  cases q with
  | set key response ttl origin =>
    change (s.set key response ttl origin).Written sha256 numerals options admits
    rw [Store.set]
    split
    · intro e he
      rcases mem_cons.mp he with rfl | he
      · exact hq
      · exact h e (mem_of_mem_filter he)
    · exact h
  | remove keys => exact fun e he => h e (mem_of_mem_filter he)
  | _ => exact h

theorem body_keeps (hsha : Function.Injective sha256) (hgen : options.keyGenerator = none)
    (hadmits : ∀ r r', admits r → admits r' → r.Takes route ∧ Separated numerals options r r')
    (op : CacheOp Num) : (op.body sha256 numerals options).Keeps perform (fun _ _ => True)
      (Store.Written sha256 numerals options admits) (fun _ _ => Admitted admits op)
      (fun q _ => Writes sha256 numerals options admits q) (fun result _ => Answers options op result) s := by
  cases op with
  | remove keys | elapse d | foresee weather => exact fun _ _ _ _ => ⟨trivial, fun _ _ _ => trivial⟩
  | intercept r =>
    refine Task.keeps_ask.mpr fun s _ hs hr => ⟨trivial, ?_⟩
    have hr : admits r := hr
    change Task.Keeps perform _ _ _ _ _
      (Tasks.Task.bind (Tasks.Task.bind (.done (.ok (s.get (generateCacheKey sha256 numerals options r)))) _) _) _
    cases hget : s.get (generateCacheKey sha256 numerals options r) with
    | some answer =>
      intro _ _ _ answer' hanswer
      cases hanswer
      obtain ⟨e, he, hkey, horigin⟩ := get_some hget
      obtain ⟨hwritten, hadmitted⟩ := hs e he
      rw [← horigin]
      have hsep := hadmits r e.origin hr hadmitted
      exact (same_of_key_iff hsha hgen hsep.1 (hadmits e.origin r hadmitted hr).1).mpr hsep.2 (hkey.symm.trans hwritten)
    | none =>
      refine Task.keeps_ask.mpr fun s _ _ _ => ⟨trivial, ?_⟩
      change Task.Keeps perform _ _ _ _ _ (Tasks.Task.bind (Tasks.Task.bind (.done (s.weather.handle r)) _) _) _
      cases s.weather.handle r with
      | error e => exact fun _ _ _ answer hanswer => by cases hanswer
      | ok response =>
        refine Task.keeps_ask.mpr fun s _ _ _ => ⟨⟨rfl, hr⟩, ?_⟩
        intro _ _ _ answer hanswer
        cases hanswer
        exact SameRequest.refl options r

theorem answers_of_run (hsha : Function.Injective sha256) (hgen : options.keyGenerator = none)
    (hadmits : ∀ r r', admits r → admits r' → r.Takes route ∧ Separated numerals options r r')
    (hempty : s.entries = [])
    {tr : List (Transition (CachePool Num) (Turn (CacheOp Num)))}
    (hrun : Run (Pool.Step perform (CacheOp.body sha256 numerals options)) { store := s } tr p)
    (hstarts : ∀ t ∈ tr, ∀ r, t.label = .start (.intercept r) → admits r) :
    ∀ thread ∈ p.threads, ∀ result, thread.2 = .done result → Answers options thread.1 result := by
  have hkept : p.Kept perform (fun _ _ => True) (Store.Written sha256 numerals options admits)
      (fun op _ _ => Admitted admits op) (fun _ q _ => Writes sha256 numerals options admits q)
      (fun op result _ => Answers options op result) ∧ ∀ thread ∈ p.threads, Admitted admits thread.1 := by
    refine hrun.invariant (I := fun p => Pool.Kept perform (fun _ _ => True)
      (Store.Written sha256 numerals options admits) (fun op _ _ => Admitted admits op)
      (fun _ q _ => Writes sha256 numerals options admits q)
      (fun op result _ => Answers options op result) p ∧ ∀ thread ∈ p.threads, Admitted admits thread.1)
      ?_ hstarts fun t hstep hstart hpre => ?_
    · refine ⟨Pool.Kept.idle fun e he => ?_, fun thread hthread => absurd hthread not_mem_nil⟩
      rw [hempty] at he
      cases he
    · refine ⟨hpre.1.step (fun _ => trivial) (fun _ _ _ _ _ => trivial) (fun op _ _ => body_keeps hsha hgen hadmits op)
        (fun _ _ _ hs _ hq => ⟨trivial, written_perform hs hq⟩) hstep fun op q hq => ?_, ?_⟩
      · obtain ⟨i, next, -, hi⟩ := Pool.request_eq_some hq
        exact hpre.2 _ (mem_of_getElem? hi)
      · rcases hstep.cases with ⟨op, hlabel, hpost⟩ | ⟨i, op, q, next, -, hi, -, hpost⟩
        · rw [hpost]
          intro thread hthread
          rcases mem_append.mp hthread with hthread | hthread
          · exact hpre.2 thread hthread
          · rw [mem_singleton.mp hthread]
            cases op with
            | intercept r => exact hstart r hlabel
            | _ => trivial
        · rw [hpost]
          intro thread hthread
          rcases mem_or_eq_of_mem_set hthread with hthread | rfl
          · exact hpre.2 thread hthread
          · exact hpre.2 (op, .ask q next) (mem_of_getElem? hi)
  intro thread hthread result hresult
  have hdone := hkept.1.threads thread hthread
  rw [hresult] at hdone
  exact hdone p.store trivial hkept.1.store

/-- `GET /verification/claims/:id` for one claim. -/
def getClaim (id : String) : Request ℕ where
  method := "GET".toList
  route := some "/api/v1/verification/claims/:id".toList
  path := ("/api/v1/verification/claims/" ++ id).toList
  query := []
  body := none
  method_token := by decide
  query_wf := Value.wf_empty
  body_wf _ hb := by cases hb

def claimOptions : CacheResponseOptions ℕ := { ttl := 60 }

def claimDigest (t : Text) : Text :=
  if t = "GET::/api/v1/verification/claims/:id".toList then
    "3d6ac6fbe2c7f53e9e8a8b1fee4fd00752180321a7e5b2e2063c02b1e17035ee".toList
  else 'x' :: t

theorem claimDigest_injective : Function.Injective claimDigest := by
  intro t t' h
  simp only [claimDigest] at h
  split at h
  · split at h
    · rename_i ht ht'
      rw [ht, ht']
    · cases h
  · split at h
    · cases h
    · exact (cons.inj h).2

def requested (requests : List (Request ℕ)) :
    List (Transition (CachePool ℕ) (Turn (CacheOp ℕ))) × CachePool ℕ :=
  play (Pool.take perform (CacheOp.body claimDigest Numerals.nat claimOptions))
    { store := { weather := { handle := fun r => .ok (.str r.path) } } }
    (requests.mapIdx fun i r => [.start (.intercept r), .advance i, .advance i, .advance i]).flatten

theorem requested_run (requests : List (Request ℕ)) :
    Run (Pool.Step perform (CacheOp.body claimDigest Numerals.nat claimOptions))
      { store := { weather := { handle := fun r => .ok (.str r.path) } } }
      (requested requests).1 (requested requests).2 :=
  play_run (fun _ _ _ h => h) _ _

end Answers
end Soter.Cache
