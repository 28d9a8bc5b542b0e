import Mathlib.Data.List.Basic

/-! Runs of a labelled transition system, with every transition they took on record. -/
namespace Soter.Runs

open List

variable {σ ℓ : Type*}

/-- One transition: the state it left, its label and the state it reached. -/
structure Transition (σ ℓ : Type*) where
  pre : σ
  label : ℓ
  post : σ

/-- `Run step s tr s'`: the transitions `tr`, in this order, lead from `s` to `s'`. -/
inductive Run (step : σ → ℓ → σ → Prop) (s : σ) : List (Transition σ ℓ) → σ → Prop
  | nil : Run step s [] s
  | snoc {tr : List (Transition σ ℓ)} {s' : σ} {l : ℓ} {s'' : σ} :
      Run step s tr s' → step s' l s'' → Run step s (tr ++ [⟨s', l, s''⟩]) s''

variable {step : σ → ℓ → σ → Prop} {s s' s'' : σ} {tr tr' : List (Transition σ ℓ)}

variable {t : Transition σ ℓ} {I : σ → Prop} {C : Transition σ ℓ → Prop} {R : σ → σ → Prop}

theorem getElem?_snoc {α : Type*} {l : List α} {a b : α} {k : ℕ} (h : (l ++ [a])[k]? = some b) :
    l[k]? = some b ∨ k = l.length ∧ b = a := by
  rw [getElem?_append] at h
  split at h
  · exact .inl h
  · rename_i hk
    have hlast : k - l.length < 1 := by simpa using (List.getElem?_eq_some_iff.mp h).1
    have hk : k = l.length := by omega
    subst hk
    simp only [Nat.sub_self, getElem?_cons_zero, Option.some.injEq] at h
    exact .inr ⟨rfl, h.symm⟩

theorem Run.single {l : ℓ} (h : step s l s') : Run step s [⟨s, l, s'⟩] s' :=
  Run.snoc Run.nil h

theorem Run.append (h : Run step s tr s') (h' : Run step s' tr' s'') : Run step s (tr ++ tr') s'' := by
  induction h' with
  | nil => simpa using h
  | snoc _ hstep ih =>
    rw [← append_assoc]
    exact Run.snoc ih hstep

theorem Run.split (h : Run step s (tr ++ t :: tr') s') :
    Run step s tr t.pre ∧ step t.pre t.label t.post ∧ Run step t.post tr' s' := by
  generalize hw : tr ++ t :: tr' = whole at h
  induction h generalizing tr' with
  | nil => simp at hw
  | @snoc before a l b hbefore hstep ih =>
    rcases eq_nil_or_concat tr' with rfl | ⟨init, last, rfl⟩
    · obtain ⟨rfl, ht⟩ := append_inj' hw rfl
      cases ht
      exact ⟨hbefore, hstep, Run.nil⟩
    · rw [concat_eq_append, ← cons_append, ← append_assoc] at hw
      obtain ⟨hinit, hlast⟩ := append_inj' hw rfl
      cases hlast
      obtain ⟨hpre, hst, hpost⟩ := ih hinit
      rw [concat_eq_append]
      exact ⟨hpre, hst, Run.snoc hpost hstep⟩

/-- The run up to the state that its transition at `n` reaches. -/
theorem Run.upto {n : ℕ} (h : Run step s tr s') (ht : tr[n]? = some t) :
    Run step s (tr.take (n + 1)) t.post := by
  obtain ⟨hn, rfl⟩ := List.getElem?_eq_some_iff.mp ht
  have hcut : tr = tr.take n ++ tr[n] :: tr.drop (n + 1) := by
    rw [getElem_cons_drop, take_append_drop]
  rw [hcut] at h
  obtain ⟨hbefore, hstep, -⟩ := h.split
  rw [take_add_one, getElem?_eq_getElem hn, Option.toList_some]
  exact hbefore.snoc hstep

theorem Run.step_of_mem (h : Run step s tr s') (ht : t ∈ tr) : step t.pre t.label t.post := by
  obtain ⟨before, after, rfl⟩ := append_of_mem ht
  exact h.split.2.1

/-- What holds at the start and is kept by every transition that meets `C` holds at the end of a
run whose transitions all meet it. -/
theorem Run.invariant (h : Run step s tr s') (hs : I s) (hC : ∀ t ∈ tr, C t)
    (hI : ∀ t : Transition σ ℓ, step t.pre t.label t.post → C t → I t.pre → I t.post) : I s' := by
  induction h with
  | nil => exact hs
  | @snoc tr a l b _ hstep ih =>
    have hlast : C ⟨a, l, b⟩ := hC _ (by simp)
    exact hI ⟨a, l, b⟩ hstep hlast (ih fun t ht => hC t (by simp [ht]))

theorem Run.invariant_at (h : Run step s tr s') (hs : I s) (hC : ∀ t ∈ tr, C t)
    (hI : ∀ t : Transition σ ℓ, step t.pre t.label t.post → C t → I t.pre → I t.post) (ht : t ∈ tr) : I t.pre ∧ I t.post := by
  obtain ⟨before, after, rfl⟩ := append_of_mem ht
  obtain ⟨hbefore, hstep, -⟩ := h.split
  have hpre : I t.pre :=
    hbefore.invariant hs (fun t' ht' => hC t' (mem_append_left _ ht')) hI
  exact ⟨hpre, hI t hstep (hC t ht) hpre⟩

/-- If a transition keeps `I` exactly when it meets `C`, then a run keeps `I` throughout exactly
when all of its transitions meet `C`. -/
theorem Run.forall_post_iff (h : Run step s tr s') (hs : I s) (hI : ∀ t ∈ tr, I t.pre → (I t.post ↔ C t)) :
    (∀ t ∈ tr, I t.post) ↔ ∀ t ∈ tr, C t := by
  suffices hboth : ((∀ t ∈ tr, I t.post) ↔ ∀ t ∈ tr, C t) ∧ ((∀ t ∈ tr, I t.post) → I s') from
    hboth.1
  induction h with
  | nil => exact ⟨by simp, fun _ => hs⟩
  | @snoc tr a l b _ hstep ih =>
    obtain ⟨hiff, hend⟩ := ih fun t ht => hI t (mem_append_left _ ht)
    have hlast := hI ⟨a, l, b⟩ (by simp)
    simp only [forall_mem_append, forall_mem_singleton]
    refine ⟨⟨fun hpost => ?_, fun hC => ?_⟩, fun hpost => hpost.2⟩
    · exact ⟨hiff.mp hpost.1, (hlast (hend hpost.1)).mp hpost.2⟩
    · have hbefore := hiff.mpr hC.1
      exact ⟨hbefore, (hlast (hend hbefore)).mpr hC.2⟩

theorem Run.related (h : Run step s tr s')
    (hrefl : ∀ a, R a a) (htrans : ∀ a b c, R a b → R b c → R a c) (hC : ∀ t ∈ tr, C t)
    (hR : ∀ t : Transition σ ℓ, step t.pre t.label t.post → C t → R t.pre t.post) : R s s' :=
  h.invariant (I := R s) (hrefl s) hC fun t ht hc hpre =>
    htrans _ _ _ hpre (hR t ht hc)

theorem Run.pairwise_pre (h : Run step s tr s') (hrefl : ∀ a, R a a)
    (htrans : ∀ a b c, R a b → R b c → R a c) (hR : ∀ t ∈ tr, R t.pre t.post) :
    tr.Pairwise fun t t' => R t.post t'.pre := by
  suffices hboth : (tr.Pairwise fun t t' => R t.post t'.pre) ∧ ∀ t ∈ tr, R t.post s' from hboth.1
  induction h with
  | nil => exact ⟨List.Pairwise.nil, by simp⟩
  | @snoc tr a l b _ _ ih =>
    obtain ⟨hpairs, hend⟩ := ih fun t ht => hR t (mem_append_left _ ht)
    have hlast : R a b := hR ⟨a, l, b⟩ (by simp)
    refine ⟨pairwise_append.mpr ⟨hpairs, pairwise_singleton _ _, fun t ht t' ht' => ?_⟩, ?_⟩
    · rw [mem_singleton.mp ht']
      exact hend t ht
    · rw [forall_mem_append, forall_mem_singleton]
      exact ⟨fun t ht => htrans _ _ _ (hend t ht) hlast, hrefl b⟩

theorem Run.pairwise_post (h : Run step s tr s') (hrefl : ∀ a, R a a)
    (htrans : ∀ a b c, R a b → R b c → R a c) (hR : ∀ t ∈ tr, R t.pre t.post) :
    tr.Pairwise fun t t' => R t.post t'.post :=
  (h.pairwise_pre hrefl htrans hR).imp_of_mem fun _ ht' hpre => htrans _ _ _ hpre (hR _ ht')

section Refinement
variable {κ : Type*} {fine : σ → κ → σ → Prop} {D : Transition σ κ → Prop}

/-- `Refines`: every coarse step that meets `C` is a run of fine steps that all meet `D`. -/
def Refines (step : σ → ℓ → σ → Prop) (fine : σ → κ → σ → Prop) (C : Transition σ ℓ → Prop)
    (D : Transition σ κ → Prop) : Prop :=
  ∀ t : Transition σ ℓ, step t.pre t.label t.post → C t →
    ∃ acts, Run fine t.pre acts t.post ∧ ∀ a ∈ acts, D a

theorem Run.invariant_of_refines {I : σ → Prop} (href : Refines step fine C D)
    (hI : ∀ a : Transition σ κ, fine a.pre a.label a.post → D a → I a.pre → I a.post)
    (h : Run step s tr s') (hs : I s) (hC : ∀ t ∈ tr, C t) : I s' := by
  refine h.invariant hs hC fun t ht hc hpre => ?_
  obtain ⟨acts, hacts, hD⟩ := href t ht hc
  exact hacts.invariant hpre hD hI

end Refinement

section Play

/-- Try the labels one after the other, leaving out those that are refused. -/
def play (f : σ → ℓ → Option σ) : σ → List ℓ → List (Transition σ ℓ) × σ
  | s, [] => ([], s)
  | s, l :: ls =>
    match f s l with
    | none => play f s ls
    | some s' => (⟨s, l, s'⟩ :: (play f s' ls).1, (play f s' ls).2)

variable {f : σ → ℓ → Option σ}

theorem play_run (hf : ∀ s l s', f s l = some s' → step s l s') :
    ∀ (ls : List ℓ) (s : σ), Run step s (play f s ls).1 (play f s ls).2
  | [], _ => Run.nil
  | l :: ls, s => by
    rw [play]
    cases hfs : f s l with
    | none => exact play_run hf ls s
    | some s' => exact (Run.single (hf s l s' hfs)).append (play_run hf ls s')

theorem play_labels : ∀ (ls : List ℓ) (s : σ), ∀ t ∈ (play f s ls).1, t.label ∈ ls
  | [], _, t, ht => by
    rw [play] at ht
    cases ht
  | l :: ls, s, t, ht => by
    rw [play] at ht
    cases hfs : f s l with
    | none =>
      rw [hfs] at ht
      exact mem_cons_of_mem l (play_labels ls s t ht)
    | some s' =>
      rw [hfs] at ht
      rcases mem_cons.mp ht with rfl | ht
      · exact mem_cons_self
      · exact mem_cons_of_mem l (play_labels ls s' t ht)

end Play
end Soter.Runs
