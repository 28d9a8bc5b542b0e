import Mathlib.Data.Finset.Card

/-! Forests in which every node knows its parent: the walk up to the root of a node, and the walk down from
a root, breadth first. -/
namespace Soter.Forests
open Relation List

variable {K : Type*} {parent : K → Option K} {children : K → List K} {a b k r x y : K}

/-- `b` hangs under `a`. -/
def Under (parent : K → Option K) (a b : K) : Prop := parent b = some a

/-- The children are told once each, parents rank before their children, and the nodes that have a parent
are finitely many. -/
structure Forest (parent : K → Option K) (children : K → List K) : Prop where
  mem_children : ∀ a b, b ∈ children a ↔ parent b = some a
  once : ∀ a, (children a).Nodup
  ranked : ∃ rank : K → ℕ, ∀ a b, parent b = some a → rank a < rank b
  finite : ∃ nodes : List K, ∀ a b, parent b = some a → b ∈ nodes

def SameTree (parent : K → Option K) : K → K → Prop := EqvGen (Under parent)

/-- `r` is the root over `k`. -/
structure RootOf (parent : K → Option K) (r k : K) : Prop where
  top : parent r = none
  reaches : ReflTransGen (Under parent) r k

theorem RootOf.self (h : parent r = none) : RootOf parent r r := ⟨h, .refl⟩

theorem RootOf.child (h : RootOf parent r a) (hb : parent b = some a) : RootOf parent r b :=
  ⟨h.top, h.reaches.tail hb⟩

theorem RootOf.up (h : RootOf parent r b) (hb : parent b = some a) : RootOf parent r a := by
  refine ⟨h.top, ?_⟩
  rcases ReflTransGen.cases_tail h.reaches with heq | ⟨c, hover, hc⟩
  · rw [heq, h.top] at hb
    cases hb
  · have hca : some c = some a := Eq.trans (Eq.symm hc) hb
    cases hca
    exact hover

theorem RootOf.unique (h : RootOf parent r k) {r' : K} (h' : RootOf parent r' k) : r = r' := by
  induction h.reaches with
  | refl =>
    rcases ReflTransGen.cases_tail h'.reaches with heq | ⟨c, -, hc⟩
    · exact heq
    · have htop := h.top
      rw [show parent r = some c from hc] at htop
      cases htop
  | tail hover hc ih => exact ih ⟨h.top, hover⟩ (h'.up hc)

theorem RootOf.of_sameTree (h : RootOf parent r x) (hxy : SameTree parent x y) : RootOf parent r y := by
  have hiff : ∀ {x y}, SameTree parent x y → (RootOf parent r x ↔ RootOf parent r y) := by
    intro x y hxy
    induction hxy with
    | rel a b hab => exact ⟨fun h => h.child hab, fun h => h.up hab⟩
    | refl a => exact Iff.rfl
    | symm a b _ ih => exact ih.symm
    | trans a b c _ _ ih ih' => exact ih.trans ih'
  exact (hiff hxy).mp h

theorem RootOf.sameTree (h : RootOf parent r x) : SameTree parent r x := by
  induction h.reaches with
  | refl => exact .refl _
  | tail hover hc ih => exact .trans _ _ _ (ih ⟨h.top, hover⟩) (.rel _ _ hc)

theorem RootOf.sameTree_iff (h : RootOf parent r x) : SameTree parent x y ↔ RootOf parent r y :=
  ⟨h.of_sameTree, fun hy => .trans _ _ _ (.symm _ _ h.sameTree) hy.sameTree⟩

/-- The walk up, for so many steps at most. -/
def climb (parent : K → Option K) : ℕ → K → Option K
  | 0, _ => none
  | fuel + 1, k =>
    match parent k with
    | none => some k
    | some p => climb parent fuel p

theorem Forest.exists_root (h : Forest parent children) (k : K) :
    ∃ r n, RootOf parent r k ∧ ∀ fuel, n ≤ fuel → climb parent fuel k = some r := by
  obtain ⟨rank, hrank⟩ := h.ranked
  induction hn : rank k using Nat.strongRecOn generalizing k with
  | ind n ih =>
    cases hparent : parent k with
    | none =>
      refine ⟨k, 1, .self hparent, fun fuel hfuel => ?_⟩
      obtain ⟨m, rfl⟩ := Nat.exists_eq_add_of_le' hfuel
      rw [climb, hparent]
    | some p =>
      obtain ⟨r, n', hroot, hclimb⟩ := ih (rank p) (hn ▸ hrank p k hparent) p rfl
      refine ⟨r, n' + 1, hroot.child hparent, fun fuel hfuel => ?_⟩
      obtain ⟨m, rfl⟩ := Nat.exists_eq_add_of_le' (Nat.le_of_add_left_le hfuel)
      rw [climb, hparent]
      exact hclimb m (by omega)

section Down

/-- The walk down: the first of the queue is taken, and its children are put into the queue and the result. -/
def walk (children : K → List K) : ℕ → List K → List K → Option (List K)
  | 0, _, _ => none
  | _ + 1, [], results => some results
  | fuel + 1, k :: queue, results => walk children fuel (queue ++ children k) (results ++ children k)

/-- What holds at every turn of the walk from `r`: the result is what has been taken and what waits. -/
structure Walked (parent : K → Option K) (r : K) (taken queue results : List K) : Prop where
  split : results = taken ++ queue
  nodup : results.Nodup
  root : r ∈ results
  under : ∀ k ∈ results, RootOf parent r k
  /-- Who has been taken has its children in the result, and the result has no other children. -/
  closed : ∀ a b, parent b = some a → (b ∈ results ↔ a ∈ taken)
  ordered : ∀ before k after, results = before ++ k :: after → ∀ p, parent k = some p → p ∈ before

theorem Walked.start (h : parent r = none) : Walked parent r [] [r] [r] where
  split := rfl
  nodup := nodup_singleton r
  root := mem_singleton_self r
  under := by
    intro k hk
    rw [mem_singleton.mp hk]
    exact .self h
  closed := by
    intro a b hb
    constructor
    · intro hmem
      rw [mem_singleton.mp hmem, h] at hb
      cases hb
    · exact fun hmem => absurd hmem not_mem_nil
  ordered := by
    intro before k after heq p hp
    have hmem : k ∈ [r] := heq ▸ mem_append_right before mem_cons_self
    rw [mem_singleton.mp hmem, h] at hp
    cases hp

variable {taken queue results : List K}

/-- One turn of the walk. -/
theorem Walked.step (hforest : Forest parent children) (h : Walked parent r taken (k :: queue) results) :
    Walked parent r (taken ++ [k]) (queue ++ children k) (results ++ children k) := by
  have hk : k ∈ results := by
    rw [h.split]
    exact mem_append_right _ mem_cons_self
  have hnottaken : k ∉ taken := by
    intro hmem
    have hnodup := h.nodup
    rw [h.split] at hnodup
    exact (nodup_append.mp hnodup).2.2 k hmem k mem_cons_self rfl
  -- no child of the one that is taken now was in the result
  have hfresh : ∀ c ∈ children k, c ∉ results := fun c hc hmem =>
    hnottaken ((h.closed k c ((hforest.mem_children k c).mp hc)).mp hmem)
  constructor
  · rw [h.split, append_assoc, append_assoc]
    rfl
  · refine nodup_append.mpr ⟨h.nodup, hforest.once k, fun c hc c' hc' heq => ?_⟩
    rw [heq] at hc
    exact hfresh c' hc' hc
  · exact mem_append_left _ h.root
  · intro c hc
    rcases mem_append.mp hc with hc | hc
    · exact h.under c hc
    · exact (h.under k hk).child ((hforest.mem_children k c).mp hc)
  · intro a b hb
    rw [mem_append, mem_append, h.closed a b hb, mem_singleton, hforest.mem_children, hb, Option.some_inj]
  · intro before c after heq p hp
    rcases append_eq_append_iff.mp heq with ⟨rest, hbefore, hchildren⟩ | ⟨rest, hresults, hrest⟩
    · -- among the new ones
      have hc : c ∈ children k := by
        rw [hchildren]
        exact mem_append_right _ mem_cons_self
      have hpk : some p = some k := hp.symm.trans ((hforest.mem_children k c).mp hc)
      cases hpk
      rw [hbefore]
      exact mem_append_left _ hk
    · cases rest with
      | nil =>
        have hc : c ∈ children k := by
          rw [nil_append] at hrest
          rw [← hrest]
          exact mem_cons_self
        have hpk : some p = some k := hp.symm.trans ((hforest.mem_children k c).mp hc)
        cases hpk
        rw [append_nil] at hresults
        rw [← hresults]
        exact hk
      | cons c' rest =>
        obtain ⟨rfl, -⟩ := cons.inj hrest
        exact h.ordered before c rest hresults p hp

/-- The result of a walk from a root: its tree, each node once and after its parent. -/
structure Lists (parent : K → Option K) (r : K) (results : List K) : Prop where
  mem : ∀ k, k ∈ results ↔ RootOf parent r k
  nodup : results.Nodup
  ordered : ∀ before k after, results = before ++ k :: after → ∀ p, parent k = some p → p ∈ before

theorem Walked.lists (h : Walked parent r taken [] results) : Lists parent r results := by
  refine ⟨fun k => ⟨h.under k, fun hk => ?_⟩, h.nodup, h.ordered⟩
  have htaken : results = taken := h.split.trans (append_nil taken)
  induction hk.reaches with
  | refl => exact h.root
  | tail hover hc ih => exact (h.closed _ _ hc).mpr (htaken ▸ ih ⟨hk.top, hover⟩)

theorem Walked.ends (hforest : Forest parent children) {nodes : List K} (hnodes : ∀ k, RootOf parent r k → k ∈ nodes) :
    ∀ (fuel : ℕ) {taken queue results : List K}, Walked parent r taken queue results → nodes.length < fuel + taken.length →
      ∃ final, Lists parent r final ∧ ∀ n, fuel ≤ n → walk children n queue results = some final := by
  intro fuel
  induction fuel with
  | zero =>
    intro taken queue results h hfuel
    classical
    -- no more can be taken than there are
    have hsub : taken ⊆ nodes := fun k hk =>
      hnodes k (h.under k (by rw [h.split]; exact mem_append_left _ hk))
    have hnodup : taken.Nodup := by
      have hnodup := h.nodup
      rw [h.split] at hnodup
      exact (nodup_append.mp hnodup).1
    have hle : taken.length ≤ nodes.length := (subperm_of_subset hnodup hsub).length_le
    omega
  | succ fuel ih =>
    intro taken queue results h hfuel
    cases queue with
    | nil =>
      refine ⟨results, h.lists, fun n hn => ?_⟩
      obtain ⟨m, rfl⟩ := Nat.exists_eq_add_of_le' (Nat.le_of_add_left_le hn)
      rfl
    | cons k queue =>
      obtain ⟨final, hlists, hwalk⟩ := ih (h.step hforest) (by
        rw [length_append, length_singleton]
        omega)
      refine ⟨final, hlists, fun n hn => ?_⟩
      obtain ⟨m, rfl⟩ := Nat.exists_eq_add_of_le' (Nat.le_of_add_left_le hn)
      exact hwalk m (by omega)

theorem Forest.exists_walk (h : Forest parent children) (hr : parent r = none) :
    ∃ results n, Lists parent r results ∧ ∀ fuel, n ≤ fuel → walk children fuel [r] [r] = some results := by
  obtain ⟨nodes, hnodes⟩ := h.finite
  have hall : ∀ k, RootOf parent r k → k ∈ r :: nodes := by
    intro k hk
    rcases ReflTransGen.cases_tail hk.reaches with heq | ⟨c, -, hc⟩
    · rw [heq]
      exact mem_cons_self
    · exact mem_cons_of_mem _ (hnodes c k hc)
  obtain ⟨results, hlists, hwalk⟩ := Walked.ends h hall ((r :: nodes).length + 1) (.start hr) (by
    rw [length_nil]
    omega)
  exact ⟨results, _, hlists, hwalk⟩

end Down
end Soter.Forests
