import Mathlib.Data.List.Sort

/-! Tables with a key: pages of rows in the order of the key, each after the row that a cursor names, and upserts. -/
namespace Soter.Keyset

open List

variable {α K : Type*} [DecidableEq K] {key : α → K} {rows : List α} {x y : α}

variable (key) in
def after (cursor : Option K) (rows : List α) : List α :=
  match cursor with
  | none => rows
  | some k => (rows.dropWhile fun row => decide (key row ≠ k)).drop 1

variable (key) in
theorem after_suffix (cursor : Option K) (rows : List α) : after key cursor rows <:+ rows := by
  cases cursor with
  | none => exact suffix_rfl
  | some k => exact (drop_suffix 1 _).trans (dropWhile_suffix _)

theorem after_append {rest : List α} (before : List α) (hnodup : (rows.map key).Nodup) (hrows : rows = before ++ x :: rest) :
    after key (some (key x)) rows = rest := by
  subst hrows
  rw [map_append, map_cons] at hnodup
  have hbefore : ∀ row ∈ before, decide (key row ≠ key x) = true := by
    intro row hrow
    refine decide_eq_true fun heq => ?_
    exact disjoint_of_nodup_append hnodup (mem_map_of_mem hrow) (heq ▸ mem_cons_self)
  change ((before ++ x :: rest).dropWhile _).drop 1 = rest
  rw [dropWhile_append_of_pos hbefore, dropWhile_cons_of_neg (by simp)]
  rfl

theorem after_last {cursor : Option K} {page rest : List α} (hnodup : (rows.map key).Nodup)
    (hpage : after key cursor rows = page ++ rest) (hlast : page.getLast? = some x) :
    after key (some (key x)) rows = rest := by
  obtain ⟨before, hbefore⟩ := after_suffix key cursor rows
  obtain ⟨init, rfl⟩ := getLast?_eq_some_iff.mp hlast
  rw [hpage] at hbefore
  refine after_append (before ++ init) hnodup ?_
  rw [← hbefore]
  simp

variable (key) in
def upsert (x : α) (rows : List α) : List α :=
  if rows.any (key · = key x) then rows.map fun row => if key row = key x then x else row else rows ++ [x]

theorem mem_upsert : y ∈ upsert key x rows ↔ y = x ∨ y ∈ rows ∧ key y ≠ key x := by
  rw [upsert]
  split
  · rename_i hany
    obtain ⟨old, hold, hkey⟩ := any_eq_true.mp hany
    rw [mem_map]
    constructor
    · intro h
      obtain ⟨row, hrow, rfl⟩ := h
      split
      · exact .inl rfl
      · rename_i hne
        exact .inr ⟨hrow, hne⟩
    · intro h
      rcases h with rfl | ⟨hy, hne⟩
      · exact ⟨old, hold, if_pos (of_decide_eq_true hkey)⟩
      · exact ⟨y, hy, if_neg hne⟩
  · rename_i hnone
    have hothers : y ∈ rows → key y ≠ key x := by
      intro hy heq
      exact hnone (any_eq_true.mpr ⟨y, hy, decide_eq_true heq⟩)
    rw [mem_append, mem_singleton]
    constructor
    · intro h
      rcases h with hy | rfl
      · exact .inr ⟨hy, hothers hy⟩
      · exact .inl rfl
    · intro h
      rcases h with rfl | ⟨hy, -⟩
      · exact .inr rfl
      · exact .inl hy

theorem nodup_upsert (h : (rows.map key).Nodup) : ((upsert key x rows).map key).Nodup := by
  rw [upsert]
  split
  · have hkeys : (rows.map fun row => if key row = key x then x else row).map key = rows.map key := by
      rw [map_map]
      refine map_congr_left fun row _ => ?_
      by_cases heq : key row = key x
      · exact (congrArg key (if_pos heq)).trans heq.symm
      · exact congrArg key (if_neg heq)
    rw [hkeys]
    exact h
  · rename_i hnone
    rw [map_append, map_singleton]
    refine nodup_append.mpr ⟨h, nodup_singleton _, fun k hk k' hk' heq => ?_⟩
    obtain ⟨row, hrow, hkey⟩ := mem_map.mp hk
    rw [mem_singleton.mp hk'] at heq
    exact hnone (any_eq_true.mpr ⟨row, hrow, decide_eq_true (hkey.trans heq)⟩)

theorem countP_key_le_one (h : (rows.map key).Nodup) (k : K) : rows.countP (fun row => decide (key row = k)) ≤ 1 := by
  have hcount : rows.countP (fun row => decide (key row = k)) = (rows.map key).count k := by
    rw [count_eq_countP, countP_map]
    refine countP_congr fun row _ => ?_
    simp
  rw [hcount]
  exact nodup_iff_count_le_one.mp h k

section Descending
variable {O : Type*} [LinearOrder O] {key : α → O}

variable (key) in
def descending (rows : List α) : List α := rows.insertionSort fun a b => key b ≤ key a

variable (key) in
theorem descending_perm (rows : List α) : (descending key rows).Perm rows := perm_insertionSort _ rows

theorem descending_sorted (rows : List α) : (descending key rows).Pairwise fun a b => key b ≤ key a := by
  have htotal : Std.Total fun a b : α => key b ≤ key a := ⟨fun a b => le_total (key b) (key a)⟩
  have htrans : IsTrans α fun a b => key b ≤ key a := ⟨fun _ _ _ hab hbc => hbc.trans hab⟩
  exact pairwise_insertionSort _ rows

theorem descending_strict (hnodup : (rows.map key).Nodup) : (descending key rows).Pairwise fun a b => key b < key a := by
  have hkeys : ((descending key rows).map key).Nodup :=
    ((descending_perm key rows).map key).nodup_iff.mpr hnodup
  have hne : (descending key rows).Pairwise fun a b => key a ≠ key b := pairwise_map.mp hkeys
  exact (descending_sorted rows).imp₂ (fun _ _ hle hne => lt_of_le_of_ne hle hne.symm) hne

theorem descending_filter (hnodup : (rows.map key).Nodup) (keep : α → Bool) :
    descending key (rows.filter keep) = (descending key rows).filter keep := by
  have hperm : (descending key (rows.filter keep)).Perm ((descending key rows).filter keep) :=
    (descending_perm key _).trans ((descending_perm key rows).filter keep).symm
  refine hperm.eq_of_pairwise ?_ (descending_sorted _) ((descending_sorted rows).filter keep)
  intro a b ha hb hle hle'
  have hmem {z : α} (hz : z ∈ descending key (rows.filter keep)) : z ∈ rows :=
    mem_of_mem_filter ((descending_perm key _).subset hz)
  exact inj_on_of_nodup_map hnodup (hmem ha) (hmem (hperm.symm.subset hb)) (le_antisymm hle' hle)

theorem filter_lt_of_split {before rest : List α} (hnodup : (rows.map key).Nodup)
    (hsplit : descending key rows = before ++ x :: rest) :
    descending key (rows.filter fun y => key y < key x) = rest := by
  have hstrict := descending_strict hnodup
  rw [hsplit] at hstrict
  obtain ⟨-, hrest, hbefore⟩ := pairwise_append.mp hstrict
  have hdrop : before.filter (fun y => decide (key y < key x)) = [] := by
    apply filter_eq_nil_iff.mpr
    intro y hy hlt
    exact lt_asymm (hbefore y hy x mem_cons_self) (of_decide_eq_true hlt)
  have hkeep : rest.filter (fun y => decide (key y < key x)) = rest := by
    apply filter_eq_self.mpr
    intro y hy
    exact decide_eq_true ((pairwise_cons.mp hrest).1 y hy)
  rw [descending_filter hnodup, hsplit, filter_append, hdrop, nil_append, filter_cons_of_neg (by simp), hkeep]

end Descending
section Follow
variable {C E : Type*} {answer : Option C → Except E (List α × Option C)} {limit : ℕ}

/-- The pages that are read one after the other, each at the cursor that came with the last one, until a page
comes without one; `none` when the fuel ends before that. -/
def follow (answer : Option C → Except E (List α × Option C)) : ℕ → Option C → Option (Except E (List (List α)))
  | 0, _ => none
  | fuel + 1, cursor =>
    match answer cursor with
    | .error e => some (.error e)
    | .ok (page, none) => some (.ok [page])
    | .ok (page, some next) => (follow answer fuel (some next)).map fun pages => pages.map (page :: ·)

/-- Whatever is left at a cursor, the answer takes the first rows of it and names a cursor at which the others
are left, if there are any. -/
def Pages (answer : Option C → Except E (List α × Option C)) (limit : ℕ) (Left : Option C → List α → Prop) : Prop :=
  ∀ cursor rows, Left cursor rows → ∃ next, answer cursor = .ok (rows.take limit, next) ∧
    (next = none → rows.length ≤ limit) ∧ ∀ c, next = some c → limit < rows.length ∧ Left (some c) (rows.drop limit)

/-- All of what was left is read, in full pages but for the last one. -/
theorem follow_pages {Left : Option C → List α → Prop} (hpages : Pages answer limit Left) (hlimit : 0 < limit) :
    ∀ {fuel : ℕ} {cursor : Option C} {rows : List α}, Left cursor rows → rows.length < fuel →
      ∃ pages, follow answer fuel cursor = some (.ok pages) ∧ pages.flatten = rows ∧
        ∀ page ∈ pages, page.length ≤ limit := by
  intro fuel
  induction fuel with
  | zero =>
    intro cursor rows hleft hfuel
    exact absurd hfuel (Nat.not_lt_zero _)
  | succ fuel ih =>
    intro cursor rows hleft hfuel
    obtain ⟨next, hanswer, hlast, hmore⟩ := hpages cursor rows hleft
    have hpage : (rows.take limit).length ≤ limit := length_take_le _ _
    cases next with
    | none =>
      refine ⟨[rows.take limit], ?_, ?_, ?_⟩
      · rw [follow, hanswer]
      · rw [flatten_singleton, take_of_length_le (hlast rfl)]
      · intro page hpage'
        rw [mem_singleton.mp hpage']
        exact hpage
    | some c =>
      obtain ⟨hlong, hleft'⟩ := hmore c rfl
      have hfuel' : (rows.drop limit).length < fuel := by
        rw [length_drop]
        omega
      obtain ⟨pages, hfollow, hflatten, hlengths⟩ := ih hleft' hfuel'
      refine ⟨rows.take limit :: pages, ?_, ?_, ?_⟩
      · rw [follow, hanswer]
        dsimp only
        rw [hfollow]
        rfl
      · rw [flatten_cons, hflatten, take_append_drop]
      · exact forall_mem_cons.mpr ⟨hpage, hlengths⟩

end Follow
end Soter.Keyset
