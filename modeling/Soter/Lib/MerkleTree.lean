import Mathlib.Data.List.Basic

/-! Hash trees whose inner nodes hash their two children as an unordered pair, and the lists of
siblings that lead from a leaf to the root. -/
namespace Soter.MerkleTree

open List

variable {Item Digest Input : Type*}

/-- A hash function, with the way items and pairs of digests become inputs of it. -/
structure Hashing (Item Digest Input : Type*) where
  hash : Input → Digest
  leaf : Item → Input
  pair : Digest → Digest → Input

/-- The encoding forgets the order of a pair and nothing else, and no item looks like a pair. -/
structure Hashing.Separates (h : Hashing Item Digest Input) : Prop where
  pair_comm : ∀ a b, h.pair a b = h.pair b a
  pair_inj : ∀ a b c d, h.pair a b = h.pair c d → a = c ∧ b = d ∨ a = d ∧ b = c
  leaf_ne_pair : ∀ i a b, h.leaf i ≠ h.pair a b

/-- A finite binary tree with an item at every leaf. -/
inductive HashTree (Item : Type*)
  | leaf (item : Item)
  | node (left right : HashTree Item)

namespace HashTree
variable (h : Hashing Item Digest Input)

def root : HashTree Item → Digest
  | leaf item => h.hash (h.leaf item)
  | node left right => h.hash (h.pair left.root right.root)

/-- The digests at the leaves. -/
def leaves : HashTree Item → List Digest
  | leaf item => [h.hash (h.leaf item)]
  | node left right => left.leaves ++ right.leaves

/-- The digests at the inner nodes. -/
def inner : HashTree Item → List Digest
  | leaf _ => []
  | node left right => (node left right).root h :: (left.inner ++ right.inner)

/-- Everything that is hashed to build the tree. -/
def inputs : HashTree Item → List Input
  | leaf item => [h.leaf item]
  | node left right => h.pair (left.root h) (right.root h) :: (left.inputs ++ right.inputs)

end HashTree

variable {h : Hashing Item Digest Input}

/-- Nothing else has the digest of an input of the tree. -/
def Unambiguous (h : Hashing Item Digest Input) (T : HashTree Item) : Prop :=
  ∀ x ∈ T.inputs h, ∀ y, h.hash y = h.hash x → y = x

/-- Hash the way up from `start`, one sibling at a time. -/
def climb (h : Hashing Item Digest Input) (start : Digest) (siblings : List Digest) : Digest :=
  siblings.foldl (fun current sibling => h.hash (h.pair current sibling)) start

theorem climb_concat (start s : Digest) (siblings : List Digest) :
    climb h start (siblings ++ [s]) = h.hash (h.pair (climb h start siblings) s) := by
  unfold climb
  rw [foldl_append, foldl_cons, foldl_nil]

theorem Unambiguous.left {left right : HashTree Item} (hT : Unambiguous h (.node left right)) :
    Unambiguous h left :=
  fun x hx => hT x (mem_cons_of_mem _ (mem_append_left _ hx))

theorem Unambiguous.right {left right : HashTree Item} (hT : Unambiguous h (.node left right)) :
    Unambiguous h right :=
  fun x hx => hT x (mem_cons_of_mem _ (mem_append_right _ hx))

theorem exists_climb (hsep : h.Separates) (T : HashTree Item) (d : Digest) (hd : d ∈ T.leaves h) :
    ∃ siblings, climb h d siblings = T.root h := by
  induction T with
  | leaf item =>
    rw [HashTree.leaves, mem_singleton] at hd
    exact ⟨[], hd⟩
  | node left right ihl ihr =>
    rcases mem_append.mp hd with hl | hr
    · obtain ⟨siblings, hs⟩ := ihl hl
      refine ⟨siblings ++ [right.root h], ?_⟩
      rw [climb_concat, hs]
      rfl
    · obtain ⟨siblings, hs⟩ := ihr hr
      refine ⟨siblings ++ [left.root h], ?_⟩
      rw [climb_concat, hs, hsep.pair_comm]
      rfl

/-- Whatever siblings somebody makes up: an item from which they lead to the root is a leaf. The
induction follows the last sibling from the root down, where it must be a child of the tree. -/
theorem leaf_of_climb (hsep : h.Separates) (T : HashTree Item) (hT : Unambiguous h T) (i : Item) :
    ∀ siblings, climb h (h.hash (h.leaf i)) siblings = T.root h → h.hash (h.leaf i) ∈ T.leaves h := by
  induction T with
  | leaf item =>
    intro siblings hclimb
    rcases eq_nil_or_concat siblings with rfl | ⟨init, s, rfl⟩
    · have heq : h.hash (h.leaf i) = h.hash (h.leaf item) := hclimb
      rw [heq]
      exact mem_cons_self
    · rw [concat_eq_append, climb_concat] at hclimb
      have hpair := hT (h.leaf item) mem_cons_self _ hclimb
      exact absurd hpair.symm (hsep.leaf_ne_pair item _ _)
  | node left right ihl ihr =>
    intro siblings hclimb
    have hroot : h.pair (left.root h) (right.root h) ∈ (HashTree.node left right).inputs h :=
      mem_cons_self
    rcases eq_nil_or_concat siblings with rfl | ⟨init, s, rfl⟩
    · have hleaf := hT _ hroot (h.leaf i) hclimb
      exact absurd hleaf (hsep.leaf_ne_pair i _ _)
    · rw [concat_eq_append, climb_concat] at hclimb
      have hpair := hT _ hroot _ hclimb
      rcases hsep.pair_inj _ _ _ _ hpair with ⟨hchild, -⟩ | ⟨hchild, -⟩
      · exact mem_append_left _ (ihl hT.left init hchild)
      · exact mem_append_right _ (ihr hT.right init hchild)

theorem leaf_not_inner (hsep : h.Separates) (T : HashTree Item) (hT : Unambiguous h T) (i : Item) :
    h.hash (h.leaf i) ∉ T.inner h := by
  induction T with
  | leaf item => exact not_mem_nil
  | node left right ihl ihr =>
    intro hmem
    rcases mem_cons.mp hmem with hroot | hbelow
    · have hleaf := hT _ mem_cons_self (h.leaf i) hroot
      exact hsep.leaf_ne_pair i _ _ hleaf
    · rcases mem_append.mp hbelow with hl | hr
      · exact ihl hT.left hl
      · exact ihr hT.right hr

end Soter.MerkleTree
