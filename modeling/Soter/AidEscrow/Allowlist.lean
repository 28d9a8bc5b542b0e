import Mathlib.Data.List.Nodup
import Soter.AidEscrow.Merkle
import Soter.Lib.MerkleTree

/-! The Merkle allowlist: the proofs that the contract accepts are those of the leaves. -/
namespace Soter.AidEscrow
open Soter.Fallible Soter.MerkleTree List

section Hex

def isHexDigit (c : UInt8) : Bool :=
  (48 ≤ c && c ≤ 57) || (97 ≤ c && c ≤ 102) || (65 ≤ c && c ≤ 70)

def toLowerCase (c : UInt8) : UInt8 := if 65 ≤ c ∧ c ≤ 90 then c + 32 else c

def hexDigitOf (n : UInt8) : UInt8 := if n < 10 then 48 + n else 87 + n

def hexText : List UInt8 → Text
  | [] => []
  | b :: bs => hexDigitOf (b >>> 4) :: hexDigitOf (b &&& 15) :: hexText bs

variable {s : Text} {b : Bytes32}

theorem forall_byte {P : UInt8 → Prop} (h : ∀ n < 256, P (UInt8.ofNat n)) (b : UInt8) : P b := by
  have hb := h b.toNat b.toNat_lt
  rwa [UInt8.ofNat_toNat] at hb

theorem hexNibble_isSome : ∀ c : UInt8, (hexNibble c).isSome = isHexDigit c := by
  apply forall_byte
  decide +kernel

theorem hexNibble_toLowerCase : ∀ c : UInt8, hexNibble (toLowerCase c) = hexNibble c := by
  apply forall_byte
  decide +kernel

theorem hexNibble_digits : ∀ b : UInt8, hexNibble (hexDigitOf (b >>> 4)) = some (b >>> 4) ∧
      hexNibble (hexDigitOf (b &&& 15)) = some (b &&& 15) ∧ (b >>> 4) <<< 4 ||| (b &&& 15) = b := by
  apply forall_byte
  decide +kernel

structure IsHex64 (s : Text) : Prop where
  length : s.length = 64
  digits : ∀ c ∈ s, isHexDigit c = true

theorem parseHexPairs_hexText (bs : List UInt8) : parseHexPairs (hexText bs) = some bs := by
  induction bs with
  | nil => rfl
  | cons b bs ih =>
    obtain ⟨hhigh, hlow, hbyte⟩ := hexNibble_digits b
    simp [hexText, parseHexPairs, hhigh, hlow, hbyte, ih]

theorem length_hexText (bs : List UInt8) : (hexText bs).length = 2 * bs.length := by
  induction bs with
  | nil => rfl
  | cons b bs ih =>
    simp only [hexText, length_cons, ih]
    omega

theorem parseHexPairs_eq_some {out : List UInt8} (h : parseHexPairs s = some out) :
    s.length = 2 * out.length ∧ ∀ c ∈ s, isHexDigit c = true := by
  induction s using parseHexPairs.induct generalizing out with
  | case1 =>
    cases h
    simp
  | case2 => cases h
  | case3 hi lo rest ih =>
    simp only [parseHexPairs, Option.bind_eq_bind, Option.bind_eq_some_iff, Option.pure_def, Option.some.injEq] at h
    obtain ⟨x, hx, y, hy, tail, htail, rfl⟩ := h
    obtain ⟨hlength, hdigits⟩ := ih htail
    have hhi : isHexDigit hi = true := by rw [← hexNibble_isSome, hx, Option.isSome_some]
    have hlo : isHexDigit lo = true := by rw [← hexNibble_isSome, hy, Option.isSome_some]
    constructor
    · simp only [length_cons, hlength]
      omega
    · intro c hc
      rcases mem_cons.mp hc with rfl | hc
      · exact hhi
      · rcases mem_cons.mp hc with rfl | hc
        · exact hlo
        · exact hdigits c hc

theorem parseHexPairs_isSome (h : ∀ c ∈ s, isHexDigit c = true)
    (heven : s.length % 2 = 0) : ∃ out, parseHexPairs s = some out := by
  induction s using parseHexPairs.induct with
  | case1 => exact ⟨[], rfl⟩
  | case2 c => simp at heven
  | case3 hi lo rest ih =>
    simp only [mem_cons, forall_eq_or_imp, ← hexNibble_isSome] at h
    obtain ⟨hhi, hlo, hrest⟩ := h
    obtain ⟨x, hx⟩ := Option.isSome_iff_exists.mp hhi
    obtain ⟨y, hy⟩ := Option.isSome_iff_exists.mp hlo
    have hlength : rest.length % 2 = 0 := by
      simp only [length_cons] at heven
      omega
    obtain ⟨out, hout⟩ := ih (by simpa only [hexNibble_isSome] using hrest) hlength
    simp only [parseHexPairs, hx, hy, hout]
    exact ⟨_, rfl⟩

theorem parseHexPairs_toLowerCase (s : Text) : parseHexPairs (s.map toLowerCase) = parseHexPairs s := by
  induction s using parseHexPairs.induct with
  | case1 | case2 => rfl
  | case3 hi lo rest ih =>
    simp only [map_cons, parseHexPairs, hexNibble_toLowerCase, ih]

theorem parseHex32_eq_some : parseHex32 s = some b ↔ s.length = 64 ∧ parseHexPairs s = some b.bytes := by
  unfold parseHex32
  by_cases hlength : s.length = 64
  · simp only [hlength, ne_eq, not_true_eq_false, ↓reduceIte, true_and]
    rcases Option.eq_none_or_eq_some (parseHexPairs s) with hnone | ⟨out, hout⟩
    · simp [hnone]
    · have hlen := (parseHexPairs_eq_some hout).1
      have hout32 : out.length = 32 := by omega
      simp only [hout, hout32, ↓reduceDIte, Option.some.injEq]
      constructor
      · rintro rfl
        rfl
      · rintro rfl
        rfl
  · simp [hlength]

theorem parseHex32_hexText (b : Bytes32) : parseHex32 (hexText b.bytes) = some b := by
  rw [parseHex32_eq_some, length_hexText, b.length_eq]
  exact ⟨rfl, parseHexPairs_hexText b.bytes⟩

theorem IsHex64.of_parseHex32 (h : parseHex32 s = some b) : IsHex64 s := by
  obtain ⟨hlength, hpairs⟩ := parseHex32_eq_some.mp h
  exact ⟨hlength, (parseHexPairs_eq_some hpairs).2⟩

theorem parseHex32_toLowerCase (s : Text) : parseHex32 (s.map toLowerCase) = parseHex32 s := by
  unfold parseHex32
  rw [length_map, parseHexPairs_toLowerCase]

end Hex

variable {τ : Type} {H : Host τ}

/-- The hashes of the allowlist: a leaf hashes an address string, an inner node the smaller and
then the larger of its children's values. -/
def allowlistHash (H : Host τ) : Hashing Address Bytes32 (List UInt8) where
  hash := H.sha256
  leaf := H.addressString
  pair l r := if l.bytes ≤ r.bytes then l.bytes ++ r.bytes else r.bytes ++ l.bytes

variable {proof : List Text} {T : HashTree Address} {a : Address}

theorem bytes32_ext {a b : Bytes32} (h : a.bytes = b.bytes) : a = b := by
  cases a
  cases b
  cases h
  rfl

theorem allowlistHash_separates (haddr : ∀ a, (H.addressString a).length = 56) : (allowlistHash H).Separates where
  pair_comm a b := by
    change ite _ _ _ = ite _ _ _
    by_cases hab : a.bytes ≤ b.bytes
    · by_cases hba : b.bytes ≤ a.bytes
      · rw [if_pos hab, if_pos hba, List.le_antisymm hab hba]
      · rw [if_pos hab, if_neg hba]
    · have hba : b.bytes ≤ a.bytes := (List.le_total b.bytes a.bytes).resolve_right hab
      rw [if_neg hab, if_pos hba]
  pair_inj a b c d hpair := by
    have hsplit : ∀ x y z u : Bytes32, x.bytes ++ y.bytes = z.bytes ++ u.bytes →
        x = z ∧ y = u := by
      intro x y z u heq
      obtain ⟨hx, hy⟩ := append_inj heq (by rw [x.length_eq, z.length_eq])
      exact ⟨bytes32_ext hx, bytes32_ext hy⟩
    change ite _ _ _ = ite _ _ _ at hpair
    split_ifs at hpair
    · exact .inl (hsplit a b c d hpair)
    · exact .inr (hsplit a b d c hpair)
    · exact .inr (hsplit b a c d hpair).symm
    · exact .inl (hsplit b a d c hpair).symm
  leaf_ne_pair i a b heq := by
    have hlength : ((allowlistHash H).pair a b).length = 64 := by
      change length (ite _ _ _) = 64
      split <;> rw [length_append, a.length_eq, b.length_eq]
    have hleaf : ((allowlistHash H).leaf i).length = 56 := haddr i
    rw [heq, hlength] at hleaf
    exact absurd hleaf (by decide)

theorem foldProof_eq_some {current root : Bytes32} : foldProof H proof current = some root ↔ ∃ siblings,
      Forall₂ (fun s b => parseHex32 s = some b) proof siblings ∧
        climb (allowlistHash H) current siblings = root := by
  induction proof generalizing current with
  | nil =>
    simp only [foldProof, Option.some.injEq, forall₂_nil_left_iff, exists_eq_left]
    rfl
  | cons s rest ih =>
    rcases Option.eq_none_or_eq_some (parseHex32 s) with hnone | ⟨b, hb⟩
    · simp only [foldProof, hnone, forall₂_cons_left_iff, reduceCtorEq, false_and, exists_false]
    · have hstep : (if current.bytes ≤ b.bytes then hashPair H current b
          else hashPair H b current) =
          (allowlistHash H).hash ((allowlistHash H).pair current b) := by
        change ite _ _ _ = H.sha256 (ite _ _ _)
        split <;> rfl
      simp only [foldProof, hb, hstep, ih, forall₂_cons_left_iff, Option.some.injEq]
      constructor
      · rintro ⟨siblings, hread, hclimb⟩
        exact ⟨b :: siblings, ⟨b, siblings, rfl, hread, rfl⟩, hclimb⟩
      · rintro ⟨_, ⟨_, siblings, rfl, hread, rfl⟩, hclimb⟩
        exact ⟨siblings, hread, hclimb⟩

theorem verify_eq (haddr : ∀ a, (H.addressString a).length = 56) (a : Address)
    (proof : List Text) (root : Bytes32) : verifyMerkleProofForClaimant H a proof root =
      .ok (decide (foldProof H proof (H.sha256 (H.addressString a)) = some root)) := by
  have hfits : (H.addressString a).length ≤ 96 := by rw [haddr a]; decide
  simp only [verifyMerkleProofForClaimant, hashAddress, require_of hfits, ok_bind]
  rfl

theorem leaf_of_verify (haddr : ∀ a, (H.addressString a).length = 56) (hsha : Unambiguous (allowlistHash H) T)
    (h : verifyMerkleProofForClaimant H a proof (T.root (allowlistHash H)) = .ok true) :
    H.sha256 (H.addressString a) ∈ T.leaves (allowlistHash H) := by
  rw [verify_eq haddr, Except.ok.injEq, decide_eq_true_eq] at h
  obtain ⟨siblings, -, hclimb⟩ := foldProof_eq_some.mp h
  exact leaf_of_climb (allowlistHash_separates haddr) T hsha a siblings hclimb

theorem exists_proof_of_leaf (haddr : ∀ a, (H.addressString a).length = 56) (h : H.sha256 (H.addressString a) ∈ T.leaves (allowlistHash H)) :
    ∃ proof : List Text, (∀ s ∈ proof, IsHex64 s) ∧
      verifyMerkleProofForClaimant H a proof (T.root (allowlistHash H)) = .ok true := by
  obtain ⟨siblings, hclimb⟩ := exists_climb (allowlistHash_separates haddr) T _ h
  have hread : Forall₂ (fun s b => parseHex32 s = some b) (siblings.map fun b => hexText b.bytes) siblings := by
    rw [forall₂_map_left_iff]
    exact forall₂_same.mpr fun b _ => parseHex32_hexText b
  refine ⟨siblings.map fun b => hexText b.bytes, ?_, ?_⟩
  · intro s hs
    obtain ⟨b, -, rfl⟩ := mem_map.mp hs
    exact IsHex64.of_parseHex32 (parseHex32_hexText b)
  · rw [verify_eq haddr, Except.ok.injEq, decide_eq_true_eq]
    exact foldProof_eq_some.mpr ⟨siblings, hread, hclimb⟩

theorem foldProof_toLowerCase (proof : List Text) (current : Bytes32) :
    foldProof H (proof.map fun s => s.map toLowerCase) current = foldProof H proof current := by
  induction proof generalizing current with
  | nil => rfl
  | cons s rest ih =>
    rw [map_cons]
    rcases Option.eq_none_or_eq_some (parseHex32 s) with hnone | ⟨b, hb⟩
    · simp only [foldProof, parseHex32_toLowerCase, hnone]
    · simp only [foldProof, parseHex32_toLowerCase, hb, ih]

/-- The contract accepts an address for the root of a tree, with some list of siblings, exactly if
the hash of the address is a leaf of the tree. Nothing else passes: no list of texts of any length
makes up for a missing leaf, and no address hashes to an inner node. Of `sha256` this needs that
no input hashed in the tree has a second preimage, which an injective function grants. -/
theorem allowlist_exact (H : Host τ) (haddr : ∀ a, (H.addressString a).length = 56)
    (T : HashTree Address) (hsha : Unambiguous (allowlistHash H) T) (a : Address) :
    ((∃ proof : List Text, (∀ s ∈ proof, IsHex64 s) ∧
        verifyMerkleProofForClaimant H a proof (T.root (allowlistHash H)) = .ok true) ↔
      H.sha256 (H.addressString a) ∈ T.leaves (allowlistHash H)) ∧
    (H.sha256 (H.addressString a) ∉ T.leaves (allowlistHash H) → ∀ proof : List Text,
      verifyMerkleProofForClaimant H a proof (T.root (allowlistHash H)) = .ok false) ∧
    (∀ (proof : List Text) (root : Bytes32),
      verifyMerkleProofForClaimant H a (proof.map fun s => s.map toLowerCase) root =
        verifyMerkleProofForClaimant H a proof root) ∧
    H.sha256 (H.addressString a) ∉ T.inner (allowlistHash H) := by
  refine ⟨⟨?_, exists_proof_of_leaf haddr⟩, ?_, ?_, ?_⟩
  · rintro ⟨proof, -, hproof⟩
    exact leaf_of_verify haddr hsha hproof
  · intro hout proof
    rw [verify_eq haddr, Except.ok.injEq, decide_eq_false_iff_not]
    intro hfold
    have hok : verifyMerkleProofForClaimant H a proof (T.root (allowlistHash H)) = .ok true := by
      rw [verify_eq haddr, decide_eq_true hfold]
    exact hout (leaf_of_verify haddr hsha hok)
  · intro proof root
    rw [verify_eq haddr, verify_eq haddr, foldProof_toLowerCase]
  · exact leaf_not_inner (allowlistHash_separates haddr) T hsha a

section Example

def asciiText (s : String) : Text := s.toList.map fun c => UInt8.ofNat c.toNat

def accountText (a : Address) : Text :=
  if a.handle = 0 then asciiText "GAAAAAAAAAAAAAAAAAAAAAAAAAAAAAAAAAAAAAAAAAAAAAAAAAAAAWHF"
  else if a.handle = 1 then
    asciiText "GAAQCAIBAEAQCAIBAEAQCAIBAEAQCAIBAEAQCAIBAEAQCAIBAEAQDZ7H"
  else asciiText "GABAEAQCAIBAEAQCAIBAEAQCAIBAEAQCAIBAEAQCAIBAEAQCAIBAEJXA"

theorem zeros_length : (replicate 32 (0 : UInt8)).length = 32 := length_replicate

def zeroDigest : Bytes32 := ⟨replicate 32 0, zeros_length⟩

def digestOf (hex : String) : Bytes32 := (parseHex32 (asciiText hex)).getD zeroDigest

def digest0 : Bytes32 :=
  digestOf "f56f6f2c6cf1b9388e3495dfab96f0c55ec5d217f481b2ae45d11b46145c44ef"
def digest1 : Bytes32 :=
  digestOf "85a9f00609ab4eb40a277132a2a1d8b0195f9242e6d304b837f9542010feba7a"
def digest2 : Bytes32 :=
  digestOf "ba63a503d6d9f01c6d2ba26082ae526561a1bb0681a8ddf7a833eb23a06fc2e7"
def digest01 : Bytes32 :=
  digestOf "3f42d901df70cbbabf617a73bcd458cb92d69005af827ab50743ac1952d8610c"

/-- SHA-256 on the three account strings and on the pair of the first two; zero elsewhere. -/
def sampleSha256 (input : List UInt8) : Bytes32 :=
  if input = accountText ⟨0⟩ then digest0
  else if input = accountText ⟨1⟩ then digest1
  else if input = accountText ⟨2⟩ then digest2
  else if input = digest1.bytes ++ digest0.bytes then digest01
  else zeroDigest

def allowlistHost : Host Unit where
  contract := ⟨9⟩
  decimals _ _ := none
  balance _ _ _ := none
  transfer _ _ _ _ _ := none
  outside _ _ := True
  sha256 := sampleSha256
  addressString := accountText

def sampleTree : HashTree Address := .node (.leaf ⟨0⟩) (.leaf ⟨1⟩)

theorem accountText_length (a : Address) : (accountText a).length = 56 := by
  unfold accountText asciiText
  split_ifs <;> rw [length_map] <;> rfl

theorem digest_heads : [digest0, digest1, digest01, digest2, zeroDigest].map (·.bytes.head?) =
      [some 245, some 133, some 63, some 186, some 0] := by
  decide +kernel

theorem account_ends : [accountText ⟨0⟩, accountText ⟨1⟩, accountText ⟨2⟩].map getLast? = [some 70, some 72, some 65] := by
  decide +kernel

attribute [local irreducible] accountText digest0 digest1 digest2 digest01

theorem digests_nodup : [digest0, digest1, digest01, digest2, zeroDigest].Nodup := by
  apply List.Nodup.of_map (·.bytes.head?)
  rw [digest_heads]
  decide

theorem inputs_nodup : [accountText ⟨0⟩, accountText ⟨1⟩, accountText ⟨2⟩, digest1.bytes ++ digest0.bytes].Nodup := by
  have haccounts : [accountText ⟨0⟩, accountText ⟨1⟩, accountText ⟨2⟩].Nodup := by
    apply List.Nodup.of_map getLast?
    rw [account_ends]
    decide
  have hpair (a : Address) : accountText a ≠ digest1.bytes ++ digest0.bytes := by
    intro he
    have hlength := congrArg length he
    rw [accountText_length, length_append, digest1.length_eq, digest0.length_eq] at hlength
    omega
  simpa [hpair] using haccounts

theorem sampleSha256_inputs : sampleSha256 (accountText ⟨0⟩) = digest0 ∧ sampleSha256 (accountText ⟨1⟩) = digest1 ∧
      sampleSha256 (accountText ⟨2⟩) = digest2 ∧ sampleSha256 (digest1.bytes ++ digest0.bytes) = digest01 := by
  have hne := inputs_nodup
  simp only [nodup_cons, mem_cons, not_or, not_mem_nil, not_false_eq_true] at hne
  obtain ⟨⟨h01, h02, h0p, -⟩, ⟨h12, h1p, -⟩, ⟨h2p, -⟩, -⟩ := hne
  refine ⟨?_, ?_, ?_, ?_⟩
  · rw [sampleSha256, if_pos rfl]
  · rw [sampleSha256, if_neg (Ne.symm h01), if_pos rfl]
  · rw [sampleSha256, if_neg (Ne.symm h02), if_neg (Ne.symm h12), if_pos rfl]
  · rw [sampleSha256, if_neg (Ne.symm h0p), if_neg (Ne.symm h1p), if_neg (Ne.symm h2p), if_pos rfl]

def hashedInput (d : Bytes32) : List UInt8 :=
  if d = digest0 then accountText ⟨0⟩
  else if d = digest1 then accountText ⟨1⟩
  else digest1.bytes ++ digest0.bytes

theorem hashedInput_sampleSha256 {y : List UInt8}
    (hy : sampleSha256 y ∈ [digest0, digest1, digest01]) : hashedInput (sampleSha256 y) = y := by
  have hne := digests_nodup
  simp only [nodup_cons, mem_cons, not_or, not_mem_nil, not_false_eq_true] at hne
  obtain ⟨⟨h01, h00', h02, h0z, -⟩, ⟨h10', h12, h1z, -⟩, ⟨h22, h2z, -⟩, -⟩ := hne
  unfold sampleSha256 at hy ⊢
  split_ifs at hy ⊢ with h0 h1 h2 hpair
  · rw [h0, hashedInput, if_pos rfl]
  · rw [h1, hashedInput, if_neg (Ne.symm h01), if_pos rfl]
  · exact absurd hy (by simp [Ne.symm h02, Ne.symm h12, Ne.symm h22])
  · rw [hpair, hashedInput, if_neg (Ne.symm h00'), if_neg (Ne.symm h10')]
  · exact absurd hy (by simp [Ne.symm h0z, Ne.symm h1z, Ne.symm h2z])

theorem sampleTree_inputs : sampleTree.inputs (allowlistHash allowlistHost) =
    [digest1.bytes ++ digest0.bytes, accountText ⟨0⟩, accountText ⟨1⟩] := by
  have horder : ¬ digest0.bytes ≤ digest1.bytes := by decide +kernel
  have hpair : (allowlistHash allowlistHost).pair digest0 digest1 = digest1.bytes ++ digest0.bytes :=
    if_neg horder
  have h0 : allowlistHost.sha256 (accountText ⟨0⟩) = digest0 := sampleSha256_inputs.1
  have h1 : allowlistHost.sha256 (accountText ⟨1⟩) = digest1 := sampleSha256_inputs.2.1
  calc sampleTree.inputs (allowlistHash allowlistHost)
      = [(allowlistHash allowlistHost).pair (allowlistHost.sha256 (accountText ⟨0⟩))
          (allowlistHost.sha256 (accountText ⟨1⟩)), accountText ⟨0⟩, accountText ⟨1⟩] := rfl
    _ = [digest1.bytes ++ digest0.bytes, accountText ⟨0⟩, accountText ⟨1⟩] := by
      rw [h0, h1, hpair]

theorem sampleTree_unambiguous : Unambiguous (allowlistHash allowlistHost) sampleTree := by
  have hinputs : ∀ x ∈ sampleTree.inputs (allowlistHash allowlistHost),
      sampleSha256 x ∈ [digest0, digest1, digest01] := by
    obtain ⟨h0, h1, -, h01⟩ := sampleSha256_inputs
    rw [sampleTree_inputs]
    simp [h0, h1, h01]
  intro x hx y heq
  change sampleSha256 y = sampleSha256 x at heq
  have hy : sampleSha256 y ∈ [digest0, digest1, digest01] := heq ▸ hinputs x hx
  calc y = hashedInput (sampleSha256 y) := (hashedInput_sampleSha256 hy).symm
    _ = hashedInput (sampleSha256 x) := congrArg hashedInput heq
    _ = x := hashedInput_sampleSha256 (hinputs x hx)

theorem sampleTree_leaves : sampleTree.leaves (allowlistHash allowlistHost) = [digest0, digest1] := by
  have h0 : allowlistHost.sha256 (accountText ⟨0⟩) = digest0 := sampleSha256_inputs.1
  have h1 : allowlistHost.sha256 (accountText ⟨1⟩) = digest1 := sampleSha256_inputs.2.1
  rw [← h0, ← h1]
  rfl

theorem allowlist_exact_sample :
    (∃ proof : List Text, (∀ s ∈ proof, IsHex64 s) ∧ verifyMerkleProofForClaimant allowlistHost
      ⟨0⟩ proof (sampleTree.root (allowlistHash allowlistHost)) = .ok true) ∧
    ∀ proof : List Text, verifyMerkleProofForClaimant allowlistHost ⟨2⟩ proof
      (sampleTree.root (allowlistHash allowlistHost)) = .ok false := by
  have hmember := allowlist_exact allowlistHost accountText_length sampleTree
    sampleTree_unambiguous ⟨0⟩
  have hstranger := allowlist_exact allowlistHost accountText_length sampleTree
    sampleTree_unambiguous ⟨2⟩
  rw [sampleTree_leaves] at hmember hstranger
  refine ⟨hmember.1.mpr ?_, hstranger.2.1 ?_⟩
  · have h0 : allowlistHost.sha256 (allowlistHost.addressString ⟨0⟩) = digest0 :=
      sampleSha256_inputs.1
    rw [h0]
    exact mem_cons_self
  · have h2 : allowlistHost.sha256 (allowlistHost.addressString ⟨2⟩) = digest2 :=
      sampleSha256_inputs.2.2.1
    have hne := digests_nodup
    simp only [nodup_cons, mem_cons, not_or] at hne
    rw [h2]
    simp [Ne.symm hne.1.2.2.1, Ne.symm hne.2.1.2.1]

end Example

end Soter.AidEscrow
