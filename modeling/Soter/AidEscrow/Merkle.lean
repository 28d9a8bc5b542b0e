import Soter.AidEscrow.World

/-! Values the contract parses out of package metadata, and the Merkle allowlist check. -/
namespace Soter.AidEscrow
open Std Soter.Fallible

def isAsciiDigit (b : UInt8) : Bool := 48 ≤ b && b ≤ 57

/-- The digit loop of `parse_u64`, with `checked_mul` and `checked_add`. -/
def parseDigits : List UInt8 → ℕ → Option ℕ
  | [], out => some out
  | b :: bs, out =>
    if isAsciiDigit b then
      if out * 10 < 2 ^ 64 then
        if out * 10 + (b - 48).toNat < 2 ^ 64 then parseDigits bs (out * 10 + (b - 48).toNat)
        else none
      else none
    else none

def parseU64 (value : Text) : Option ℕ :=
  if value.length = 0 ∨ 20 < value.length then none else parseDigits value 0

def resolveClaimStartsAt (metadata : Metadata) (createdAt : ℕ) : Result ℕ :=
  match metadata[metaClaimStartsAt]? with
  | some raw => orFail (parseU64 raw) (err .invalidState)
  | none => .ok createdAt

def receiptHashFromMetadata (metadata : Metadata) : Text := metadata[metaReceiptHash]?.getD []

def hexNibble (b : UInt8) : Option UInt8 :=
  if 48 ≤ b ∧ b ≤ 57 then some (b - 48)
  else if 97 ≤ b ∧ b ≤ 102 then some (10 + (b - 97))
  else if 65 ≤ b ∧ b ≤ 70 then some (10 + (b - 65))
  else none

/-- The byte loop of `parse_hex_32`: two characters make one byte. -/
def parseHexPairs : List UInt8 → Option (List UInt8)
  | [] => some []
  | [_] => none
  | h :: l :: rest => do
    let hi ← hexNibble h
    let lo ← hexNibble l
    let out ← parseHexPairs rest
    return (hi <<< 4 ||| lo) :: out

def parseHex32 (value : Text) : Option Bytes32 :=
  if value.length ≠ 64 then none
  else match parseHexPairs value with
    | none => none
    | some out => if h : out.length = 32 then some ⟨out, h⟩ else none

def merkleRootFromMetadata (metadata : Metadata) : Option Bytes32 :=
  metadata[metaMerkleRootKey]?.bind parseHex32

def validateEvidenceHash (hash : Text) : Result Unit := do
  require (hash.length = 64) (err .invalidState)
  require (hash.all (fun b => (hexNibble b).isSome) = true) (err .invalidState)

variable {τ : Type} (H : Host τ)

/-- The address string is copied into a buffer of 96 bytes; a longer one is out of range. -/
def hashAddress (address : Address) : Result Bytes32 := do
  require ((H.addressString address).length ≤ 96) .trap
  return H.sha256 (H.addressString address)

def hashPair (left right : Bytes32) : Bytes32 := H.sha256 (left.bytes ++ right.bytes)

def foldProof : List Text → Bytes32 → Option Bytes32
  | [], current => some current
  | siblingHex :: rest, current =>
    match parseHex32 siblingHex with
    | none => none
    | some sibling =>
      foldProof rest
        (if current.bytes ≤ sibling.bytes then hashPair H current sibling
         else hashPair H sibling current)

def verifyMerkleProofForClaimant (claimant : Address) (proof : List Text)
    (expectedRoot : Bytes32) : Result Bool := do
  let leaf ← hashAddress H claimant
  return decide (foldProof H proof leaf = some expectedRoot)

end Soter.AidEscrow
