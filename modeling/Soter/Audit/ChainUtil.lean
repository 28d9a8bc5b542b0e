import Soter.Lib.Calendar
import Soter.Lib.JsonRoundTrip

/-! The pure helpers of the audit chain: canonical metadata and the hash of an entry. -/
namespace Soter.Audit
open Soter.Json

variable {Num : Type}

def genesisPrevHash : Text := List.replicate 64 '0'

def protoKey : Text := ['_', '_', 'p', 'r', 'o', 't', 'o', '_', '_']

section Canonical

mutual
def sortDeep : Value Num → Value Num
  | .null => .null
  | .bool b => .bool b
  | .num n => .num n
  | .str s => .str s
  | .arr items => .arr (sortDeepItems items)
  | .obj members => .obj ((sortMembers (sortDeepMembers members)).filter (·.1 ≠ protoKey))

def sortDeepItems : List (Value Num) → List (Value Num)
  | [] => []
  | v :: vs => sortDeep v :: sortDeepItems vs

def sortDeepMembers : List (Text × Value Num) → List (Text × Value Num)
  | [] => []
  | (k, v) :: ms => (k, sortDeep v) :: sortDeepMembers ms
end

theorem sortDeepItems_eq : ∀ vs : List (Value Num), sortDeepItems vs = vs.map sortDeep
  | [] => rfl
  | v :: vs => by rw [sortDeepItems, sortDeepItems_eq vs, List.map_cons]

theorem sortDeepMembers_eq : ∀ ms : List (Text × Value Num), sortDeepMembers ms = ms.map fun m => (m.1, sortDeep m.2)
  | [] => rfl
  | (k, v) :: ms => by rw [sortDeepMembers, sortDeepMembers_eq ms, List.map_cons]

variable (numerals : Numerals Num)

def canonicalJson (v : Value Num) : Text := stringify numerals 2 (sortDeep v)

def canonicalMetadata (metadata : Value Num) (canonical : Option Text) : Text :=
  match canonical with
  | some canonical => canonical
  | none =>
    match metadata with
    | .str s => s
    | v => canonicalJson numerals v

end Canonical

section DeepEqual
variable [DecidableEq Num]

def sortedKeys {β : Type} (ms : List (Text × β)) : List Text := (sortMembers ms).map Prod.fst

mutual
def jsonDeepEqual : Value Num → Value Num → Bool
  | .null, .null => true
  | .bool a, .bool b => a == b
  | .num a, .num b => a == b
  | .str a, .str b => a == b
  | .arr as, .arr bs => as.length == bs.length && itemsEqual as bs
  | .obj as, .obj bs => sortedKeys as == sortedKeys bs && membersEqual as bs
  | _, _ => false

def itemsEqual : List (Value Num) → List (Value Num) → Bool
  | a :: as, b :: bs => jsonDeepEqual a b && itemsEqual as bs
  | _, _ => true

def membersEqual : List (Text × Value Num) → List (Text × Value Num) → Bool
  | [], _ => true
  | (k, a) :: as, bs =>
    (match bs.lookup k with
    | some b => jsonDeepEqual a b
    | none => false) && membersEqual as bs
end

end DeepEqual

section Hashes
variable (sha256 : Text → Text)

def metadataHash (metadataCanonical : Text) : Text := sha256 metadataCanonical

structure Entry where
  id : Text
  sequence : ℤ
  prevHash : Option Text
  actorId : Text
  entity : Text
  entityId : Text
  action : Text
  timestamp : ℤ
  metadataCanonical : Text
  deriving DecidableEq

def versionTag : Text := ['s', 'o', 't', 'e', 'r', '-', 'a', 'u', 'd', 'i', 't', '-', 'v', '1']

def entryPayload (fields : Entry) : List Text :=
  [versionTag, fields.id, Calendar.decimalInt fields.sequence,
    fields.prevHash.getD genesisPrevHash, fields.actorId, fields.entity, fields.entityId,
    fields.action, Calendar.toISOString fields.timestamp,
    metadataHash sha256 fields.metadataCanonical]

def computeEntryHash (numerals : Numerals Num) (fields : Entry) : Text :=
  sha256 (stringify numerals 0 (.arr ((entryPayload sha256 fields).map .str)))

end Hashes
end Soter.Audit
