import Soter.Lib.Rely
import Soter.Audit.Canonical

/-! `CacheResponseInterceptor` (`cache-response.interceptor.ts`) at the handler of one route, over the Redis
that keeps the responses. -/
namespace Soter.Cache
open Soter.Json Soter.Tasks Soter.Runs

variable {Num : Type}
section Key

/-- What the interceptor reads of a request. A method is a token, and no object has a key twice. -/
structure Request (Num : Type) where
  method : Text
  /-- The pattern of the route that takes the request, `request.route?.path`. -/
  route : Option Text
  path : Text
  query : List (Text × Value Num)
  body : Option (Value Num)
  method_token : ':' ∉ method
  query_wf : (Value.obj query).WF
  body_wf : ∀ b ∈ body, b.WF

structure CacheResponseOptions (Num : Type) where
  /-- In seconds. -/
  ttl : ℕ
  keyGenerator : Option (Request Num → Text) := none
  includeBody : Bool := false
  namespacing : Option Text := none

variable (sha256 : Text → Text) (numerals : Numerals Num)

/-- `a || b` for texts. -/
def orText (a : Option Text) (b : Text) : Text :=
  match a with
  | some (c :: cs) => c :: cs
  | _ => b

def sortObject (v : Value Num) : Value Num := Audit.sortDeep v

def truthy : Value Num → Bool
  | .null => false
  | .bool b => b
  | .num n => numerals.text n ≠ ['0']
  | .str s => s ≠ []
  | .arr _ | .obj _ => true

def exposed (options : CacheResponseOptions Num) (request : Request Num) : List (Value Num) :=
  (if request.query.isEmpty then [] else [sortObject (.obj request.query)]) ++
    if options.includeBody then ((request.body.filter (truthy numerals)).map sortObject).toList else []

def defaultNamespacing : Text := "cache:response".toList

def separator : Text := [':', ':']

def rawKey (options : CacheResponseOptions Num) (request : Request Num) : Text :=
  separator.intercalate
    (request.method :: orText request.route request.path ::
      (exposed numerals options request).map (stringify numerals 0))

def generateCacheKey (options : CacheResponseOptions Num) (request : Request Num) : Text :=
  orText options.namespacing defaultNamespacing ++ ':' ::
    match options.keyGenerator with
    | some keyGenerator => keyGenerator request
    | none => sha256 (rawKey numerals options request)

end Key
section Requests

abbrev Time := ℤ

structure Entry (Num : Type) where
  key : Text
  response : Value Num
  expiresAt : Time
  origin : Request Num

/-- How the next calls fare: what the handler of the route gives, and whether Redis answers. -/
structure Weather (Num : Type) where
  handle : Request Num → Except String (Value Num) := fun _ => .ok .null
  redisUp : Bool := true

structure Store (Num : Type) where
  now : Time := 0
  entries : List (Entry Num) := []
  weather : Weather Num := {}

structure Answer (Num : Type) where
  response : Value Num
  origin : Request Num

inductive Query (Num : Type)
  | get (key : Text)
  /-- `next.handle()`. -/
  | handle (request : Request Num)
  | set (key : Text) (response : Value Num) (ttl : ℕ) (origin : Request Num)
  /-- Keys that are deleted, or dropped by Redis. -/
  | remove (keys : List Text)
  /-- Nothing but time goes by. -/
  | elapse (d : ℕ)
  /-- What the next calls come to is decided elsewhere. -/
  | foresee (weather : Weather Num)

def Query.Reply : Query Num → Type
  | .get _ => Option (Answer Num)
  | .handle _ => Except String (Value Num)
  | .set .. | .remove _ | .elapse _ | .foresee _ => Unit

/-- `redisService.get`: a response of `null` is no response, and neither is that of a Redis that is down. -/
def Store.get (s : Store Num) (key : Text) : Option (Answer Num) :=
  if s.weather.redisUp then
    match s.entries.find? fun e => e.key = key ∧ s.now < e.expiresAt with
    | some ⟨_, .null, _, _⟩ | none => none
    | some e => some ⟨e.response, e.origin⟩
  else none

def Store.set (s : Store Num) (key : Text) (response : Value Num) (ttl : ℕ) (origin : Request Num) :
    Store Num :=
  if s.weather.redisUp then
    { s with
      entries := ⟨key, response, s.now + 1000 * ttl, origin⟩ :: s.entries.filter (·.key ≠ key) }
  else s

def perform : (q : Query Num) → Store Num → q.Reply × Store Num
  | .get key, s => (s.get key, s)
  | .handle request, s => (s.weather.handle request, s)
  | .set key response ttl origin, s => ((), s.set key response ttl origin)
  | .remove keys, s => ((), { s with entries := s.entries.filter (·.key ∉ keys) })
  | .elapse d, s => ((), { s with now := s.now + d })
  | .foresee weather, s => ((), { s with weather := weather })

abbrev Handler (Num : Type) := Task (Query Num) Query.Reply String

variable (sha256 : Text → Text) (numerals : Numerals Num)

def intercept (options : Option (CacheResponseOptions Num)) (request : Request Num) :
    Handler Num (Answer Num) :=
  match options with
  | none => do
    let response ← .ask (.handle request) fun reply => .done reply
    return ⟨response, request⟩
  | some options => do
    let cacheKey := generateCacheKey sha256 numerals options request
    let cachedResponse ← .ask (.get cacheKey) fun reply => .done (.ok reply)
    match cachedResponse with
    | some answer => return answer
    | none =>
      let response ← .ask (.handle request) fun reply => .done reply
      let _ ← .ask (.set cacheKey response options.ttl request) fun _ => .done (.ok ())
      return ⟨response, request⟩

inductive CacheOp (Num : Type)
  | intercept (request : Request Num)
  | remove (keys : List Text)
  | elapse (d : ℕ)
  | foresee (weather : Weather Num)

def CacheOp.body (options : CacheResponseOptions Num) : CacheOp Num → Handler Num (Option (Answer Num))
  | .intercept request => do
    let answer ← Cache.intercept sha256 numerals (some options) request
    return some answer
  | .remove keys => .ask (.remove keys) fun _ => .done (.ok none)
  | .elapse d => .ask (.elapse d) fun _ => .done (.ok none)
  | .foresee weather => .ask (.foresee weather) fun _ => .done (.ok none)

abbrev CachePool (Num : Type) := Pool (Store Num) (Query Num) Query.Reply String (Option (Answer Num)) (CacheOp Num)

end Requests
end Soter.Cache
