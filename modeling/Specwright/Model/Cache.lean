import Specwright.Model.Body
import Specwright.Model.Expansion

/-!
# Type caches

A cache answers for types and remembers the expansions that it carried out, by spelling and with the
depth of each.  A request is served from memory when the remembered expansion is at least as deep as
the one asked for; otherwise the type is expanded again, and the result is remembered unless a
deeper one has been in the meantime.  Three counters tell the requests served from memory, those
carried out, and those at depth 0, which memory has no part in.
-/

namespace Specwright

/-- How requests were answered. -/
structure CacheCounters where
  /-- Requests served from memory. -/
  hits : Nat := 0
  /-- Requests that were carried out. -/
  misses : Nat := 0
  /-- Requests at depth 0. -/
  leaves : Nat := 0
  deriving Repr, DecidableEq, Inhabited

/-- A remembered expansion. -/
structure CacheEntry where
  key : String
  depth : Nat
  type : TypeModel

/-- The remembered expansions, at most one under each key, and the counters. -/
structure TypeCache where
  entries : List CacheEntry := []
  stats : CacheCounters := {}

namespace TypeCache

/-- The cache at the start of a request. -/
def empty : TypeCache where
  entries := []

/-- The entry under a key. -/
def entry? (cache : TypeCache) (key : String) : Option CacheEntry :=
  cache.entries.find? (·.key = key)

/-- The type remembered under a key with at least the given depth. -/
def lookup? (cache : TypeCache) (key : String) (depth : Nat) : Option TypeModel :=
  ((cache.entry? key).filter (depth ≤ ·.depth)).map (·.type)

/-- Puts an entry in the place of the one under its key, or behind all others. -/
def putEntry (entry : CacheEntry) : List CacheEntry → List CacheEntry
  | [] => [entry]
  | other :: rest =>
    if other.key = entry.key then entry :: rest else other :: putEntry entry rest

/-- Remembers a type under a key unless a deeper one is remembered there. -/
def remember (cache : TypeCache) (key : String) (depth : Nat) (type : TypeModel) :
    TypeCache :=
  if (cache.entry? key).any (depth < ·.depth) then cache
  else { cache with entries := putEntry ⟨key, depth, type⟩ cache.entries }

/-- The number of types remembered. -/
def size (cache : TypeCache) : Nat :=
  cache.entries.length

/-- Counts a request served from memory. -/
def countHit (cache : TypeCache) : TypeCache :=
  { cache with stats := { cache.stats with hits := cache.stats.hits + 1 } }

/-- Counts a request that is carried out. -/
def countMiss (cache : TypeCache) : TypeCache :=
  { cache with stats := { cache.stats with misses := cache.stats.misses + 1 } }

/-- Counts a request at depth 0. -/
def countLeaf (cache : TypeCache) : TypeCache :=
  { cache with stats := { cache.stats with leaves := cache.stats.leaves + 1 } }

end TypeCache

/-- Work with a cache. -/
abbrev Session :=
  StateM TypeCache

namespace Session

/-- The answer to a request at depth 0. -/
def leaf (ref : TypeRef) : Session TypeModel := do
  modify TypeCache.countLeaf
  pure (.nameOnly ref)

/-- Serves a request from memory, or carries it out and remembers the result. -/
def serve (depth : Nat) (ref : TypeRef) (build : Session TypeModel) : Session TypeModel := do
  match (← get).lookup? ref.spelling depth with
  | some type =>
    modify TypeCache.countHit
    pure type
  | none =>
    modify TypeCache.countMiss
    let type ← build
    modify (·.remember ref.spelling depth type)
    pure type

/-- The type of a reference, expanded to at least the given depth. -/
def typeOf (scope : Scope) (depth : Nat) (ref : TypeRef) : Session TypeModel :=
  TypeModel.expand scope serve leaf depth ref

/-- The reference that a request is about: type parameters are replaced where bindings are given,
and type arguments are dropped where they are not wanted. -/
def requested (ref : TypeRef) (keepArgs : Bool) (bindings : Bindings) : TypeRef :=
  let ref := ref.substitute bindings
  if keepArgs then ref else ref.withoutArgs

/-- The type of a reference under bindings. -/
def typeUnder
    (scope : Scope) (ref : TypeRef) (depth : Nat)
    (keepArgs : Bool) (bindings : Bindings) : Session TypeModel :=
  typeOf scope depth (requested ref keepArgs bindings)

/-- The depth to which the class under test is expanded. -/
def subjectDepth (scope : Scope) : Nat :=
  max scope.options.maxDepth 1

/-- The class under test with the bodies of its own methods.  It is always expanded anew, and
remembered like other types. -/
def extractSubject (scope : Scope) : Session TypeModel := do
  let ref := scope.subject.ownType
  let depth := subjectDepth scope
  modify TypeCache.countMiss
  let args ← ref.args.mapM (typeOf scope depth)
  let bodyOf (declaration : Declaration) : Session (Option BodyModel) := do
    let body ← BodyModel.build scope (typeOf scope 1) leaf declaration
    pure (some body)
  let type ← TypeModel.ofClass scope (typeOf scope (depth - 1)) leaf bodyOf ref args
  modify (·.remember ref.spelling depth type)
  pure type

end Session

end Specwright
