import RecordRules.Error
import RecordRules.Json.Value

/-!
# Configuration

The two settings of an engine, and their reading from JSON text, in which each
of them may be left out.  The default depth fits the nesting of JSON text: a
rule that deep can be sent inside a request.
-/

namespace RecordRules

/-- The settings of an engine: the number of levels that rules may nest, and
the number of rules that are kept before the cache is flushed. -/
structure Config where
  depthLimit : Nat
  cacheCapacity : Nat
  deriving DecidableEq

namespace Config

/-- The depth limit where none is set. -/
def defaultDepthLimit : Nat := 120

/-- The cache capacity where none is set. -/
def defaultCacheCapacity : Nat := 2048

/-- The configuration where nothing is set. -/
def default : Config := ⟨defaultDepthLimit, defaultCacheCapacity⟩

/-- A setting that a document gives, or else its default. -/
def setting? (unset : Nat) : Option Json.Document → Option Nat
  | none => some unset
  | some d => d.natural?

/-- The configuration that a document writes. -/
def ofDocument? (d : Json.Document) : Option Config :=
  match d.parts? ["max_depth", "cache_capacity"] with
  | some [depthLimit, cacheCapacity] => do
    let depthLimit ← setting? defaultDepthLimit depthLimit
    let cacheCapacity ← setting? defaultCacheCapacity cacheCapacity
    return ⟨depthLimit, cacheCapacity⟩
  | _ => none

/-- The configuration that a JSON text writes. -/
def parse (text : String) : Except Error Config :=
  match Json.Document.read? text >>= ofDocument? with
  | some config => .ok config
  | none => .error .malformedJson

end Config

end RecordRules
