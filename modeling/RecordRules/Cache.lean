import RecordRules.Config
import RecordRules.Rule.Evaluation
import RecordRules.Rule.Parser
import Std.Data.HashMap

/-!
# The cache of parsed rules

Rules that were parsed before, under their text.  A rule is added when it is
first asked for.  When the cache is full, the next new rule empties it first; a
cache without room stores nothing.
-/

namespace RecordRules

/-- A cache of parsed rules, with the settings that it keeps to. -/
structure Cache where
  config : Config
  entries : Std.HashMap String Rule

namespace Cache

/-- The cache without rules. -/
def empty (config : Config) : Cache := ⟨config, ∅⟩

/-- The number of rules in the cache. -/
def size (c : Cache) : Nat := c.entries.size

def isEmpty (c : Cache) : Bool := c.entries.isEmpty

/-- The cache with a rule.  A full one is emptied first, unless the rule is under a
text that is in it already. -/
def add (c : Cache) (text : String) (t : Rule) : Cache :=
  if c.config.cacheCapacity = 0 then c
  else
    let full := c.config.cacheCapacity ≤ c.entries.size && !c.entries.contains text
    let kept := if full then ∅ else c.entries
    { c with entries := kept.insert text t }

/-- Where the text is not there yet, as wherever one command follows the other, only the
room that is left decides whether the cache is emptied. -/
theorem add_of_absent {c : Cache} {text : String} (h : c.entries[text]? = none) (t : Rule) :
    c.add text t =
      if c.config.cacheCapacity = 0 then c
      else
        { c with entries :=
            (if c.config.cacheCapacity ≤ c.entries.size then ∅ else c.entries).insert text t } := by
  have hnew : c.entries.contains text = false := by
    rw [Std.HashMap.contains_eq_isSome_getElem?, h, Option.isSome_none]
  rw [add, hnew]
  simp only [Bool.not_false, Bool.and_true, decide_eq_true_eq]

/-- The rule that a text writes, from the cache if it is there. -/
def get (c : Cache) (text : String) : Except Error Rule × Cache :=
  match c.entries[text]? with
  | some t => (.ok t, c)
  | none =>
    match Rule.parse c.config.depthLimit text with
    | .ok t => (.ok t, c.add text t)
    | .error e => (.error e, c)

/-- The verdict of the rule that a text writes.  A blank text always holds. -/
def check (c : Cache) (text : String) (record : Record) : Except Error Bool × Cache :=
  if Text.isBlankText text then (.ok true, c)
  else
    match c.get text with
    | (.ok t, c) => (t.evaluate c.config.depthLimit record, c)
    | (.error e, c) => (.error e, c)

/-- The cache emptied. -/
def clear (c : Cache) : Cache := { c with entries := ∅ }

/-! ## Runs -/

/-- What may be asked of a cache. -/
inductive Command
  | get (text : String)
  | check (text : String) (record : Record)
  | clear

/-- What a command answers where it does not fail. -/
inductive Answer
  | rule (t : Rule)
  | verdict (b : Bool)
  | done

/-- The answer to a command, and the cache after it. -/
def perform (c : Cache) : Command → Except Error Answer × Cache
  | .get text => let (a, c) := c.get text; (a.map .rule, c)
  | .check text record => let (a, c) := c.check text record; (a.map .verdict, c)
  | .clear => (.ok .done, c.clear)

/-- The cache after commands. -/
def run (c : Cache) (commands : List Command) : Cache :=
  commands.foldl (fun c command => (c.perform command).2) c

end Cache

end RecordRules
