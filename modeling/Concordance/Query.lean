import Concordance.Cql
import Concordance.Term
import Concordance.Value.Display

/-!
# Compiled requests

* `Query` — a compiled query and what it was compiled from.
* `Bundle` — one query for each named strategy, side by side.
* `Refusal` — a request that cannot be compiled, with its `kind` and `message`.
* `Outcome` — any of the three.
* `Limits` — the ceilings of requests whose size grows fast.
* `Query.record`, `Bundle.record`, `Refusal.record` — the records of the three.
-/

namespace Concordance

/-- A compiled query and what it was compiled from. -/
structure Query where
  text : String
  mode : Mode
  terms : List String
  distance : Int
  attr : String
  /-- The texts of which each alone is enough. -/
  subqueries : List String
  bidirectional : Bool := false
  /-- The strategy that the patterns come from, if there are any. -/
  strategy : Option String := none
  /-- The patterns of each term. -/
  patterns : List (List String) := []
  contextTerms : List String := []
  deriving DecidableEq, Repr

/-- One query for each named strategy. -/
structure Bundle where
  word : String
  /-- Whether inflected forms are matched, as it was given. -/
  suffixed : Value
  attr : String
  queries : List (String × String) := []
  patterns : List (String × List String) := []

/-- A request that cannot be compiled. -/
inductive Refusal where
  /-- A proximity search lacks a term. -/
  | missingTerms
  /-- A bundle lacks its word. -/
  | missingWord
  /-- A semantic search lacks its term or all contexts. -/
  | missingContext
  | unknownAttribute (given : Value)
  | unknownStrategy (given : Value)
  | unknownMode (given : Value)
  /-- A word is too long for the strategy. -/
  | tooLongFor (strategy : Strategy) (limit : Int)
  /-- A word is too long for a bundle. -/
  | tooLong (limit : Int)
  /-- A term has no pattern. -/
  | noPatterns
  /-- No context has a term. -/
  | noContextTerms
  | tooManyContexts (limit : Int)

namespace Refusal

def kind : Refusal → RefusalKind
  | missingTerms | missingWord | missingContext => .missingInput
  | unknownAttribute _ | unknownStrategy _ | unknownMode _ => .invalidOption
  | tooLongFor _ _ | tooLong _ => .inputTooLong
  | noPatterns => .emptyPatternSet
  | noContextTerms => .noValidContext
  | tooManyContexts _ => .tooManyContexts

def message : Refusal → String
  | missingTerms => "Both lemmas must be provided."
  | missingWord => "The word must be provided."
  | missingContext => "The central lemma and at least one context lemma must be provided."
  | unknownAttribute given => "Unknown search attribute: " ++ given.literal ++ "."
  | unknownStrategy given => "Unknown variation type: " ++ given.literal ++ "."
  | unknownMode given => "Unknown context mode: " ++ given.literal ++ "."
  | tooLongFor strategy limit =>
    "The " ++ strategy.name ++ " variation type supports words of at most " ++
      Decimal.intText limit ++ " characters."
  | tooLong limit =>
    "Words longer than " ++ Decimal.intText limit ++ " characters are not supported."
  | noPatterns => "Could not generate variation patterns."
  | noContextTerms => "No valid context lemma found."
  | tooManyContexts limit => "At most " ++ Decimal.intText limit ++ " context lemmas are supported."

end Refusal

/-- What a request comes to. -/
inductive Outcome where
  | query (q : Query)
  | bundle (b : Bundle)
  | refused (r : Refusal)

namespace Outcome

/-- The request was compiled. -/
def ok : Outcome → Bool
  | refused _ => false
  | _ => true

def message? : Outcome → Option String
  | refused r => some r.message
  | _ => none

def ofQuery : Except Refusal Query → Outcome
  | .ok q => query q
  | .error r => refused r

def ofBundle : Except Refusal Bundle → Outcome
  | .ok b => bundle b
  | .error r => refused r

end Outcome

namespace Query

/-- Ceilings of the requests whose size grows fast. -/
structure Limits where
  /-- The longest word whose pairs of characters are replaced. -/
  wordLength : Int := 40
  /-- The most context terms. -/
  contextTerms : Int := 12
  deriving DecidableEq, Repr

/-- A query from the sequences of which each alone is enough; repeated ones are dropped. -/
def subqueriesOf (e : Cql.Expression) : List String :=
  firstSeen (e.map Cql.Sequence.render)

def texts (ss : List String) : Value :=
  .list (ss.map .text)

def record (q : Query) : Value :=
  .record <|
    [(.text "query", .text q.text),
      (.text "mode", .text q.mode.name),
      (.text "terms", texts q.terms),
      (.text "distance", .int q.distance),
      (.text "attribute", .text q.attr),
      (.text "bidirectional", .bool q.bidirectional)] ++
    (match q.strategy with
      | some t =>
        [(.text "variation_type", .text t), (.text "patterns", .list (q.patterns.map texts))]
      | none => []) ++
    if q.contextTerms.isEmpty then [] else [(.text "context_terms", texts q.contextTerms)]

end Query

def Bundle.record (b : Bundle) : Value :=
  .record
    [(.text "word", .text b.word),
      (.text "with_suffix", b.suffixed),
      (.text "attribute", .text b.attr),
      (.text "queries", .record (b.queries.map fun e => (.text e.1, .text e.2))),
      (.text "patterns", .record (b.patterns.map fun e => (.text e.1, Query.texts e.2)))]

def Refusal.recordOf (message kind : String) : Value :=
  .record [(.text "error", .text message), (.text "kind", .text kind)]

def Refusal.record (r : Refusal) : Value :=
  recordOf r.message r.kind.name

def Outcome.record : Outcome → Value
  | query q => q.record
  | bundle b => b.record
  | refused r => r.record

end Concordance
