import Concordance.Query.Proximity

/-!
# Bundles

One word under each named strategy, each with a query of its own.

* `BundleRequest`, `BundleRequest.compile` — a request and its bundle.
-/

namespace Concordance.Query

open Concordance.Cql

/-- A request for the spellings of one word under each named strategy. -/
structure BundleRequest where
  word : Value
  suffixed : Value := .bool true
  attr : Value := .choice (.ofAttribute .wordForm)

/-- The patterns of a word under each strategy of a list. -/
def patternsUnder (generator : Pattern.Generator) (word : String) (suffixed : Bool) :
    List Strategy → Except Fault (List (String × List String))
  | [] => .ok []
  | t :: rest => do
    let found ← generator.generate word t suffixed
    let others ← patternsUnder generator word suffixed rest
    return (t.name, found) :: others

/-- Compiles a request for a bundle; only the generator can fail. -/
def BundleRequest.compile (r : BundleRequest) (generator : Pattern.Generator) (ceilings : Limits) :
    Except Fault (Except Refusal Bundle) :=
  let word := Term.clean r.word
  if word = "" then .ok (.error .missingWord) else
    match Attribute.ofValue? r.attr with
    | none => .ok (.error (.unknownAttribute r.attr))
    | some attr =>
      if exceeds word ceilings.wordLength then .ok (.error (.tooLong ceilings.wordLength))
      else do
        let found ← patternsUnder generator word r.suffixed.truthy Strategy.named
        return .ok {
          word := word
          suffixed := r.suffixed
          attr := attr.name
          queries := found.map fun e => (e.1, Test.render ⟨attr.name, alternation e.2⟩)
          patterns := found }

end Concordance.Query
