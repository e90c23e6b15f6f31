import Concordance.Distance
import Concordance.Pattern
import Concordance.Query

/-!
# Proximity searches

Two terms within a distance of each other, in one order or in both.

* `pairing` — the sequences of two tests with a gap between them.
* `Proximity`, `Proximity.compile` — two terms as they were typed.
* `Variation`, `Variation.compile` — two terms in any of their spellings.
-/

namespace Concordance.Query

open Concordance.Cql

/-- Two tests with a gap between them, in the given order or in both. -/
def pairing (first second : Test) (gap : Item) (bothOrders : Bool) : Expression :=
  let forward : Cql.Sequence := [.token first, gap, .token second]
  let backward : Cql.Sequence := [.token second, gap, .token first]
  if bothOrders then [forward, backward] else [forward]

/-- A request for two terms near each other. -/
structure Proximity where
  term1 : Value
  term2 : Value
  distance : Value := .int 10
  attr : Value := .choice (.ofAttribute .lemmaForm)
  bidirectional : Value := .bool true
  /-- The tokens between the terms may be neither of them. -/
  excludeRepeats : Value := .bool false

def Proximity.compile (r : Proximity) (limits : Distance.Limits) : Except Refusal Query :=
  let first := Term.clean r.term1
  let second := Term.clean r.term2
  if first = "" ∨ second = "" then .error .missingTerms else
    match Attribute.ofValue? r.attr with
    | none => .error (.unknownAttribute r.attr)
    | some attr =>
      let name := attr.name
      let window := limits.read limits.proximity r.distance
      let gap :=
        if r.excludeRepeats.truthy then Item.excludingGap name (firstSeen [first, second]) window
        else Item.anyGap window
      let found := subqueriesOf (pairing ⟨name, first⟩ ⟨name, second⟩ gap r.bidirectional.truthy)
      .ok {
        text := disjunction found
        mode := .proximity
        terms := [first, second]
        distance := window
        attr := name
        subqueries := found
        bidirectional := r.bidirectional.truthy }

/-- A request for two terms near each other, each in any of its spellings. -/
structure Variation where
  term1 : Value
  term2 : Value
  distance : Value := .int 10
  strategy : Value := .choice (.ofStrategy .simple)
  attr : Value := .choice (.ofAttribute .wordForm)
  bidirectional : Value := .bool true

/-- A word has more characters than a limit allows. -/
def exceeds (word : String) (limit : Int) : Bool :=
  limit < (word.length : Int)

/-- The query of two terms with the patterns of each. -/
def Variation.assemble (r : Variation) (limits : Distance.Limits) (attr : Attribute)
    (strategy : Strategy) (first second : String) (patterns1 patterns2 : List String) : Query :=
  let name := attr.name
  let window := limits.read limits.proximity r.distance
  let value1 := alternation patterns1
  let value2 := alternation patterns2
  let gap := Item.excludingGap name (firstSeen [value1, value2]) window
  let found := subqueriesOf (pairing ⟨name, value1⟩ ⟨name, value2⟩ gap r.bidirectional.truthy)
  { text := disjunction found
    mode := .proximityWithVariation
    terms := [first, second]
    distance := window
    attr := name
    subqueries := found
    bidirectional := r.bidirectional.truthy
    strategy := some strategy.name
    patterns := [patterns1, patterns2] }

/-- Compiles a request for the spellings of two terms; only the generator can fail. -/
def Variation.compile (r : Variation) (generator : Pattern.Generator) (limits : Distance.Limits)
    (ceilings : Limits) : Except Fault (Except Refusal Query) :=
  let first := Term.clean r.term1
  let second := Term.clean r.term2
  if first = "" ∨ second = "" then .ok (.error .missingTerms) else
    match Attribute.ofValue? r.attr, Strategy.ofValue? r.strategy with
    | none, _ => .ok (.error (.unknownAttribute r.attr))
    | some _, none => .ok (.error (.unknownStrategy r.strategy))
    | some attr, some strategy =>
      if strategy.isPairwise &&
          (exceeds first ceilings.wordLength || exceeds second ceilings.wordLength) then
        .ok (.error (.tooLongFor strategy ceilings.wordLength))
      else do
        let patterns1 ← generator.generate first strategy false
        let patterns2 ← generator.generate second strategy false
        if patterns1.isEmpty || patterns2.isEmpty then return .error .noPatterns
        else return .ok (r.assemble limits attr strategy first second patterns1 patterns2)

end Concordance.Query
