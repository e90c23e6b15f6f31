import Concordance.Query.Proximity

/-!
# Semantic searches

A central term near its contexts: near one of them, near each of them, or together with every two.

* `nearAny`, `nearEach`, `nearPairs` — the sequences of the three modes.
* `Semantic`, `Semantic.compile` — a request and its query.
-/

namespace Concordance.Query

open Concordance.Cql

/-- The central test beside a choice of contexts, in both orders. -/
def nearAny (central : Test) (contexts : List Test) (gap : Item) : Expression :=
  [[.token central, gap, .group contexts], [.group contexts, gap, .token central]]

/-- The central test beside each context, in both orders. -/
def nearEach (central : Test) (contexts : List Test) (gap : Item) : Expression :=
  contexts.flatMap fun context => pairing central context gap true

/-- Three tests with gaps between them, in the order of a triple. -/
def triple (a b c : Test) (gap : Item) : Cql.Sequence :=
  [.token a, gap, .token b, gap, .token c]

def orderings (a b c : Test) (gap : Item) : Expression :=
  [triple a b c gap, triple a c b gap, triple b a c gap, triple b c a gap, triple c a b gap,
    triple c b a gap]

/-- The pairs of a list, each with its items in the list's order. -/
def pairs {α : Type} : List α → List (α × α)
  | [] => []
  | x :: rest => rest.map (fun y => (x, y)) ++ pairs rest

/-- The central test with every two contexts, in all orders; a single context is paired. -/
def nearPairs (central : Test) (contexts : List Test) (gap : Item) : Expression :=
  if contexts.length < 2 then nearEach central contexts gap
  else (pairs contexts).flatMap fun p => orderings central p.1 p.2 gap

def sequencesOf (mode : Mode) (central : Test) (contexts : List Test) (gap : Item) : Expression :=
  match mode with
  | .semanticPhrase => nearEach central contexts gap
  | .semanticAll => nearPairs central contexts gap
  | _ => nearAny central contexts gap

/-- A request for a term near its contexts. -/
structure Semantic where
  central : Value
  contexts : Value
  distance : Value := .int 20
  mode : Value := .choice (.ofMode .semanticAny)
  attr : Value := .choice (.ofAttribute .lemmaForm)

def Semantic.compile (r : Semantic) (limits : Distance.Limits) (ceilings : Limits) :
    Except Refusal Query :=
  let central := Term.clean r.central
  if central = "" ∨ Term.namesContexts r.contexts = false then .error .missingContext else
    match Mode.ofValue? r.mode, Attribute.ofValue? r.attr with
    | none, _ => .error (.unknownMode r.mode)
    | some _, none => .error (.unknownAttribute r.attr)
    | some mode, some attr =>
      let contexts := Term.contextTerms r.contexts
      if contexts.isEmpty then .error .noContextTerms
      else if ceilings.contextTerms < (contexts.length : Int) then
        .error (.tooManyContexts ceilings.contextTerms)
      else
        let name := attr.name
        let window := limits.read limits.semantic r.distance
        let found := subqueriesOf <|
          sequencesOf mode ⟨name, central⟩ (contexts.map fun c => ⟨name, c⟩) (Item.anyGap window)
        .ok {
          text := disjunction found
          mode := mode
          terms := [central]
          distance := window
          attr := name
          subqueries := found
          bidirectional := true
          contextTerms := contexts }

end Concordance.Query
