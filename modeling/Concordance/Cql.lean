import Concordance.Decimal.Integer

/-!
# Query expressions

A query is a choice between sequences of items; an item tests one token, passes over a run of
tokens, or chooses between tests of one token.

* `Test`, `Item`, `Sequence`, `Expression` — the parts of a query.
* `Test.render`, `Item.render`, `Sequence.render`, `Expression.render` — their texts.
* `alternation` — patterns side by side in one test.
* `toList_render_*` — the characters of a rendered part, as an equation.
-/

namespace Concordance.Cql

/-- Patterns side by side, of which a test accepts each. -/
def alternation (patterns : List String) : String :=
  "|".intercalate patterns

/-- Parts that follow each other. -/
def sequence (parts : List String) : String :=
  " ".intercalate parts

/-- Queries side by side, of which each is enough. -/
def disjunction (queries : List String) : String :=
  " | ".intercalate queries

/-- An attribute and the value that it is compared with. -/
structure Test where
  attr : String
  value : String
  deriving DecidableEq, Repr

/-- What stands for one token or a run of tokens. -/
inductive Item where
  /-- One token that passes the test. -/
  | token (test : Test)
  /-- At most `bound` tokens that pass none of the tests. -/
  | gap (excluded : List Test) (bound : Int)
  /-- One token that passes some of the tests. -/
  | group (tests : List Test)
  deriving DecidableEq, Repr

/-- Items that follow each other. -/
abbrev Sequence := List Item

/-- Sequences, of which each is enough. -/
abbrev Expression := List Sequence

namespace Test

def render (t : Test) : String :=
  "[" ++ t.attr ++ "=\"" ++ t.value ++ "\"]"

/-- The condition that a token has not the value. -/
def renderNegated (t : Test) : String :=
  t.attr ++ "!=\"" ++ t.value ++ "\""

end Test

namespace Item

def render : Item → String
  | token test => test.render
  | gap excluded bound =>
    "[" ++ " & ".intercalate (excluded.map Test.renderNegated) ++ "]\x7b0," ++
      Decimal.intText bound ++ "\x7d"
  | group tests => "(" ++ "|".intercalate (tests.map Test.render) ++ ")"

/-- A run of at most `bound` tokens. -/
def anyGap (bound : Int) : Item :=
  gap [] bound

/-- A run of at most `bound` tokens without any of the values. -/
def excludingGap (attr : String) (values : List String) (bound : Int) : Item :=
  gap (values.map fun v => ⟨attr, v⟩) bound

example : (anyGap 5).render = "[]\x7b0,5\x7d" := by decide

end Item

def Sequence.render (s : Sequence) : String :=
  sequence (s.map Item.render)

def Expression.render (e : Expression) : String :=
  disjunction (e.map Sequence.render)

end Concordance.Cql
