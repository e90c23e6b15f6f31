import Concordance.Text.Case
import Concordance.Value.Display

/-!
# Options read from values

An option is given as itself or by its name, in any mix of cases and with white space around it.

* `Attribute.ofValue?` — an attribute.
* `Strategy.ofValue?` — a strategy; `medieval` is another name of the historical one.
* `Mode.ofValue?` — a semantic mode, by its full name or by what follows `semantic_`.
-/

namespace Concordance

open Concordance.Text

def Attribute.ofValue? : Value → Option Attribute
  | .choice (.ofAttribute a) => some a
  | v => ofName? (lowerName v.display)

/-- The strategy of a name in small letters. -/
def Strategy.ofAlias? (s : String) : Option Strategy :=
  if s = "medieval" then some .historical else ofName? s

def Strategy.ofValue? : Value → Option Strategy
  | .choice (.ofStrategy t) => some t
  | v => ofAlias? (lowerName (v.orElse (.text "")).display)

/-- The mark of the semantic modes. -/
def Mode.semanticMark : String := "semantic_"

/-- The name of a semantic mode, completed by its mark. -/
def Mode.completeName (s : String) : String :=
  if semanticMark.toList.isPrefixOf s.toList then s else semanticMark ++ s

def Mode.ofValue? : Value → Option Mode
  | .choice (.ofMode m) => if m.isSemantic then some m else none
  | v => (ofName? (completeName (lowerName (v.orElse (.text "")).display))).filter isSemantic

example : Strategy.ofValue? (.text " MEDIEVAL ") = some .historical := by decide +kernel

example : Mode.ofValue? (.text "Any") = some .semanticAny := by decide +kernel

example : Mode.ofValue? (.text "proximity") = none := by decide +kernel

end Concordance
