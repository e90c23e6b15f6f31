import Concordance.Decimal.Binary
import Concordance.Decimal.Integer

/-!
# Reading doubles from text

A number is a sign, digits with at most one point among them, and an optional power of ten; digits
may be of any script and have single underscores between them.  `inf`, `infinity` and `nan` are read
in any mix of cases.

* `splitOnce` — the parts before and after the first of some marks.
* `readFloat?` — the double nearest to what a text denotes.
-/

namespace Concordance.Decimal

open Concordance.Text

/-- The characters before and after the first one that passes the test. -/
def splitOnce (mark : Char → Bool) : List Char → List Char × Option (List Char)
  | [] => ([], none)
  | c :: rest =>
    if mark c then ([], some rest)
    else ((c :: (splitOnce mark rest).1), (splitOnce mark rest).2)

/-- A run of digits that may be empty. -/
def optionalRun : List Char → Option (List Nat)
  | [] => some []
  | cs => digitRun cs

/-- Digits with at most one point: all digits, and how many of them follow the point. -/
def readMantissa? (cs : List Char) : Option (List Nat × Nat) := do
  match splitOnce (· == '.') cs with
  | (whole, none) =>
    let ds ← digitRun whole
    return (ds, 0)
  | (whole, some rest) =>
    let ds ← optionalRun whole
    let es ← optionalRun rest
    if ds.isEmpty && es.isEmpty then none else return (ds ++ es, es.length)

/-- The power of ten after the mark; without a mark it is zero. -/
def readExponent? : Option (List Char) → Option Int
  | none => some 0
  | some cs => do
    let (negative, body) := splitSign cs
    let ds ← digitRun body
    return if negative then -(ofDigits ds : Int) else ofDigits ds

/-- Infinity of a sign. -/
def infinity (negative : Bool) : Float :=
  ofQuotient negative (tenPow 400) 1

/-- The double nearest to what a text denotes. -/
def readFloat? (cs : List Char) : Option Float :=
  let (negative, body) := splitSign (unpad cs)
  let lower := body.map Char.toLower
  if lower = "inf".toList || lower = "infinity".toList then some (infinity negative)
  else if lower = "nan".toList then some (0.0 / 0.0)
  else do
    let (mantissa, exponent) := splitOnce (fun c => c == 'e' || c == 'E') body
    let (digits, places) ← readMantissa? mantissa
    let power ← readExponent? exponent
    return ofScaled negative (ofDigits digits) (power - places)

end Concordance.Decimal
