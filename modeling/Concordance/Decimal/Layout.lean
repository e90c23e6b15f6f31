import Concordance.Decimal.Shortest

/-!
# The text of a double

* `Layout` — the decisions of a written form, such as where positional notation ends.
* `Layout.render` — a double in a written form.
* `plain` — the form of all numbers in answers and log lines.
* `floatText` — a double in that form.
-/

namespace Concordance.Decimal

/-- The decisions of a written form of doubles. -/
structure Layout where
  /-- Positional notation serves points from this place on. -/
  firstPlace : Int
  /-- Positional notation serves points up to this place. -/
  lastPlace : Int
  /-- The least number of digits of an exponent. -/
  exponentWidth : Nat
  nan : String
  infinity : String

/-- Numbers from a ten-thousandth to below ten to the sixteenth are positional. -/
def plain : Layout :=
  { firstPlace := -3, lastPlace := 16, exponentWidth := 2, nan := "nan", infinity := "inf" }

/-- Digits with the point after the given number of places, and at least one digit on each side. -/
def positional (digits : List Char) (point : Int) : List Char :=
  if point ≤ 0 then
    ['0', '.'] ++ List.replicate (-point).toNat '0' ++ digits
  else
    let whole := digits.take point.toNat
    let rest := digits.drop point.toNat
    whole ++ List.replicate (point.toNat - whole.length) '0' ++ ['.'] ++
      (if rest.isEmpty then ['0'] else rest)

/-- Digits with the point after the first one, and an exponent with its sign. -/
def Layout.scientific (layout : Layout) (digits : List Char) (point : Int) : List Char :=
  let exponent := point - 1
  let size := Nat.toDigits 10 exponent.natAbs
  let fraction := match digits.drop 1 with
    | [] => []
    | rest => '.' :: rest
  digits.take 1 ++ fraction ++ ['e', if exponent < 0 then '-' else '+'] ++
    List.replicate (layout.exponentWidth - size.length) '0' ++ size

/-- A sign before a negative number. -/
def signed (negative : Bool) (cs : List Char) : List Char :=
  if negative then '-' :: cs else cs

/-- A number in a written form. -/
def Layout.render (layout : Layout) : Magnitude → List Char
  | .nan => layout.nan.toList
  | .infinite negative => signed negative layout.infinity.toList
  | .finite negative m q =>
    signed negative <|
      if m = 0 then ['0', '.', '0'] else
        let (digits, point) := shortest m q
        if layout.firstPlace ≤ point && point ≤ layout.lastPlace then positional digits point
        else layout.scientific digits point

/-- A double in the plain form. -/
def floatChars (x : Float) : List Char :=
  plain.render (magnitude x)

def floatText (x : Float) : String :=
  String.ofList (floatChars x)

end Concordance.Decimal
