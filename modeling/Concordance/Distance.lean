import Concordance.Decimal.Integer
import Concordance.Value.Display

/-!
# Distances

A distance is the greatest number of tokens between two terms.  It is read from the number at the
head of what was typed and kept within bounds.

* `Limits` — the bounds, and the distances that serve where none can be read.
* `Extent`, `leadingExtent?` — the number at the head of a text, or the side beyond all numbers on
  which a number of too many digits lies.
* `Limits.clamp` — the nearest allowed distance.
* `Limits.read`, `Limits.distance` — the distance of a value.
* `minimum_le_clamp`, `clamp_le_maximum` — a clamped distance lies within its bounds.
-/

namespace Concordance.Distance

open Concordance.Decimal Concordance.Text

/-- Bounds of distances, and the distances that serve where none can be read. -/
structure Limits where
  minimum : Int := 0
  maximum : Int := 100
  proximity : Int := 10
  semantic : Int := 20
  deriving DecidableEq, Repr

/-- A number, or the side beyond all numbers. -/
inductive Extent where
  | number (n : Int)
  | beyond (negative : Bool)
  deriving DecidableEq, Repr

/-- The values of the leading digits of a text, of any script. -/
def leadingDigits : List Char → List Nat
  | [] => []
  | c :: rest =>
    match digitValue? c with
    | some d => d :: leadingDigits rest
    | none => []

/-- A text without its leading ASCII zeros, as far as digits follow. -/
def dropZeros (cs : List Char) : List Char :=
  cs.dropWhile (· == '0')

/-- The number of a run of digits: past the digit limit only its side is known. -/
def extentOf (negative : Bool) (cs : List Char) : Extent :=
  let digits := leadingDigits (dropZeros cs)
  if digitLimit < digits.length then .beyond negative
  else .number (if negative then -(ofDigits digits : Int) else ofDigits digits)

/-- The number at the head of a text, after white space and an optional sign. -/
def leadingExtent? (cs : List Char) : Option Extent :=
  let (negative, body) := splitSign (trimStart cs)
  if (leadingDigits body).isEmpty then none else some (extentOf negative body)

/-- The number that a value holds or begins with. -/
def extent? : Value → Option Extent
  | .null | .bool _ => none
  | .int n => some (.number n)
  | .float x => (magnitude x).truncate?.map .number
  | v => leadingExtent? v.displayChars

/-- The nearest number within the bounds; the lower bound wins where the two cross. -/
def Limits.clamp (limits : Limits) : Extent → Int
  | .number n => max limits.minimum (min limits.maximum n)
  | .beyond true => limits.minimum
  | .beyond false => max limits.minimum limits.maximum

/-- The distance of a value; `fallback` serves where none can be read. -/
def Limits.read (limits : Limits) (fallback : Int) (v : Value) : Int :=
  limits.clamp ((extent? v).getD (.number fallback))

/-- The distance of a value; where none can be read the given number serves, or else the distance of
proximity searches. -/
def Limits.distance (limits : Limits) (fallback? : Option Int) (v : Value) : Int :=
  limits.read (fallback?.getD limits.proximity) v

theorem minimum_le_clamp (limits : Limits) (e : Extent) : limits.minimum ≤ limits.clamp e := by
  match e with
  | .number n => exact Int.le_max_left _ _
  | .beyond true => exact Int.le_refl _
  | .beyond false => exact Int.le_max_left _ _

theorem clamp_le_maximum {limits : Limits} (h : limits.minimum ≤ limits.maximum) (e : Extent) :
    limits.clamp e ≤ limits.maximum := by
  match e with
  | .number n => exact Int.max_le.2 ⟨h, Int.min_le_left _ _⟩
  | .beyond true => exact h
  | .beyond false => exact Int.max_le.2 ⟨h, Int.le_refl _⟩

example : Limits.read {} 10 (.text " +12 tokens") = 12 := by decide

end Concordance.Distance
