import Concordance.Metric.Sample
import Concordance.Value.Number

/-!
# Amounts

A counter is moved on by an amount, and a histogram observes one.

* `addition`, `addend?` — the double that an amount adds to a counter.
* `observation` — the double that an observation adds to the sum of a histogram.
* `Kind.growth?` — how much a metric counts by a value.
-/

namespace Concordance.Metric

open Concordance.Decimal

/-- The double that an amount adds to a counter: a number adds what it is, unless it is negative. -/
def addition (amount : Value) : Except Fault Float :=
  match amount.magnitude? with
  | none => .error (.incomparable amount.kind "int")
  | some m =>
    if compareMagnitude m (wholeMagnitude 0) = some .lt then .error .negativeIncrement
    else amount.toFloat

/-- The double that an amount adds to a counter, if it adds one. -/
def addend? (amount : Value) : Option Float :=
  (addition amount).toOption

/-- The double that an observation adds to a sum. -/
def observation (value : Value) : Except Fault Float :=
  match value.magnitude? with
  | none => .error (.notAddable "float" value.kind)
  | some _ => value.toFloat

/-- How much a metric counts by a value: a counter the amount, a histogram one for each number. -/
def Kind.growth? : Kind → Value → Option Float
  | counter, amount => addend? amount
  | histogram, value =>
    if value.magnitude? = some .nan then none else (observation value).toOption.map fun _ => 1

end Concordance.Metric
