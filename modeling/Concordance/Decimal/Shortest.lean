import Concordance.Decimal.Binary

/-!
# The shortest decimal that reads back

Around the number `m · 2 ^ q` lies the interval of the decimals that are read as it.  The shortest
decimal is a point of that interval with the fewest digits, and among these the nearest one.  If a
grid of decimals meets the interval, one of the two neighbours of the number on that grid lies in
it, so it is enough to look at these.

* `Interval`, `interval` — the decimals that are read as a given double.
* `decimalPoint` — the place of the point before the first digit.
* `shortest` — the digits and the place of their point.
-/

namespace Concordance.Decimal

/-- The interval of the reals that round to a double, in units of a quarter of its last place. -/
structure Interval where
  /-- The double itself. -/
  center : Nat
  /-- The lower end. -/
  low : Nat
  /-- The upper end. -/
  high : Nat
  /-- Whether the ends belong to it. -/
  closed : Bool
  deriving DecidableEq, Repr

/-- The interval around `m · 2 ^ q`: the next double below a power of two is only half as far. -/
def interval (m : Nat) (q : Int) : Interval :=
  let gap := if m = leadingBit ∧ -1074 < q then 1 else 2
  { center := 4 * m, low := 4 * m - gap, high := 4 * m + 2, closed := m % 2 == 0 }

/-- A whole number of decimal units lies in the interval; a unit is `num / den` interval units. -/
def Interval.holds (i : Interval) (num den units : Nat) : Bool :=
  let x := units * num
  if i.closed then i.low * den ≤ x && x ≤ i.high * den
  else i.low * den < x && x < i.high * den

/-- The least `k` from `start` on with `num / den < 10 ^ k`, within the given number of steps. -/
def pointFrom (num den : Nat) : Nat → Int → Int
  | 0, k => k
  | steps + 1, k =>
    if num * tenPow (-k).toNat < den * tenPow k.toNat then k else pointFrom num den steps (k + 1)

/-- The least `k` with `num / den < 10 ^ k`. -/
def decimalPoint (num den : Nat) : Int :=
  pointFrom num den 700 (-330)

/-- The neighbour of the number on the grid of `n` digits that lies in the interval, if any. -/
def Interval.onGrid? (i : Interval) (num den : Nat) (k : Int) (n : Nat) : Option Nat :=
  -- one grid unit is 10 ^ (k - n), and one interval unit is num / den
  let unitNum := tenPow (k - n).toNat * den
  let unitDen := tenPow (n - k).toNat * num
  let below := i.center * unitDen / unitNum
  let lower := i.holds unitNum unitDen below
  let upper := i.holds unitNum unitDen (below + 1)
  if lower && upper then
    let toLower := i.center * unitDen - below * unitNum
    let toUpper := (below + 1) * unitNum - i.center * unitDen
    if toLower < toUpper then some below
    else if toUpper < toLower then some (below + 1)
    else some (if below % 2 = 0 then below else below + 1)
  else if lower then some below
  else if upper then some (below + 1)
  else none

/-- The shortest digits of `m · 2 ^ q` and the place of the point before them. -/
def shortest (m : Nat) (q : Int) : List Char × Int :=
  let i := interval m q
  -- one interval unit is 2 ^ (q - 2)
  let num := 1 <<< (q - 2).toNat
  let den := 1 <<< (2 - q).toNat
  let k := decimalPoint (i.center * num) den
  let found := (List.range 17).findSome? fun n =>
    (i.onGrid? num den k (n + 1)).map fun d => (d, n + 1)
  match found with
  | none => (['0'], 1)
  | some (d, n) =>
    let digits := Nat.toDigits 10 d
    let point := k + (digits.length : Int) - n
    ((digits.reverse.dropWhile (· == '0')).reverse, point)

end Concordance.Decimal
