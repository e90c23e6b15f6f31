import Concordance.Value.Number

/-!
# Clocks

A clock shows numbers: whole ones of any size, or doubles.  A reading is the double of the number
that is shown; a whole number beyond the doubles has none.

* `Tick` — a number that a clock shows, with its `reading`.
* `Tick.add` — sums, which are exact among whole numbers.
* `Clock`, `Clock.read` — a clock, and one reading with the clock after it.
-/

namespace Concordance.Trace

/-- A number that a clock shows. -/
inductive Tick where
  | whole (n : Int)
  | real (x : Float)

namespace Tick

/-- The double of a number. -/
def reading : Tick → Except Fault Float
  | whole n => Value.floatOfInt n
  | real x => .ok x

/-- The sum of two numbers: a whole number if both are, and otherwise a double. -/
def add : Tick → Tick → Except Fault Tick
  | whole m, whole n => .ok (whole (m + n))
  | a, b => do
    let x ← a.reading
    let y ← b.reading
    return real (x + y)

end Tick

/-- The numbers that a clock shows. -/
inductive Clock where
  /-- The next number, and the step to the one after it. -/
  | steady (next step : Tick)
  /-- Numbers one after the other; the last one repeats. -/
  | listed (ticks : List Tick)

/-- One reading, and the clock after it.  A clock that cannot move on stands still and gives no
reading. -/
def Clock.read : Clock → Except Fault Float × Clock
  | steady next step =>
    match next.add step with
    | .error fault => (.error fault, steady next step)
    | .ok after => (next.reading, steady after step)
  | listed [] => (.ok 0, listed [])
  | listed [last] => (last.reading, listed [last])
  | listed (tick :: rest) => (tick.reading, listed rest)

end Concordance.Trace
