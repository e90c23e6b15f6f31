/-!
# Double precision numbers and exact arithmetic

A finite double is `m · 2 ^ q` for a whole `m` and an exponent `q`.  This module takes a double
apart and rounds exact quotients to doubles, a half going to the even neighbour.

* `Magnitude`, `magnitude` — what a double denotes.
* `compareMagnitude` — the exact order, in which `nan` has no place.
* `roundHalfEven`, `ofQuotient`, `ofScaled` — the nearest double of a quotient and of `m · 10 ^ e`.
* `truncate?` — the whole part of a finite double.
* `roundHalfEven_exact` — a quotient without remainder stays as it is.
-/

namespace Concordance.Decimal

/-- What a number denotes exactly. -/
inductive Magnitude where
  | nan
  /-- Infinity, with its sign. -/
  | infinite (negative : Bool)
  /-- The number `m · 2 ^ q`, with the sign that also zero carries. -/
  | finite (negative : Bool) (m : Nat) (q : Int)
  deriving DecidableEq, Repr

/-- The bit in front of the fraction of a double, `2 ^ 52`. -/
def leadingBit : Nat := 0x10000000000000

/-- The bit of the sign of a double, `2 ^ 63`. -/
def signBit : Nat := 0x8000000000000000

def tenPow (k : Nat) : Nat :=
  Nat.pow 10 k

/-- The parts of a double, read from its sign, exponent and fraction bits. -/
def magnitude (x : Float) : Magnitude :=
  let bits := x.toBits.toNat
  let negative : Bool := signBit ≤ bits
  let exponent : Nat := bits / leadingBit % 0x800
  let fraction := bits % leadingBit
  if exponent = 2047 then
    if fraction = 0 then .infinite negative else .nan
  else if exponent = 0 then .finite negative fraction (-1074)
  else .finite negative (leadingBit + fraction) ((exponent : Int) - 1075)

/-- What a whole number denotes. -/
def wholeMagnitude (n : Int) : Magnitude :=
  .finite (n < 0) n.natAbs 0

/-- A finite number as a whole multiple of `2 ^ unit`, for a `unit` no larger than its own. -/
def alignTo (unit : Int) (negative : Bool) (m : Nat) (q : Int) : Int :=
  let scaled : Int := (m <<< (q - unit).toNat : Nat)
  if negative then -scaled else scaled

/-- The exact order of two numbers; `nan` compares with nothing. -/
def compareMagnitude : Magnitude → Magnitude → Option Ordering
  | .nan, _ => none
  | _, .nan => none
  | .infinite s, .infinite t => some (compare t.toNat s.toNat)
  | .infinite s, .finite _ _ _ => some (if s then .lt else .gt)
  | .finite _ _ _, .infinite t => some (if t then .gt else .lt)
  | .finite s m q, .finite t n r =>
    let unit := min q r
    some (compare (alignTo unit s m q) (alignTo unit t n r))

/-- The whole number nearest to a quotient; a half goes to the even neighbour. -/
def roundHalfEven (num den : Nat) : Nat :=
  let floor := num / den
  let rest := num % den
  if 2 * rest < den then floor
  else if den < 2 * rest then floor + 1
  else if floor % 2 = 0 then floor else floor + 1

theorem roundHalfEven_exact {k den : Nat} (h : 0 < den) : roundHalfEven (k * den) den = k := by
  simp [roundHalfEven, Nat.mul_div_cancel k h, h]

/-- A quotient times a power of two, as a new quotient. -/
def scaleBinary (num den : Nat) (shift : Int) : Nat × Nat :=
  (num <<< shift.toNat, den <<< (-shift).toNat)

/-- The exponent that gives a quotient a significand of 53 bits, or the least one. -/
def binaryExponent (num den : Nat) : Int :=
  let guess : Int := (Nat.log2 num : Int) - Nat.log2 den - 52
  let (a, b) := scaleBinary num den (-guess)
  let q := if a < b * leadingBit then guess - 1 else guess
  max q (-1074)

/-- The bits of a double without its sign; past the largest finite one, those of infinity. -/
def magnitudeBits (m : Nat) (q : Int) : Nat :=
  min ((q + 1074).toNat * leadingBit + m) (2047 * leadingBit)

/-- The double nearest to a quotient, with the given sign. -/
def ofQuotient (negative : Bool) (num den : Nat) : Float :=
  let bits :=
    if num = 0 then 0 else
      let q := binaryExponent num den
      let (a, b) := scaleBinary num den (-q)
      magnitudeBits (roundHalfEven a b) q
  Float.ofBits (UInt64.ofNat (bits + if negative then signBit else 0))

/-- The double nearest to `m · 10 ^ e`; exponents beyond every double are cut first. -/
def ofScaled (negative : Bool) (m : Nat) (e : Int) : Float :=
  let places : Int := (Nat.toDigits 10 m).length
  if m = 0 then ofQuotient negative 0 1
  else if 400 < places + e then ofQuotient negative (tenPow 400) 1
  else if places + e < -400 then ofQuotient negative 0 1
  else ofQuotient negative (m * tenPow e.toNat) (tenPow (-e).toNat)

/-- The double nearest to a whole number, unless that lies beyond the finite doubles. -/
def ofWhole? (n : Int) : Option Float :=
  let x := ofQuotient (n < 0) n.natAbs 1
  match magnitude x with
  | .finite _ _ _ => some x
  | _ => none

/-- The whole part of a finite number. -/
def Magnitude.truncate? : Magnitude → Option Int
  | .finite negative m q =>
    let whole : Int := ((m <<< q.toNat) >>> (-q).toNat : Nat)
    some (if negative then -whole else whole)
  | _ => none

end Concordance.Decimal
