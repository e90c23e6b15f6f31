import Concordance.Decimal.Reader
import Concordance.Fault

/-!
# Numbers in values

* `Value.toInt` — the whole number that a value holds; a double loses its fraction.
* `Value.toFloat` — the double that a value holds.
-/

namespace Concordance.Value

open Concordance.Decimal

/-- The bytes as characters, one for each. -/
def asciiChars (bs : List UInt8) : List Char :=
  bs.map fun b => Char.ofNat (if b < 0x80 then b.toNat else 0)

/-- Reads a whole number from the characters of a value. -/
def integerIn (given : Value) (cs : List Char) : Except Fault Int :=
  match readInt cs with
  | .number n => .ok n
  | .malformed => .error (.notInteger given)
  | .tooLong digits => .error (.tooManyDigits digits)

/-- The whole number that a value holds. -/
def toInt : Value → Except Fault Int
  | bool b => .ok b.toNat
  | int n => .ok n
  | float x =>
    match magnitude x with
    | .nan => .error .wholeOfNan
    | .infinite _ => .error .wholeOfInfinity
    | m => .ok (m.truncate?.getD 0)
  | text s => integerIn (text s) s.toList
  | choice c => integerIn (choice c) c.name.toList
  | bytes bs => integerIn (bytes bs) (asciiChars bs)
  | v => .error (.noIntegerIn v.kind)

/-- Reads a double from the characters of a value. -/
def floatIn (given : Value) (cs : List Char) : Except Fault Float :=
  match readFloat? cs with
  | some x => .ok x
  | none => .error (.notNumber given)

/-- The double nearest to a whole number. -/
def floatOfInt (n : Int) : Except Fault Float :=
  match ofWhole? n with
  | some x => .ok x
  | none => .error .tooLarge

/-- The double that a value holds. -/
def toFloat : Value → Except Fault Float
  | bool b => floatOfInt b.toNat
  | int n => floatOfInt n
  | float x => .ok x
  | text s => floatIn (text s) s.toList
  | choice c => floatIn (choice c) c.name.toList
  | bytes bs => floatIn (bytes bs) (asciiChars bs)
  | v => .error (.noNumberIn v.kind)

end Concordance.Value
