import Concordance.Text.Blank
import Concordance.Text.Digit

/-!
# Whole numbers in text

A whole number is written in base ten with a minus sign when it is negative.  It is read from digits
of any script, with single underscores between them, an optional sign before them and padding
around.  More than 4300 digits are refused before anything that follows them is looked at.

* `intChars`, `intText` — the written form.
* `digitRun` — digits with single underscores between them.
* `IntReading`, `readInt` — reading a whole number, with the two ways to fail.
-/

namespace Concordance.Decimal

open Concordance.Text

/-- The base-ten digits of a number, without leading zeros. -/
def natChars (n : Nat) : List Char :=
  Nat.toDigits 10 n

/-- A whole number in base ten. -/
def intChars : Int → List Char
  | .ofNat n => natChars n
  | .negSucc n => '-' :: natChars (n + 1)

/-- A whole number in base ten. -/
def intText (n : Int) : String :=
  String.ofList (intChars n)

/-- The number that a row of base-ten digits denotes. -/
def ofDigits (digits : List Nat) : Nat :=
  digits.foldl (fun total d => 10 * total + d) 0

/-- The most digits that are read as a whole number. -/
def digitLimit : Nat := 4300

/-- Digits of any script with single underscores between them. -/
def digitRun : List Char → Option (List Nat)
  | [] => none
  | [c] => (digitValue? c).map fun d => [d]
  | c :: '_' :: rest => do
    let d ← digitValue? c
    let ds ← digitRun rest
    return d :: ds
  | c :: rest => do
    let d ← digitValue? c
    let ds ← digitRun rest
    return d :: ds

/-- The padding of a written number: white space, but not the four ASCII information separators. -/
def isPadding (c : Char) : Bool :=
  isBlank c && !inRanges [(0x1C, 0x1F)] c.toNat

/-- The characters without the padding around them. -/
def unpad (cs : List Char) : List Char :=
  ((cs.dropWhile isPadding).reverse.dropWhile isPadding).reverse

/-- Splits an optional sign off; the first part says whether it is a minus. -/
def splitSign : List Char → Bool × List Char
  | '-' :: rest => (true, rest)
  | '+' :: rest => (false, rest)
  | cs => (false, cs)

/-- What comes of reading a whole number. -/
inductive IntReading where
  /-- The number that the text denotes. -/
  | number (n : Int)
  /-- The text is no whole number. -/
  | malformed
  /-- The text has more digits than are read. -/
  | tooLong (digits : Nat)
  deriving DecidableEq, Repr

/-- Digits of any script, and the marks between them. -/
def isRunChar (c : Char) : Bool :=
  c == '_' || (digitValue? c).isSome

/-- Reads a whole number. -/
def readInt (cs : List Char) : IntReading :=
  let (negative, body) := splitSign (cs.dropWhile isPadding)
  match digitRun (body.takeWhile isRunChar) with
  | none => .malformed
  | some ds =>
    if digitLimit < ds.length then .tooLong ds.length
    else if (body.dropWhile isRunChar).all isPadding then
      .number (if negative then -(ofDigits ds : Int) else ofDigits ds)
    else .malformed

/-- The number that a text denotes, if it is read as one. -/
def int? (cs : List Char) : Option Int :=
  match readInt cs with
  | .number n => some n
  | _ => none

example : readInt " -1_2 ".toList = .number (-12) := by decide

example : readInt "1__2".toList = .malformed ∧ readInt "_1".toList = .malformed := by decide

example : readInt "12 x".toList = .malformed ∧ readInt "- 1".toList = .malformed := by decide

example : intChars (-305) = "-305".toList := by decide

end Concordance.Decimal
