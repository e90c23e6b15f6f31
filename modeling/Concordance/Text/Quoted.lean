import Concordance.Text.Printable

/-!
# Quoted literals

A literal stands between two equal quotes: single ones, unless the text holds a single quote and no
double one.  A backslash goes before the quote and before a backslash; what cannot be shown is
written by its code point.

* `hexDigit`, `hexDigits` — a number in lower-case hexadecimal of a given width.
* `escape` — how one character is written inside a literal.
* `quoted`, `quotedBytes` — the literal of a text and of a row of bytes.
-/

namespace Concordance.Text

/-- The lower-case hexadecimal digit of a number below sixteen. -/
def hexDigit (n : Nat) : Char :=
  if n < 10 then Char.ofNat (0x30 + n) else Char.ofNat (0x57 + n)

/-- The last `width` hexadecimal digits of a number. -/
def hexDigits : Nat → Nat → List Char
  | 0, _ => []
  | width + 1, n => hexDigits width (n / 16) ++ [hexDigit (n % 16)]

/-- A code point in two, four or eight hexadecimal digits, the fewest of these that hold it. -/
def escapeCode (n : Nat) : List Char :=
  if n < 0x100 then ['\\', 'x'] ++ hexDigits 2 n
  else if n < 0x10000 then ['\\', 'u'] ++ hexDigits 4 n
  else ['\\', 'U'] ++ hexDigits 8 n

/-- One character inside a literal between two quotes of the given kind. -/
def escape (quote c : Char) : List Char :=
  if c = quote || c = '\\' then ['\\', c]
  else if c = '\t' then ['\\', 't']
  else if c = '\n' then ['\\', 'n']
  else if c = '\r' then ['\\', 'r']
  else if isPrintable c then [c]
  else escapeCode c.toNat

/-- One byte inside a literal between two quotes of the given kind; only ASCII is shown. -/
def escapeByte (quote : Char) (b : UInt8) : List Char :=
  if b < 0x7F then escape quote (Char.ofNat b.toNat) else escapeCode b.toNat

/-- The double quote serves a text that holds a single quote and no double one. -/
def quoteFor (cs : List Char) : Char :=
  if cs.contains '\'' && !cs.contains '"' then '"' else '\''

/-- The literal of a text. -/
def quoted (cs : List Char) : List Char :=
  let quote := quoteFor cs
  quote :: cs.flatMap (escape quote) ++ [quote]

/-- The literal of a row of bytes, marked by a `b`. -/
def quotedBytes (bs : List UInt8) : List Char :=
  let quote := quoteFor (bs.map fun b => Char.ofNat b.toNat)
  'b' :: quote :: bs.flatMap (escapeByte quote) ++ [quote]

example : quoted "it's".toList = "\"it's\"".toList := by decide

example : quoted ['\'', '"', '\\'] = "'\\'\"\\\\'".toList := by decide

example : quotedBytes [0x61, 0xFF, 0x27] = "b\"a\\xff'\"".toList := by decide

end Concordance.Text
