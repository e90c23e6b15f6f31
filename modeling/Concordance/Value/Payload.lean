import Concordance.Value.Display

/-!
# Payloads: a record on one line of a log

A payload is written as JSON in ASCII alone, with a comma and a colon followed by one space and with
the keys of each record in order.  Texts are ordered by code points and numbers by what they denote.
Keys of different sorts have no order, and bytes are written as no key; a record with such keys
anywhere inside is written in the order of its assignments, with the display of each value in
quotes.

* `escapeUnit`, `jsonString` — the ASCII form of a text.
* `jsonKey` — the text of a key.
* `sortEntries` — entries in the order of their keys.
* `json?` — a value with sorted keys, unless some keys have no order.
* `payload` — the written record.
-/

namespace Concordance.Payload

open Concordance.Decimal Concordance.Text

/-- One UTF-16 unit as an escape. -/
def escapeUnit (n : Nat) : List Char :=
  ['\\', 'u'] ++ hexDigits 4 n

/-- One character inside a string. -/
def escapeJson (c : Char) : List Char :=
  if c = '"' then ['\\', '"']
  else if c = '\\' then ['\\', '\\']
  else if c = '\n' then ['\\', 'n']
  else if c = '\r' then ['\\', 'r']
  else if c = '\t' then ['\\', 't']
  else if c = '\x08' then ['\\', 'b']
  else if c = '\x0c' then ['\\', 'f']
  else if 0x20 ≤ c.toNat ∧ c.toNat < 0x7F then [c]
  else if c.toNat < 0x10000 then escapeUnit c.toNat
  else
    let rest := c.toNat - 0x10000
    escapeUnit (0xD800 + rest / 0x400) ++ escapeUnit (0xDC00 + rest % 0x400)

/-- A text as a string in ASCII. -/
def jsonString (cs : List Char) : List Char :=
  '"' :: cs.flatMap escapeJson ++ ['"']

/-- The form of doubles inside payloads. -/
def jsonLayout : Layout :=
  { plain with nan := "NaN", infinity := "Infinity" }

/-- A double inside a payload. -/
def jsonFloat (x : Float) : List Char :=
  jsonLayout.render (magnitude x)

/-- The sort of a key; only keys of one sort have an order, and bytes are written as no key. -/
inductive KeySort where
  | nothing
  | number
  | text
  | other
  deriving DecidableEq, Repr

/-- The sort of a key. -/
def keySort : Value → KeySort
  | .null => .nothing
  | .bool _ | .int _ | .float _ => .number
  | .text _ | .choice _ => .text
  | _ => .other

/-- The characters of a key inside its string. -/
def keyChars : Value → List Char
  | .null => "null".toList
  | .bool true => "true".toList
  | .bool false => "false".toList
  | .int n => intChars n
  | .float x => jsonFloat x
  | .choice c => c.name.toList
  | v => v.displayChars

/-- The text of a key. -/
def jsonKey (key : Value) : List Char :=
  jsonString (keyChars key)

/-- The order of texts by code points. -/
def charsLe : List Char → List Char → Bool
  | [], _ => true
  | _ :: _, [] => false
  | c :: cs, d :: ds => if c = d then charsLe cs ds else decide (c.toNat < d.toNat)

/-- The order of two keys of one sort. -/
def keyLe (a b : Value) : Bool :=
  match a.magnitude?, b.magnitude? with
  | some x, some y => compareMagnitude x y != some .gt
  | _, _ => charsLe (keyChars a) (keyChars b)

/-- Entries, in order, with one more entry at its place. -/
def insertEntry {α : Type} (entry : Value × α) : List (Value × α) → List (Value × α)
  | [] => [entry]
  | e :: rest => if keyLe entry.1 e.1 then entry :: e :: rest else e :: insertEntry entry rest

/-- Entries in the order of their keys. -/
def sortEntries {α : Type} (entries : List (Value × α)) : List (Value × α) :=
  entries.foldr insertEntry []

/-- All keys are of one sort of those that are written. -/
def sameSort {α : Type} : List (Value × α) → Bool
  | [] => true
  | e :: rest => keySort e.1 != .other && rest.all fun f => keySort f.1 == keySort e.1

/-- Written entries of a record, between braces. -/
def jsonRecord (entries : List (Value × List Char)) : List Char :=
  '\x7b' :: Value.commaSeparated (entries.map fun e => jsonKey e.1 ++ [':', ' '] ++ e.2) ++ ['\x7d']

mutual

/-- A value with sorted keys, unless some keys have no order. -/
def json? : Value → Option (List Char)
  | .null => some "null".toList
  | .bool true => some "true".toList
  | .bool false => some "false".toList
  | .int n => some (intChars n)
  | .float x => some (jsonFloat x)
  | .text s => some (jsonString s.toList)
  | .choice c => some (jsonString c.name.toList)
  | .bytes bs => some (jsonString (quotedBytes bs))
  | .list items => do
    let pieces ← jsonItems? items
    return '[' :: Value.commaSeparated pieces ++ [']']
  | .record entries => do
    let written ← jsonEntries? entries
    if sameSort written then return jsonRecord (sortEntries written) else none

/-- The items of a list. -/
def jsonItems? : List Value → Option (List (List Char))
  | [] => some []
  | v :: rest => do
    let piece ← json? v
    let pieces ← jsonItems? rest
    return piece :: pieces

/-- The entries of a record, with their values written. -/
def jsonEntries? : List (Value × Value) → Option (List (Value × List Char))
  | [] => some []
  | (k, v) :: rest => do
    let piece ← json? v
    let pieces ← jsonEntries? rest
    return (k, piece) :: pieces

end

/-- A record in the order of its assignments, with the display of each value. -/
def displayRecord (entries : Value.Entries) : List Char :=
  jsonRecord (entries.map fun e => (e.1, jsonString e.2.displayChars))

/-- The written form of a record. -/
def payload (entries : Value.Entries) : List Char :=
  (json? (.record entries)).getD (displayRecord entries)

example : payload [(.text "b", .null), (.text "a", .text "é\n")] =
    "\x7b\"a\": \"\\u00e9\\n\", \"b\": null\x7d".toList := by decide

end Concordance.Payload
