import Concordance.Decimal.Integer
import Concordance.Decimal.Layout
import Concordance.Text.Quoted
import Concordance.Value

/-!
# Values as text

* `Value.literalChars` — a value as error messages quote it: texts in quotes, lists in brackets,
  records in braces.
* `Value.displayChars` — a value as a line of text shows it: like its literal, but a text stands
  bare and an option by its label.
* `displayChars_text` — the display of a text is that text.
-/

namespace Concordance.Value

open Concordance.Decimal Concordance.Text

/-- Pieces with a comma and a space between them. -/
def commaSeparated : List (List Char) → List Char
  | [] => []
  | [piece] => piece
  | piece :: rest => piece ++ [',', ' '] ++ commaSeparated rest

mutual

/-- A value as error messages quote it. -/
def literalChars : Value → List Char
  | null => "None".toList
  | bool true => "True".toList
  | bool false => "False".toList
  | int n => intChars n
  | float x => floatChars x
  | text s => quoted s.toList
  | choice c => '<' :: c.label.toList ++ [':', ' '] ++ quoted c.name.toList ++ ['>']
  | bytes bs => quotedBytes bs
  | list items => '[' :: commaSeparated (literalItems items) ++ [']']
  | record entries => '\x7b' :: commaSeparated (literalEntries entries) ++ ['\x7d']

/-- The literals of a list's items. -/
def literalItems : List Value → List (List Char)
  | [] => []
  | v :: rest => literalChars v :: literalItems rest

/-- The literals of a record's entries. -/
def literalEntries : List (Value × Value) → List (List Char)
  | [] => []
  | (k, v) :: rest => (literalChars k ++ [':', ' '] ++ literalChars v) :: literalEntries rest

end

/-- A value as a line of text shows it. -/
def displayChars : Value → List Char
  | text s => s.toList
  | choice c => c.label.toList
  | v => literalChars v

/-- A value as error messages quote it. -/
def literal (v : Value) : String :=
  String.ofList v.literalChars

/-- A value as a line of text shows it. -/
def display (v : Value) : String :=
  String.ofList v.displayChars

@[simp]
theorem displayChars_text (s : String) : displayChars (text s) = s.toList := rfl

@[simp]
theorem display_text (s : String) : display (text s) = s := by
  simp [display]

example : literal (list [text "a'", null, bool true, int (-1)]) = "[\"a'\", None, True, -1]" := by
  decide

example : literal (choice (.ofMode .proximity)) = "<QueryMode.PROXIMITY: 'proximity'>" := by decide

end Concordance.Value
