import Concordance.Text.Blank

/-!
# Names in any mix of cases

The names of options and levels are ASCII, so only the characters whose other case is in ASCII
matter.  No character outside ASCII lowers to a letter of an option's name; a few, among them the
dotless `ı` and the ligatures, rise to one or more ASCII capitals.

* `capitals` — what a character becomes in capitals.
* `lowerName` — a name trimmed and in small letters.
* `upperName` — a name trimmed and in capitals.
-/

namespace Concordance.Text

/-- The characters outside ASCII that rise to ASCII capitals. -/
def risen : List (Char × String) :=
  [('ß', "SS"), ('ı', "I"), ('ſ', "S"), ('ﬀ', "FF"), ('ﬁ', "FI"), ('ﬂ', "FL"), ('ﬃ', "FFI"),
    ('ﬄ', "FFL"), ('ﬅ', "ST"), ('ﬆ', "ST")]

/-- The capitals of a character, as far as they are in ASCII. -/
def capitals (c : Char) : List Char :=
  match risen.lookup c with
  | some s => s.toList
  | none => [c.toUpper]

/-- A name trimmed and in small letters. -/
def lowerName (s : String) : String :=
  String.ofList ((trimChars s.toList).map Char.toLower)

/-- A name trimmed and in capitals. -/
def upperName (s : String) : String :=
  String.ofList ((trimChars s.toList).flatMap capitals)

example : lowerName " Semantic_ANY\n" = "semantic_any" := by decide

example : upperName "crıtıcal" = "CRITICAL" ∧ upperName " _ﬆyles" = "_STYLES" := by decide

end Concordance.Text
