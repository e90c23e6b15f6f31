import Concordance.FirstSeen
import Concordance.Text.Blank
import Concordance.Text.Pieces
import Concordance.Value

/-!
# Search terms

A term keeps the letters, digits, white space, hyphens and apostrophes of what was typed, without
the white space at its ends.  What is no text has no term.

* `isTermChar` — the characters that a term may hold.
* `cleanChars`, `clean` — the term of a text and of a value.
* `contextTerms` — the distinct terms of a list of contexts.
-/

namespace Concordance.Term

open Concordance.Text

/-- The letters of Latin-1 beyond ASCII and of Latin Extended-A. -/
def accentedLetters : Ranges :=
  [(0xC0, 0xD6), (0xD8, 0xF6), (0xF8, 0x17F)]

/-- The characters that a term may hold. -/
def isTermChar (c : Char) : Bool :=
  c.isAlphanum || inRanges accentedLetters c.toNat || isBlank c || c == '-' || c == '\''

/-- The term of what was typed. -/
def cleanChars (cs : List Char) : List Char :=
  trimChars (cs.filter isTermChar)

def cleanText (s : String) : String :=
  String.ofList (cleanChars s.toList)

/-- The term of a value; what is no text has none. -/
def clean (v : Value) : String :=
  match v.text? with
  | some s => cleanText s
  | none => ""

@[simp]
theorem toList_cleanText (s : String) : (cleanText s).toList = cleanChars s.toList := by
  simp [cleanText]

@[simp]
theorem clean_text (s : String) : clean (.text s) = cleanText s := rfl

/-- The texts between the commas of a text. -/
def commaPieces (s : String) : List String :=
  (pieces ',' s.toList).map String.ofList

/-- The texts that a value lists: the parts of a text, of a list's texts, or of a record's keys. -/
def contextPieces (v : Value) : List String :=
  match v.text?, v with
  | some s, _ => commaPieces s
  | none, .list items => (items.filterMap Value.text?).flatMap commaPieces
  | none, .record entries => (entries.filterMap fun e => e.1.text?).flatMap commaPieces
  | none, _ => []

/-- The distinct terms of a list of contexts, in the order of their first occurrence. -/
def contextTerms (v : Value) : List String :=
  firstSeen (((contextPieces v).map cleanText).filter fun t => t ≠ "")

/-- A value that names contexts: a text that is not blank, or anything else that counts as given. -/
def namesContexts (v : Value) : Bool :=
  match v.text? with
  | some s => trim s != ""
  | none => v.truthy

example : contextTerms (.text "voluntas, ratio ,, @@, ratio") = ["voluntas", "ratio"] := by
  decide +kernel

end Concordance.Term
