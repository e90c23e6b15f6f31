/-!
# Historical orthographies

An orthography lists, for some substrings, the spellings that stand for them.  The order of its
tables fixes the order of the spellings that are derived from a word.

* `Table` — substrings with their spellings, in order.
* `Table.ofEntries` — a table in which a repeated substring keeps its first place and its last
  spellings.
* `Orthography` — a named pair of tables.
* `medieval` — the orthography of medieval Latin.
-/

namespace Concordance

/-- Substrings with their spellings, in order. -/
abbrev Table := List (String × List String)

namespace Table

/-- The table with the given spellings of a substring. -/
def put (key : String) (spellings : List String) : Table → Table
  | [] => [(key, spellings)]
  | (k, old) :: rest =>
    if k = key then (k, spellings) :: rest else (k, old) :: put key spellings rest

/-- The table of entries given in order. -/
def ofEntries (entries : List (String × List String)) : Table :=
  entries.foldl (fun table e => put e.1 e.2 table) []

end Table

/-- A named pair of tables. -/
structure Orthography where
  name : String
  /-- Spellings of letters and digraphs. -/
  substitutions : Table := []
  /-- Doubled or alternate forms of vowels. -/
  vowels : Table := []
  deriving DecidableEq, Repr

/-- The orthography of medieval Latin. -/
def medieval : Orthography where
  name := "medieval_latin"
  substitutions := [
    ("ae", ["e", "ae", "æ"]),
    ("oe", ["e", "oe", "œ"]),
    ("ti", ["ci", "ti"]),
    ("ci", ["ti", "ci"]),
    ("ph", ["f", "ph"]),
    ("th", ["t", "th"]),
    ("ch", ["c", "ch", "k"]),
    ("y", ["i", "y"]),
    ("v", ["u", "v"]),
    ("j", ["i", "j"]),
    ("qu", ["c", "qu", "k"]),
    ("x", ["cs", "x", "ks"]),
    ("z", ["s", "z"]),
    ("gn", ["n", "gn", "gm"]),
    ("mn", ["n", "mn", "mm"])]
  vowels := [
    ("a", ["a", "aa"]),
    ("e", ["e", "ee"]),
    ("i", ["i", "ii", "y"]),
    ("o", ["o", "oo"]),
    ("u", ["u", "uu", "v"])]

end Concordance
