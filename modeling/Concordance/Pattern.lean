import Concordance.Choice.Reading
import Concordance.Fault
import Concordance.FirstSeen
import Concordance.Orthography

/-!
# Spelling patterns

From one word a strategy derives patterns: the word itself, the word with one or two characters
replaced by a wildcard, or the word with one occurrence respelled by an orthography.

* `optionalLetter`, `anyLetters` — the wildcards.
* `singleHoles`, `pairHoles` — a word with one character, or two, replaced.
* `respellings` — a word with one occurrence of a substring respelled.
* `derive` — the patterns of a strategy, with repeats.
* `variants` — the patterns of a strategy with an ending, without repeats.
* `Generator` — anything that yields patterns.
* `PatternSet`, `Generator.patternSet` — the patterns of a word under a strategy that is still to be
  read; an orthography fails under none that is read (`Generator.patternSet_ofOrthography`).
* `termPatterns` — the patterns of a term, also under a strategy that does not exist.
* `length_singleHoles`, `length_pairHoles` — a hole for each character, and for each pair of them.
-/

namespace Concordance.Pattern

/-- At most one letter. -/
def optionalLetter : List Char := "[A-z]?".toList

/-- A run of letters, which may be empty. -/
def anyLetters : List Char := "[A-z]*".toList

/-- A word with each of its characters in turn replaced by a wildcard. -/
def singleHoles (wildcard : List Char) : List Char → List (List Char)
  | [] => []
  | c :: rest => (wildcard ++ rest) :: (singleHoles wildcard rest).map (c :: ·)

/-- A word with each pair of its characters in turn replaced by wildcards. -/
def pairHoles (wildcard : List Char) : List Char → List (List Char)
  | [] => []
  | c :: rest =>
    (singleHoles wildcard rest).map (wildcard ++ ·) ++ (pairHoles wildcard rest).map (c :: ·)

@[simp]
theorem length_singleHoles (wildcard word : List Char) :
    (singleHoles wildcard word).length = word.length := by
  induction word with
  | nil => rfl
  | cons c rest ih => simp [singleHoles, ih]

theorem length_pairHoles (wildcard word : List Char) :
    2 * (pairHoles wildcard word).length = word.length * (word.length - 1) := by
  induction word with
  | nil => rfl
  | cons c rest ih =>
    simp only [pairHoles, List.length_append, List.length_map, length_singleHoles,
      List.length_cons, Nat.add_sub_cancel, Nat.mul_add, ih]
    cases rest.length with
    | zero => rfl
    | succ n =>
      simp only [Nat.add_sub_cancel]
      rw [Nat.add_mul, ← Nat.add_mul]
      simp only [Nat.add_mul, Nat.mul_add]
      omega

/-- A word with each occurrence of a substring in turn replaced by each of its other spellings. -/
def respellings (key : List Char) (spellings : List (List Char)) : List Char → List (List Char)
  | [] => if key = [] then spellings.filter (· ≠ key) else []
  | c :: rest =>
    (if key.isPrefixOf (c :: rest) then
      (spellings.filter (· ≠ key)).map (· ++ (c :: rest).drop key.length)
    else []) ++ (respellings key spellings rest).map (c :: ·)

/-- A word with one occurrence respelled by one entry of a table. -/
def tableRespellings (table : Table) (word : List Char) : List (List Char) :=
  table.flatMap fun e => respellings e.1.toList (e.2.map String.toList) word

/-- The patterns of a strategy that replaces characters or respells occurrences, with repeats. -/
def derive (o : Orthography) (word : List Char) : Strategy → List (List Char)
  | .simple => word :: singleHoles optionalLetter word
  | .medium => word :: singleHoles anyLetters word
  | .complex => word :: pairHoles anyLetters word
  | .historical => word :: tableRespellings o.substitutions word ++ tableRespellings o.vowels word
  | .combined =>
    (word :: singleHoles optionalLetter word) ++ (word :: singleHoles anyLetters word) ++
      (word :: pairHoles anyLetters word) ++
      (word :: tableRespellings o.substitutions word ++ tableRespellings o.vowels word)

theorem derive_combined (o : Orthography) (word : List Char) :
    derive o word .combined = Strategy.named.flatMap (derive o word) := by
  simp [derive, Strategy.named]

/-- The ending that matches inflected forms. -/
def ending (suffixed : Bool) : List Char :=
  if suffixed then anyLetters else []

@[simp]
theorem ending_false : ending false = [] := rfl

@[simp]
theorem ending_true : ending true = anyLetters := rfl

/-- The patterns of a word with an ending, each one once. -/
def variants (o : Orthography) (t : Strategy) (word tail : List Char) : List String :=
  firstSeen ((derive o word t).map fun p => String.ofList (p ++ tail))

/-- The patterns of a word, of which the empty word has none. -/
def patterns (o : Orthography) (t : Strategy) (word : String) (suffixed : Bool) : List String :=
  if word = "" then [] else variants o t word.toList (ending suffixed)

/-- The patterns of one word under one strategy. -/
structure PatternSet where
  word : String
  strategy : Strategy
  patterns : List String
  suffixed : Bool
  deriving DecidableEq, Repr

/-- The word with its ending. -/
def PatternSet.literal (s : PatternSet) : String :=
  s.word ++ String.ofList (ending s.suffixed)

/-- Whatever yields the patterns of a word, or fails. -/
structure Generator where
  /-- The name of the orthography behind it. -/
  name : String
  generate : String → Strategy → Bool → Except Fault (List String)

/-- The generator of an orthography, which never fails. -/
def Generator.ofOrthography (o : Orthography) : Generator where
  name := o.name
  generate := fun word t suffixed => .ok (patterns o t word suffixed)

/-- The patterns of a word under a strategy that is read from a value. -/
def Generator.patternSet (g : Generator) (word : String) (given : Value) (suffixed : Bool) :
    Except Fault PatternSet := do
  match Strategy.ofValue? given with
  | none => throw (.unknownStrategy given)
  | some t =>
    let found ← g.generate word t suffixed
    return { word, strategy := t, patterns := found, suffixed }

theorem Generator.patternSet_ofOrthography {given : Value} {t : Strategy}
    (h : Strategy.ofValue? given = some t) (o : Orthography) (word : String) (suffixed : Bool) :
    (Generator.ofOrthography o).patternSet word given suffixed =
      .ok ⟨word, t, patterns o t word suffixed, suffixed⟩ := by
  simp only [Generator.patternSet, h]
  rfl

/-- The patterns of a term; without a known strategy, the term alone. -/
def termPatterns (term : String) (given : Value) (suffixed : Bool) : List String :=
  if term = "" then [] else
    match Strategy.ofValue? given with
    | none => [term ++ String.ofList (ending suffixed)]
    | some t => patterns medieval t term suffixed

example : patterns medieval .historical "ratio" false =
    ["ratio", "racio", "raatio", "ratiio", "ratyo", "ratioo"] := by decide +kernel

end Concordance.Pattern
