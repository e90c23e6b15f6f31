/-!
# The closed sets of options

* `Attribute`, `Mode`, `Strategy`, `RefusalKind` — the options, each with its `name` and `ofName?`.
* `Choice` — one option of any of the four sets, with its `name` and its dotted `label`.
* `ofName?_name` — every option is found again under its own name.
-/

namespace Concordance

/-- The token attribute that a query compares. -/
inductive Attribute where
  /-- The normalized form. -/
  | lemmaForm
  /-- The surface form. -/
  | wordForm
  deriving DecidableEq, Repr

/-- What a compiled query looks for. -/
inductive Mode where
  /-- Two lemmas near each other. -/
  | proximity
  /-- Two lemmas near each other, each in any of its spellings. -/
  | proximityWithVariation
  /-- A lemma near at least one context lemma. -/
  | semanticAny
  /-- A lemma near a context lemma, one pairing for each. -/
  | semanticPhrase
  /-- A lemma together with two context lemmas, for every pair of them. -/
  | semanticAll
  deriving DecidableEq, Repr

/-- How spellings are derived from a word. -/
inductive Strategy where
  /-- One character becomes at most one letter. -/
  | simple
  /-- One character becomes a run of letters. -/
  | medium
  /-- Two characters become runs of letters. -/
  | complex
  /-- One respelling by a historical orthography. -/
  | historical
  /-- All four together. -/
  | combined
  deriving DecidableEq, Repr

/-- Why a request is refused. -/
inductive RefusalKind where
  | missingInput
  | noValidContext
  | emptyPatternSet
  | invalidOption
  | inputTooLong
  | tooManyContexts
  deriving DecidableEq, Repr

namespace Attribute

def name : Attribute → String
  | lemmaForm => "lemma"
  | wordForm => "word"

def options : List Attribute := [lemmaForm, wordForm]

def ofName? (s : String) : Option Attribute :=
  options.find? fun a => a.name = s

@[simp]
theorem ofName?_name (a : Attribute) : ofName? a.name = some a := by
  cases a <;> rfl

end Attribute

namespace Mode

def name : Mode → String
  | proximity => "proximity"
  | proximityWithVariation => "proximity_with_variation"
  | semanticAny => "semantic_any"
  | semanticPhrase => "semantic_phrase"
  | semanticAll => "semantic_all"

def options : List Mode :=
  [proximity, proximityWithVariation, semanticAny, semanticPhrase, semanticAll]

def ofName? (s : String) : Option Mode :=
  options.find? fun m => m.name = s

@[simp]
theorem ofName?_name (m : Mode) : ofName? m.name = some m := by
  cases m <;> rfl

/-- The modes that look for context lemmas. -/
def isSemantic : Mode → Bool
  | semanticAny | semanticPhrase | semanticAll => true
  | _ => false

end Mode

namespace Strategy

def name : Strategy → String
  | simple => "simple"
  | medium => "medium"
  | complex => "complex"
  | historical => "historical"
  | combined => "all"

/-- The strategies that a bundle shows side by side. -/
def named : List Strategy := [simple, medium, complex, historical]

def options : List Strategy := named ++ [combined]

def ofName? (s : String) : Option Strategy :=
  options.find? fun t => t.name = s

@[simp]
theorem ofName?_name (t : Strategy) : ofName? t.name = some t := by
  cases t <;> rfl

/-- The number of patterns grows with the pairs of characters. -/
def isPairwise : Strategy → Bool
  | complex | combined => true
  | _ => false

theorem isPairwise_iff {t : Strategy} : t.isPairwise = true ↔ t = complex ∨ t = combined := by
  cases t <;> decide

end Strategy

namespace RefusalKind

def name : RefusalKind → String
  | missingInput => "missing_input"
  | noValidContext => "no_valid_context"
  | emptyPatternSet => "empty_pattern_set"
  | invalidOption => "invalid_option"
  | inputTooLong => "input_too_long"
  | tooManyContexts => "too_many_contexts"

def options : List RefusalKind :=
  [missingInput, noValidContext, emptyPatternSet, invalidOption, inputTooLong, tooManyContexts]

def ofName? (s : String) : Option RefusalKind :=
  options.find? fun k => k.name = s

@[simp]
theorem ofName?_name (k : RefusalKind) : ofName? k.name = some k := by
  cases k <;> rfl

end RefusalKind

/-- One option of any set. -/
inductive Choice where
  | ofAttribute (a : Attribute)
  | ofMode (m : Mode)
  | ofStrategy (t : Strategy)
  | ofKind (k : RefusalKind)
  deriving DecidableEq, Repr

namespace Choice

def name : Choice → String
  | ofAttribute a => a.name
  | ofMode m => m.name
  | ofStrategy t => t.name
  | ofKind k => k.name

/-- The name of the set. -/
def family : Choice → String
  | ofAttribute _ => "SearchAttribute"
  | ofMode _ => "QueryMode"
  | ofStrategy _ => "VariationStrategy"
  | ofKind _ => "ErrorKind"

/-- The set and the option in capitals, with a dot between them. -/
def label (c : Choice) : String :=
  c.family ++ "." ++ String.ofList (c.name.toList.map Char.toUpper)

def options : List Choice :=
  Attribute.options.map ofAttribute ++ Mode.options.map ofMode ++ Strategy.options.map ofStrategy ++
    RefusalKind.options.map ofKind

/-- The option of a dotted label. -/
def ofLabel? (s : String) : Option Choice :=
  options.find? fun c => c.label = s

example : ofLabel? "QueryMode.SEMANTIC_ALL" = some (ofMode .semanticAll) := by decide

end Choice

end Concordance
