import Concordance.Form.Widget

/-!
# The running sheet

The sheet shows all forms under each other.  It is drawn from the top: each submitted form is
answered where it stands, and a fault ends the drawing.

* `Section` — the four forms.
* `Section.initial` — the values with which a form starts.
* `Section.request` — the request of a form.
* `Line`, `draw` — the lines of a drawn sheet.
-/

namespace Concordance.Form.Sheet

variable {m : Metric.Client}

/-- The forms of the sheet. -/
inductive Section where
  | proximity
  | variation
  | semantic
  | bundle
  deriving DecidableEq, Repr

/-- A line of the sheet, with the form that it answers. -/
structure Line where
  kind : String
  form : Option String
  text : String
  deriving DecidableEq, Repr

/-- The modes behind the labels of the context modes. -/
def modes : List (String × Mode) :=
  [("At least one context lemma", .semanticAny), ("One pairing per context lemma", .semanticPhrase),
    ("Every pair of context lemmas", .semanticAll)]

namespace Section

/-- All forms, from the top. -/
def order : List Section := [proximity, variation, semantic, bundle]

/-- The name of a form. -/
def name : Section → String
  | proximity => "proximity"
  | variation => "proximity_variations"
  | semantic => "semantic"
  | bundle => "variations"

/-- The values with which a form starts. -/
def initial : Section → Entered
  | proximity =>
    [("First lemma", .text "intentio"), ("Second lemma", .text "Augustinus"),
      ("Maximum distance (tokens)", .int 10), ("Search attribute", .text Attribute.lemmaForm.name),
      ("Both orders", .bool true), ("Exclude repeated lemmas between the two", .bool true)]
  | variation =>
    [("First lemma", .text "intentio"), ("Second lemma", .text "ratio"),
      ("Maximum distance (tokens)", .int 10), ("Variation type", .text Strategy.simple.name),
      ("Search attribute", .text Attribute.wordForm.name), ("Both orders", .bool true)]
  | semantic =>
    [("Central lemma", .text "intentio"), ("Context lemmas", .text "voluntas, ratio, intellectus"),
      ("Maximum distance (tokens)", .int 20), ("Context mode", .text "At least one context lemma")]
  | bundle =>
    [("Word", .text "intentio"), ("Match inflected endings", .bool true),
      ("Search attribute", .text Attribute.wordForm.name)]

/-- The value of a field: what was entered, or else what it starts with. -/
def field (t : Section) (entered : Entered) (label : String) : Value :=
  (entered.lookup label).getD ((t.initial.lookup label).getD .null)

/-- The mode behind the label of a context mode. -/
def modeOf (v : Value) : Except Fault Mode := do
  match ← lookupLabel? modes v with
  | some m => return m
  | none => throw (.missingKey v)

/-- The request of a form. -/
def request (t : Section) (entered : Entered) : Except Fault Request :=
  let field := t.field entered
  match t with
  | proximity => .ok <| .proximity {
      term1 := field "First lemma"
      term2 := field "Second lemma"
      distance := field "Maximum distance (tokens)"
      attr := field "Search attribute"
      bidirectional := field "Both orders"
      excludeRepeats := field "Exclude repeated lemmas between the two" }
  | variation => .ok <| .variation {
      term1 := field "First lemma"
      term2 := field "Second lemma"
      distance := field "Maximum distance (tokens)"
      strategy := field "Variation type"
      attr := field "Search attribute"
      bidirectional := field "Both orders" }
  | semantic => do
    let mode ← modeOf (field "Context mode")
    return .semantic {
      central := field "Central lemma"
      contexts := field "Context lemmas"
      distance := field "Maximum distance (tokens)"
      mode := .choice (.ofMode mode) }
  | bundle => .ok <| .bundle {
      word := field "Word"
      suffixed := field "Match inflected endings"
      attr := field "Search attribute" }

/-- The line that answers a form. -/
def answer (t : Section) (s : Service m) (entered : Entered) : Service m × Except Fault Line :=
  match t.request entered with
  | .error f => (s, .error f)
  | .ok r =>
    match submit s r with
    | (s, .error f) => (s, .error f)
    | (s, .ok text) => (s, .ok { kind := "markdown", form := some t.name, text })

end Section

/-- The lines above all forms. -/
def header : List Line :=
  [{ kind := "markdown", form := none, text := "## CiSaMe Query Forge" },
    { kind := "caption", form := none,
      text := "Build CQL queries for NoSketch Engine that tolerate medieval spellings." }]

/-- Answers the submitted ones of some forms. -/
def answers (s : Service m) (submitted : Section → Bool) (entered : Section → Entered) :
    List Section → Service m × Except Fault (List Line)
  | [] => (s, .ok [])
  | t :: rest =>
    if submitted t then
      match t.answer s (entered t) with
      | (s, .error f) => (s, .error f)
      | (s, .ok line) =>
        let (s, others) := answers s submitted entered rest
        (s, others.map (line :: ·))
    else answers s submitted entered rest

/-- Draws the sheet. -/
def draw (s : Service m) (submitted : Section → Bool) (entered : Section → Entered) :
    Service m × Except Fault (List Line) :=
  let (s, lines) := answers s submitted entered Section.order
  (s, lines.map (header ++ ·))

end Concordance.Form.Sheet
