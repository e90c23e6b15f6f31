import Concordance.Form.Widget

/-!
# The tabbed board

One tab for each form; a button submits the form of its tab.

* `Tab` — the four forms.
* `Tab.widgets`, `widgets` — what a form and the whole board are made of.
* `Tab.request` — the request of a form.
* `Tab.press` — the button of a form.
-/

namespace Concordance.Form.Board

/-- The forms of the board. -/
inductive Tab where
  | proximity
  | variation
  | semantic
  | bundle
  deriving DecidableEq, Repr

/-- The title of the board. -/
def title : String := "CiSaMe Query Forge"

/-- The attributes with their labels. -/
def attributeChoices : List (String × String) :=
  [("Lemma (normalized form)", Attribute.lemmaForm.name),
    ("Word (surface form)", Attribute.wordForm.name)]

/-- The strategies with their labels. -/
def strategyChoices : List (String × String) :=
  [("Simple: one letter → [A-z]?", Strategy.simple.name),
    ("Medium: one letter → [A-z]*", Strategy.medium.name),
    ("Complex: two letters → [A-z]*", Strategy.complex.name),
    ("Medieval spellings", Strategy.historical.name),
    ("All of the above", Strategy.combined.name)]

/-- The context modes with their labels. -/
def modeChoices : List (String × String) :=
  [("At least one context lemma", "any"), ("One pairing per context lemma", "phrase"),
    ("Every pair of context lemmas", "all")]

/-- The modes behind the context modes. -/
def modes : List (String × Mode) :=
  [("any", .semanticAny), ("phrase", .semanticPhrase), ("all", .semanticAll)]

/-- The slider of a distance. -/
def distance (value : Int) : Widget :=
  .slider "Maximum distance (tokens)" 0 100 value

/-- The choice of an attribute. -/
def attributes (a : Attribute) : Widget :=
  .choose "Radio" "Search attribute" a.name attributeChoices

/-- The button that asks for one query. -/
def generate : Widget :=
  .button "Generate query"

namespace Tab

/-- The title of a tab. -/
def title : Tab → String
  | proximity => "Proximity"
  | variation => "Proximity with variations"
  | semantic => "Semantic context"
  | bundle => "Variations"

/-- What the form of a tab is made of. -/
def widgets : Tab → List Widget
  | proximity =>
    [.textbox "First lemma" "intentio", .textbox "Second lemma" "Augustinus", distance 10,
      attributes .lemmaForm, .frame "Row", .checkbox "Both orders" true,
      .checkbox "Exclude repeated lemmas between the two" true, generate]
  | variation =>
    [.textbox "First lemma" "intentio", .textbox "Second lemma" "ratio", distance 10,
      .choose "Dropdown" "Variation type" Strategy.simple.name strategyChoices,
      attributes .wordForm, .checkbox "Both orders" true, generate,
      .markdown "Complex and combined variations grow quadratically with word length."]
  | semantic =>
    [.textbox "Central lemma" "intentio",
      { kind := "Textbox"
        named := [("label", .text "Context lemmas"),
          ("value", .text "voluntas, ratio, intellectus"),
          ("info", .text "Separate lemmas with commas."), ("lines", .int 2)] },
      distance 20, .choose "Radio" "Context mode" "any" modeChoices, generate]
  | bundle =>
    [.textbox "Word" "intentio", .checkbox "Match inflected endings" true, attributes .wordForm,
      .button "Generate queries"]

/-- The request of a form. -/
def request (t : Tab) (entered : Entered) : Except Fault Request :=
  let field := entered.get t.widgets
  match t with
  | proximity => .ok <| .proximity {
      term1 := field "First lemma"
      term2 := field "Second lemma"
      distance := field "Maximum distance (tokens)"
      attr := field "Search attribute"
      bidirectional := field "Both orders"
      excludeRepeats := field "Exclude repeated lemmas between the two" }
  | variation => .ok <| .variation {
      term1 := field "First lemma"
      term2 := field "Second lemma"
      distance := field "Maximum distance (tokens)"
      strategy := field "Variation type"
      attr := field "Search attribute"
      bidirectional := field "Both orders" }
  | semantic => do
    let mode ← lookupLabel? modes (field "Context mode")
    return .semantic {
      central := field "Central lemma"
      contexts := field "Context lemmas"
      distance := field "Maximum distance (tokens)"
      mode := (mode.map fun m => Value.choice (.ofMode m)).getD (field "Context mode") }
  | bundle => .ok <| .bundle {
      word := field "Word"
      suffixed := field "Match inflected endings"
      attr := field "Search attribute" }

/-- Presses the button of a form: the page that it shows. -/
def press {m : Metric.Client} (t : Tab) (s : Service m) (entered : Entered) :
    Service m × Except Fault String :=
  match t.request entered with
  | .error f => (s, .error f)
  | .ok r => submit s r

end Tab

/-- What the board is made of, in the order of its declaration. -/
def widgets : List Widget :=
  [.frame "Column",
    .markdown ("<h2>CiSaMe Query Forge</h2>\n" ++
      "<p>Build CQL queries for NoSketch Engine that tolerate medieval spellings.</p>"),
    .frame "Tabs"] ++
  [Tab.proximity, Tab.variation, Tab.semantic, Tab.bundle].flatMap fun t =>
    [.tab t.title, .frame "Group"] ++ t.widgets ++ [.answer]

end Concordance.Form.Board
