import Concordance.Service

/-!
# Widgets of forms

* `Widget` — one element of a page, with what it is declared with.
* `initial?` — the value with which a labelled widget starts.
* `Entered`, `Entered.get` — the values of a form: what was entered, or else the initial value.
* `submit` — a request of a form, answered by a page.
-/

namespace Concordance.Form

/-- One element of a page, with what it is declared with. -/
structure Widget where
  kind : String
  positional : List Value := []
  named : List (String × Value) := []

namespace Widget

def markdown (s : String) : Widget :=
  { kind := "Markdown", positional := [.text s] }

/-- The place of an answer. -/
def answer : Widget :=
  { kind := "Markdown" }

/-- A frame around other widgets. -/
def frame (kind : String) : Widget :=
  { kind }

def tab (title : String) : Widget :=
  { kind := "Tab", positional := [.text title] }

def textbox (label value : String) : Widget :=
  { kind := "Textbox", named := [("label", .text label), ("value", .text value)] }

/-- The whole numbers between two bounds. -/
def slider (label : String) (low high value : Int) : Widget where
  kind := "Slider"
  named := [("minimum", .int low), ("maximum", .int high), ("value", .int value), ("step", .int 1),
    ("label", .text label)]

/-- One of some choices, each shown by a label. -/
def choose (kind label value : String) (choices : List (String × String)) : Widget where
  kind := kind
  named := [("choices", .list (choices.map fun c => .list [.text c.1, .text c.2])),
    ("value", .text value), ("label", .text label)]

/-- Yes or no. -/
def checkbox (label : String) (value : Bool) : Widget :=
  { kind := "Checkbox", named := [("value", .bool value), ("label", .text label)] }

def button (title : String) : Widget :=
  { kind := "Button", positional := [.text title], named := [("variant", .text "primary")] }

end Widget

/-- The value with which a labelled widget starts. -/
def initial? (label : String) : List Widget → Option Value
  | [] => none
  | w :: rest =>
    match w.named.lookup "label" with
    | some (.text l) => if l = label then w.named.lookup "value" else initial? label rest
    | _ => initial? label rest

/-- The values entered into a form. -/
abbrev Entered := List (String × Value)

/-- The value of a field: what was entered, or else what its widget starts with. -/
def Entered.get (entered : Entered) (widgets : List Widget) (label : String) : Value :=
  (entered.lookup label).getD ((initial? label widgets).getD .null)

/-- A request of a form, answered by a page. -/
def submit {m : Metric.Client} (s : Service m) (r : Request) : Service m × Except Fault String :=
  let (s, result) := s.execute r
  (s, result.map s.page)

/-- Looks a value up under text keys; what is no key cannot be looked up. -/
def lookupLabel? (table : List (String × Mode)) (v : Value) : Except Fault (Option Mode) :=
  if v.isKey then .ok (v.text?.bind fun label => List.lookup label table)
  else .error (.noKey v.kind)

end Concordance.Form
