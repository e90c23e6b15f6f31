import Concordance.Fault
import Concordance.Link
import Concordance.Query

/-!
# Result pages

A result is shown as Markdown: a heading, each query in a fence with a link below it, and the facts
of the request.

* `fenced` — the lines of one query.
* `preview` — the first patterns of a term.
* `queryLines`, `bundleLines` — the lines of a query and of a bundle.
* `refused`, `ofQuery`, `Outcome.page` — the text of a page.
-/

namespace Concordance.Page

/-- Lines under each other. -/
def ofLines (lines : List String) : String :=
  "\n".intercalate lines

/-- The line around a query. -/
def fence : String := "```"

/-- The lines of one query: the query between fences, and its link. -/
def fenced (base query : String) : List String :=
  [fence, query, fence, "[Open in NoSketch Engine](" ++ Link.searchUrl base query ++ ")"]

/-- A text in backquotes. -/
def code (s : String) : String :=
  "`" ++ s ++ "`"

/-- A number in base ten. -/
def number (n : Nat) : String :=
  Decimal.intText n

/-- The patterns shown of each term. -/
def previewSize : Nat := 12

/-- The first patterns of a term, and how many more there are. -/
def preview (patterns : List String) : String :=
  let shown := ", ".intercalate ((patterns.take previewSize).map code)
  if previewSize < patterns.length then
    shown ++ " … (+" ++ number (patterns.length - previewSize) ++ " more)"
  else shown

/-- The heading of a mode. -/
def modeTitle : Mode → String
  | .proximity => "Proximity"
  | .proximityWithVariation => "Proximity with variations"
  | .semanticAny => "Semantic context (at least one)"
  | .semanticPhrase => "Semantic context (one pairing per lemma)"
  | .semanticAll => "Semantic context (every pair of lemmas)"

/-- The heading of a named strategy. -/
def strategyTitle : Strategy → String
  | .simple => "Low granularity: one letter → `[A-z]?`"
  | .medium => "Medium granularity: one letter → `[A-z]*`"
  | .complex => "High granularity: two letters → `[A-z]*`"
  | .historical => "Medieval spellings"
  | .combined => "All of the above"

/-- A fact of a request. -/
def item (name fact : String) : String :=
  "- **" ++ name ++ "** " ++ fact

/-- The terms of a query: the central one and its contexts, or all side by side. -/
def termLines (q : Query) : List String :=
  if q.contextTerms.isEmpty then [item "Lemmas:" (" · ".intercalate q.terms)]
  else
    [item "Central lemma:" (q.terms.headD ""),
      item "Context lemmas:" (", ".intercalate q.contextTerms)]

/-- The order of the terms, where it is a choice. -/
def orderLines (q : Query) : List String :=
  match q.mode with
  | .proximity | .proximityWithVariation =>
    [item "Bidirectional:" (if q.bidirectional then "yes" else "no")]
  | _ => []

/-- The patterns of each term. -/
def patternLines (q : Query) : List String :=
  match q.strategy with
  | none => []
  | some t =>
    item "Variation type:" t ::
      (q.terms.zip q.patterns).map fun e =>
        item e.1 ("(" ++ number e.2.length ++ " patterns): " ++ preview e.2)

/-- The lines of a query. -/
def queryLines (base : String) (q : Query) : List String :=
  ["### " ++ modeTitle q.mode, ""] ++ fenced base q.text ++ [""] ++ termLines q ++
    [item "Distance:" ("0–" ++ Decimal.intText q.distance ++ " tokens"),
      item "Attribute:" (code q.attr)] ++
    orderLines q ++ [item "Sub-queries:" (number q.subqueries.length)] ++ patternLines q

/-- The lines of one strategy of a bundle, if it has a query. -/
def strategyLines (base : String) (b : Bundle) (t : Strategy) : List String :=
  match b.queries.lookup t.name with
  | none => []
  | some query =>
    let patterns := (b.patterns.lookup t.name).getD []
    ["", "#### " ++ strategyTitle t ++ " (" ++ number patterns.length ++ " patterns)", ""] ++
      fenced base query

/-- The lines of a bundle. -/
def bundleLines (base : String) (b : Bundle) : List String :=
  let ending := if b.suffixed.truthy then "with endings `[A-z]*`" else "exact form"
  ["### Variations for “" ++ b.word ++ "”", "",
    "Attribute " ++ code b.attr ++ ", " ++ ending ++ "."] ++
    Strategy.named.flatMap (strategyLines base b)

/-- The page of a refusal. -/
def refused (message : String) : String :=
  "❌ " ++ message

/-- The page of a query that was not compiled here: its contexts may lack their central term. -/
def ofQuery (base : String) (q : Query) : Except Fault String :=
  if q.terms.isEmpty && !q.contextTerms.isEmpty then .error .noCentralTerm
  else .ok (ofLines (queryLines base q))

end Concordance.Page

namespace Concordance

/-- The page of an outcome, with links into the view at `base`. -/
def Outcome.page (base : String) : Outcome → String
  | query q => Page.ofLines (Page.queryLines base q)
  | bundle b => Page.ofLines (Page.bundleLines base b)
  | refused r => Page.refused r.message

end Concordance
