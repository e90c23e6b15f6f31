import Concordance.Metric.Amount
import Concordance.Metric.Client

/-!
# Metrics in memory

A client that keeps its metrics in two lists: the metrics that are registered, and the rows that
have counted something.

* `Item`, `Place`, `Row` — a metric, where a row belongs, and what a row has counted.
* `Store` — the registered metrics and all rows.
* `Store.construct`, `Store.labels`, `Store.move`, `Store.samples` — what the client is asked.
* `Store.client` — the client.
-/

namespace Concordance.Metric

/-- A metric, or one row of a metric with labels. -/
structure Item where
  kind : Kind
  base : String
  labelNames : List String
  /-- The labels that it was given, in the order of the names. -/
  given : Option (List (String × String))

namespace Item

/-- The metric as error texts name it. -/
def title (i : Item) : String :=
  i.kind.name ++ ":" ++ i.base

/-- What the metric says of itself. -/
def profile (i : Item) : Profile where
  kind := i.kind
  base := i.base
  labelNames := i.labelNames
  row := i.given.map (·.mergeSort labelLe)

/-- A new metric under a name. -/
def new (kind : Kind) (name : String) (labelNames : List String) : Item where
  kind := kind
  base := baseName kind name
  labelNames := labelNames
  given := if labelNames.isEmpty then some [] else none

/-- The metric with the text of each label's value. -/
def row (i : Item) (labels : List (String × Value)) : Item :=
  { i with
    given := some (i.labelNames.map fun name =>
      (name, ((labels.lookup name).getD .null).display)) }

end Item

/-- Where a row belongs: to a metric, and there to some labels. -/
structure Place where
  kind : Kind
  base : String
  labels : LabelSet
  deriving DecidableEq

/-- What was counted at a place; histograms also add up what they observe. -/
structure Row where
  place : Place
  count : Float := 0
  sum : Float := 0

namespace Row

/-- The samples of a row. -/
def samples (row : Row) : List Sample :=
  let base := row.place.base
  let labels := row.place.labels
  match row.place.kind with
  | .counter => [⟨base ++ totalMark, labels, row.count⟩]
  | .histogram => [⟨base ++ "_count", labels, row.count⟩, ⟨base ++ "_sum", labels, row.sum⟩]

/-- What an amount or an observation does to a row of a sort.  What is no number falls into no
bucket. -/
def advance (kind : Kind) (value : Value) : Except Fault (Row → Row) :=
  match kind with
  | .counter => (addition value).map fun x row => { row with count := row.count + x }
  | .histogram => (observation value).map fun x row =>
    { row with
      count := if value.magnitude? = some .nan then row.count else row.count + 1
      sum := row.sum + x }

end Row

/-- A label's name is kept back if it starts with two underscores and, but for one line break at its
end, stays on one line. -/
def isReservedLabel (s : String) : Bool :=
  match s.toList with
  | '_' :: '_' :: rest => !(rest.dropLast.contains '\n')
  | _ => false

/-- The name of the bounds of a histogram's buckets, which is no label of it. -/
def boundLabel : String := "le"

/-- The labels that a metric of a sort may have. -/
def labelsAllowed (kind : Kind) (labelNames : List String) : Bool :=
  !(labelNames.any isReservedLabel) && !(kind == .histogram && labelNames.contains boundLabel)

/-- The registered metrics, in the order of their creation, and all rows. -/
structure Store where
  items : List Item := []
  rows : List Row := []

namespace Store

/-- The metric that has a name. -/
def registered? (s : Store) (name : String) : Option Item :=
  s.items.find? fun i => (i.kind.names i.base).contains name

/-- A metric can be registered under its names. -/
def admits (s : Store) (i : Item) : Bool :=
  i.base != "" && labelsAllowed i.kind i.labelNames &&
    (i.kind.names i.base).all fun name => (s.registered? name).isNone

/-- The store with a row at a place. -/
def touch (s : Store) (place : Place) : Store :=
  { s with rows := if s.rows.any (·.place = place) then s.rows else s.rows ++ [{ place }] }

/-- The place of a metric with given labels. -/
def placeOf (i : Item) (given : List (String × String)) : Place :=
  ⟨i.kind, i.base, given.mergeSort labelLe⟩

/-- The store with a row for a metric that needs no more labels. -/
def openRow (s : Store) (i : Item) : Store :=
  match i.given with
  | none => s
  | some given => s.touch (placeOf i given)

/-- Registers a new metric, which has a row from the start if it needs no labels. -/
def construct (s : Store) (kind : Kind) (name : String) (labelNames : List String) :
    Option (Store × Item) :=
  let i := Item.new kind name labelNames
  if s.admits i then some (({ s with items := s.items ++ [i] } : Store).openRow i, i) else none

/-- The labels of a row, as error texts give them. -/
def shownLabels (given : List (String × String)) : String :=
  (Value.record (Value.ofAssignments (given.map fun e => (.text e.1, .text e.2)))).display

/-- Chooses the row of some labels; a chosen row has a reading from then on. -/
def labels (s : Store) (i : Item) (labels : List (String × Value)) : Store × Except Fault Item :=
  match i.given with
  | some given =>
    if i.labelNames.isEmpty then (s, .error (.noLabelNames i.title))
    else (s, .error (.labelledAlready i.title (shownLabels given)))
  | none =>
    if takesName labels then (s, .error (.nameTaken .labels))
    else if (labels.map Prod.fst).isPerm i.labelNames then
      (s.openRow (i.row labels), .ok (i.row labels))
    else if labels.isEmpty then (s, .error .wrongLabelCount)
    else (s, .error .wrongLabels)

/-- The store with the row at a place changed, if there is something to change. -/
def change (s : Store) (change : Option (Place × (Row → Row))) : Store :=
  { s with
    rows :=
      match change with
      | none => s.rows
      | some (place, f) => s.rows.map fun row => if row.place = place then f row else row }

/-- What a value does to the row of a metric, if metrics of its sort are moved on. -/
def advance (kind : Kind) (i : Item) (value : Value) : Except Fault (Place × (Row → Row)) :=
  if i.kind = kind then
    match i.given with
    | none => .error (.missingLabels kind.name)
    | some given => (Row.advance kind value).map fun f => (placeOf i given, f)
  else .error (.noAbility i.kind.owner kind.ability)

/-- Moves a metric on as metrics of a sort are. -/
def move (kind : Kind) (s : Store) (i : Item) (value : Value) : Store × Except Fault Unit :=
  let result := advance kind i value
  (s.change result.toOption, result.map fun _ => ())

/-- What is read of all rows. -/
def samples (s : Store) : List Sample :=
  s.rows.flatMap Row.samples

/-- The client with its metrics in memory. -/
def client : Client where
  Registry := Store
  Instrument := Item
  profile := Item.profile
  validName := (· != "")
  validLabels := labelsAllowed
  fresh := {}
  construct := construct
  registered? := registered?
  labels := labels
  move := move
  samples := samples

end Store

end Concordance.Metric
