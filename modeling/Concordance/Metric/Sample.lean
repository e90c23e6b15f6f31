import Concordance.Value.Payload

/-!
# Metrics and their samples

A metric is a counter or a histogram with a base name and label names.  What it has counted is read
as samples, each under a name and a choice of labels.

* `Kind`, `baseName`, `Kind.names`, `Kind.sampleName` — the sorts of metrics and how they are named.
* `LabelSet`, `labelSet` — labels as a sample shows them.
* `Sample`, `valuesAt` — one reading, and what is read under a name and labels.
* `sortSamples` — samples by name and labels.
-/

namespace Concordance.Metric

/-- The two sorts of metrics. -/
inductive Kind where
  | counter
  | histogram
  deriving DecidableEq, Repr

/-- The end of a counter's sample name. -/
def totalMark : String := "_total"

namespace Kind

/-- The name of a sort. -/
def name : Kind → String
  | counter => "counter"
  | histogram => "histogram"

/-- The name of the metrics of a sort, as error texts give it. -/
def owner : Kind → String
  | counter => "Counter"
  | histogram => "Histogram"

/-- What a metric of this sort is asked to do. -/
def ability : Kind → String
  | counter => "inc"
  | histogram => "observe"

/-- The names that a metric takes. -/
def names (kind : Kind) (base : String) : List String :=
  match kind with
  | counter => [base, base ++ totalMark, base ++ "_created"]
  | histogram => [base, base ++ "_bucket", base ++ "_sum", base ++ "_count", base ++ "_created"]

/-- The name of the sample that shows how much was counted. -/
def sampleName (kind : Kind) (base : String) : String :=
  match kind with
  | counter => base ++ totalMark
  | histogram => base ++ "_count"

theorem sampleName_mem_names (kind : Kind) (base : String) :
    kind.sampleName base ∈ kind.names base := by
  cases kind <;> simp [names, sampleName]

end Kind

/-- A counter's base name is its name without one `_total` at its end. -/
def baseName (kind : Kind) (name : String) : String :=
  match kind with
  | .histogram => name
  | .counter =>
    if totalMark.toList.isSuffixOf name.toList then
      String.ofList (name.toList.take (name.toList.length - totalMark.toList.length))
    else name

/-! ## Labels -/

/-- The order of texts by code points. -/
def textLe (s t : String) : Bool :=
  Payload.charsLe s.toList t.toList

/-- The order of labels: by name, then by value. -/
def labelLe (a b : String × String) : Bool :=
  if a.1 = b.1 then textLe a.2 b.2 else textLe a.1 b.1

/-- Labels as a sample shows them. -/
abbrev LabelSet := List (String × String)

/-- Some labels as a sample shows them: each name with the text of its value, sorted. -/
def labelSet (labelNames : List String) (labels : List (String × Value)) : LabelSet :=
  (labelNames.map fun name => (name, ((labels.lookup name).getD .null).display)).mergeSort labelLe

/-! ## Samples -/

/-- One reading under its sample name. -/
structure Sample where
  name : String
  labels : LabelSet
  value : Float

/-- What is read among samples under a name and labels. -/
def valuesAt (samples : List Sample) (name : String) (labels : LabelSet) : List Float :=
  (samples.filter fun s => s.name = name ∧ s.labels = labels).map (·.value)

/-- The order of rows of labels, item by item. -/
def labelsLe : LabelSet → LabelSet → Bool
  | [], _ => true
  | _ :: _, [] => false
  | a :: as, b :: bs => if a = b then labelsLe as bs else labelLe a b

/-- The order of samples: by name, then by labels. -/
def Sample.le (a b : Sample) : Bool :=
  if a.name = b.name then labelsLe a.labels b.labels else textLe a.name b.name

/-- Samples by name and labels. -/
def sortSamples (samples : List Sample) : List Sample :=
  samples.mergeSort Sample.le

end Concordance.Metric
