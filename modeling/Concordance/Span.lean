import Concordance.Fault

/-!
# Spans

A span records the attributes of one operation and the faults in it.

* `Span` — a span with or without a name.
* `Span.attach` — the entries of a record as attributes.
* `Span.recordFault` — a fault, which also marks the span.
-/

namespace Concordance

/-- The attributes of one operation and the faults in it, each in the order of recording. -/
structure Span where
  name : Option String := none
  attributes : List (String × Value) := []
  faults : List Fault := []

namespace Span

/-- A scalar stays as it is; anything else becomes its display. -/
def attributeValue : Value → Value
  | .text s => .text s
  | .choice c => .choice c
  | .bool b => .bool b
  | .int n => .int n
  | .float x => .float x
  | v => .text v.display

/-- The entries with text keys as attributes. -/
def attach (s : Span) (entries : Value.Entries) : Span :=
  { s with
    attributes := s.attributes ++
      entries.filterMap fun e => e.1.text?.map fun name => (name, attributeValue e.2) }

/-- Records a fault and marks the span. -/
def recordFault (s : Span) (fault : Fault) : Span :=
  { s with
    faults := s.faults ++ [fault]
    attributes := s.attributes ++ [("error", .bool true)] }

/-- A new span with the entries of a record. -/
def start (name : String) (entries : Value.Entries) : Span :=
  attach { name := some name } entries

end Span

end Concordance
