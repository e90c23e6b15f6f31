import Concordance.Fault
import Concordance.Metric.Sample

/-!
# Handles on the metrics of a client

Metrics are kept by a client library.  A program holds them through handles, which also stand for no
metric at all: whoever asks for a name that is taken gets the metric behind it, and whoever asks for
one that cannot be had gets a handle on nothing, on which every step is without effect.

* `Profile` — what a metric says of itself.
* `Client` — what is asked of the library.
* `Handle` — a hold on a metric, or on nothing.
* `Handle.create` — a handle on a new metric, or on the one that has the name.
* `Handle.labels`, `Handle.increase`, `Handle.observe`, `Handle.time` — steps on a handle.
-/

namespace Concordance.Metric

/-- What a metric says of itself. -/
structure Profile where
  kind : Kind
  base : String
  labelNames : List String
  /-- The labels that it was given; a metric without label names has none and needs none. -/
  row : Option LabelSet

namespace Profile

/-- The names that the metric takes. -/
def names (p : Profile) : List String :=
  p.kind.names p.base

/-- The name of the sample that shows how much was counted. -/
def sampleName (p : Profile) : String :=
  p.kind.sampleName p.base

/-- A new metric under a name. -/
def new (kind : Kind) (name : String) (labelNames : List String) : Profile where
  kind := kind
  base := baseName kind name
  labelNames := labelNames
  row := if labelNames.isEmpty then some [] else none

end Profile

/-- A client library for metrics.  Its registry is in one state at a time. -/
structure Client where
  /-- The states of the registry, with what its metrics have counted. -/
  Registry : Type
  /-- What a program gets from the library: a metric, or one row of a metric with labels. -/
  Instrument : Type
  /-- What a metric says of itself. -/
  profile : Instrument → Profile
  /-- The base names that metrics may have. -/
  validName : String → Bool
  /-- The label names that metrics of a sort may have. -/
  validLabels : Kind → List String → Bool
  /-- The registry without metrics. -/
  fresh : Registry
  /-- Creates a metric under a name and registers it; none where it raises a value error. -/
  construct : Registry → Kind → String → List String → Option (Registry × Instrument)
  /-- The metric that is registered under a name. -/
  registered? : Registry → String → Option Instrument
  /-- Gives labels to a metric and gets the row of these. -/
  labels : Registry → Instrument → List (String × Value) → Registry × Except Fault Instrument
  /-- Moves a metric on as metrics of a sort are: a counter by an amount, a histogram by an
  observation. -/
  move : Kind → Registry → Instrument → Value → Registry × Except Fault Unit
  /-- What is read of all metrics. -/
  samples : Registry → List Sample

/-- What is read of a registry under a sample name and labels. -/
def Client.values (m : Client) (r : m.Registry) (name : String) (labels : LabelSet) : List Float :=
  valuesAt (m.samples r) name labels

/-- Some label has the name that is taken. -/
def takesName (labels : List (String × Value)) : Bool :=
  labels.any fun e => e.1 == Receiver.labels.taken

/-- A hold on a metric, or on nothing. -/
structure Handle (m : Client) where
  kind : Kind
  metric : Option m.Instrument

namespace Handle

variable {m : Client}

/-- The name of the handles of a sort, as error texts give it. -/
def owner (h : Handle m) : String :=
  h.kind.owner ++ "Handle"

/-- The metric that is registered under a name, or else under the name with `_total`. -/
def registeredAs? (m : Client) (r : m.Registry) (name : String) : Option m.Instrument :=
  (m.registered? r name).or (m.registered? r (name ++ totalMark))

/-- A handle on a new metric; where none can be created, on the one that has the name, if any. -/
def create (m : Client) (r : m.Registry) (kind : Kind) (name : String) (labelNames : List String) :
    m.Registry × Handle m :=
  match m.construct r kind name labelNames with
  | some (r, metric) => (r, { kind, metric := some metric })
  | none => (r, { kind, metric := registeredAs? m r name })

/-- Gives labels to what is held. -/
def labels (h : Handle m) (r : m.Registry) (labels : List (String × Value)) :
    m.Registry × Except Fault (Handle m) :=
  if takesName labels then (r, .error (.nameTaken .labels)) else
  match h.metric with
  | none => (r, .ok h)
  | some metric =>
    let (r, row) := m.labels r metric labels
    (r, row.map fun row => { h with metric := some row })

theorem labels_some (kind : Kind) (metric : m.Instrument) (r : m.Registry)
    (labels : List (String × Value)) :
    Handle.labels ⟨kind, some metric⟩ r labels =
      if takesName labels then (r, .error (.nameTaken .labels))
      else ((m.labels r metric labels).1,
        (m.labels r metric labels).2.map fun row => ⟨kind, some row⟩) :=
  rfl

/-- Moves on what is held.  Only handles of the same sort can be asked to. -/
def move (h : Handle m) (kind : Kind) (r : m.Registry) (value : Value) :
    m.Registry × Except Fault Unit :=
  if h.kind = kind then
    match h.metric with
    | none => (r, .ok ())
    | some metric => m.move kind r metric value
  else (r, .error (.noAbility h.owner kind.ability))

/-- Moves a counter on by an amount. -/
def increase (h : Handle m) (r : m.Registry) (amount : Value) : m.Registry × Except Fault Unit :=
  h.move .counter r amount

/-- Gives a histogram an observation. -/
def observe (h : Handle m) (r : m.Registry) (value : Value) : m.Registry × Except Fault Unit :=
  h.move .histogram r value

/-- Gives a histogram the seconds that a block took, whatever the block came to.  A fault of the
observation takes the place of that. -/
def time {α : Type} (h : Handle m) (r : m.Registry) (seconds : Float) (result : Except Fault α) :
    m.Registry × Except Fault α :=
  if h.kind = .histogram then
    match h.observe r (.float seconds) with
    | (r, .error fault) => (r, .error fault)
    | (r, .ok ()) => (r, result)
  else (r, .error (.noAbility h.owner "time"))

end Handle

end Concordance.Metric
