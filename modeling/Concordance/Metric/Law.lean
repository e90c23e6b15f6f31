import Concordance.Metric.Amount
import Concordance.Metric.Client

/-!
# What a client does

What the documentation of a client for metrics says of it, and what all results about the metrics
of a program rest on.  It is said of registries that came about by its own operations.

* `Client.Reached` — a registry after some operations, with the metrics that were got by them.
* `Accepted` — labels that a metric with label names takes.
* `Client.Creates`, `Client.Opens`, `Client.Moves` — what a step does to a registry, and what it
  leaves alone.
* `Client.Lawful` — a client that does what it says.
-/

namespace Concordance.Metric

/-- Labels that a metric with label names takes: each of the names once, and none that is taken
otherwise. -/
def Accepted (labelNames : List String) (labels : List (String × Value)) : Prop :=
  takesName labels = false ∧ (labels.map Prod.fst).Perm labelNames

instance (labelNames : List String) (labels : List (String × Value)) :
    Decidable (Accepted labelNames labels) :=
  inferInstanceAs (Decidable (_ ∧ _))

/-- A name of letters and underscores that begins with a letter. -/
def isPlainName (name : String) : Bool :=
  match name.toList with
  | [] => false
  | c :: rest => c.isAlpha && rest.all fun c => c.isAlpha || c == '_'

namespace Client

/-- A registry that is reached by operations of the client, with the metrics that these gave. -/
inductive Reached (m : Client) : m.Registry → List m.Instrument → Prop
  | fresh : Reached m m.fresh []
  | construct {r r' : m.Registry} {ms : List m.Instrument} {kind : Kind} {name : String}
    {labelNames : List String} {metric : m.Instrument} (h : Reached m r ms)
    (hnew : m.construct r kind name labelNames = some (r', metric)) : Reached m r' (metric :: ms)
  | registered {r : m.Registry} {ms : List m.Instrument} {name : String} {metric : m.Instrument}
    (h : Reached m r ms) (hfound : m.registered? r name = some metric) : Reached m r (metric :: ms)
  | labels {r r' : m.Registry} {ms : List m.Instrument} {metric row : m.Instrument}
    {labels : List (String × Value)} (h : Reached m r ms) (hmem : metric ∈ ms)
    (hrow : m.labels r metric labels = (r', .ok row)) : Reached m r' (row :: ms)
  | move {r r' : m.Registry} {ms : List m.Instrument} {kind : Kind} {metric : m.Instrument}
    {value : Value} (h : Reached m r ms) (hmem : metric ∈ ms)
    (hmove : m.move kind r metric value = (r', .ok ())) : Reached m r' ms

section Steps

variable (m : Client) (r r' : m.Registry) (p : Profile)

/-- A metric is created: it takes its names, and shows a zero at once if it needs no labels. -/
structure Creates (metric : m.Instrument) : Prop where
  profile_eq : m.profile metric = p
  registered_eq : ∀ name,
    m.registered? r' name = if name ∈ p.names then some metric else m.registered? r name
  values_self : ∀ row, m.values r' p.sampleName row = if p.row = some row then [0] else []
  values_eq : ∀ name ∉ p.names, ∀ row, m.values r' name row = m.values r name row

/-- A row of a metric is got: it shows a zero if it is new, and what was read before stays. -/
structure Opens (row : LabelSet) (metric : m.Instrument) : Prop where
  profile_eq : m.profile metric = { p with row := some row }
  registered_eq : ∀ name, m.registered? r' name = m.registered? r name
  values_self : m.values r' p.sampleName row =
    if m.values r p.sampleName row = [] then [0] else m.values r p.sampleName row
  values_ne : ∀ other ≠ row, m.values r' p.sampleName other = m.values r p.sampleName other
  values_eq : ∀ name ∉ p.names, ∀ row, m.values r' name row = m.values r name row
  values_kept : ∀ name row, m.values r name row ≠ [] → m.values r' name row = m.values r name row

/-- A row of a metric is moved on to a value. -/
structure Moves (row : LabelSet) (value : Float) : Prop where
  registered_eq : ∀ name, m.registered? r' name = m.registered? r name
  values_self : m.values r' p.sampleName row = [value]
  values_ne : ∀ other ≠ row, m.values r' p.sampleName other = m.values r p.sampleName other
  values_eq : ∀ name ∉ p.names, ∀ row, m.values r' name row = m.values r name row

end Steps

/-- A client that does what its documentation says. -/
structure Lawful (m : Client) : Prop where
  /-- Names of letters and underscores may be used for metrics. -/
  validName_plain : ∀ name, isPlainName name = true → m.validName name = true
  /-- Names of letters and underscores may be used for labels, but for the bounds of buckets. -/
  validLabels_plain : ∀ kind labelNames,
    (∀ name ∈ labelNames, isPlainName name = true ∧ name ≠ "le") →
      m.validLabels kind labelNames = true
  /-- Label names are looked at one by one. -/
  validLabels_perm : ∀ kind names names', names.Perm names' →
    m.validLabels kind names = m.validLabels kind names'
  /-- A new registry has no metrics. -/
  registered_fresh : ∀ name, m.registered? m.fresh name = none
  /-- A metric is refused if its name or its label names are invalid or one of its names is taken,
  and otherwise it is created. -/
  construct_eq_none_iff : ∀ r ms, m.Reached r ms → ∀ kind name labelNames,
    m.construct r kind name labelNames = none ↔
      ¬(m.validName (baseName kind name) = true ∧ m.validLabels kind labelNames = true ∧
        ∀ n ∈ kind.names (baseName kind name), m.registered? r n = none)
  creates : ∀ r ms, m.Reached r ms → ∀ kind name labelNames r' metric,
    m.construct r kind name labelNames = some (r', metric) →
      m.Creates r r' (.new kind name labelNames) metric
  /-- What is read belongs to a metric that has the name. -/
  values_unregistered : ∀ r ms, m.Reached r ms → ∀ name, m.registered? r name = none →
    ∀ row, m.values r name row = []
  /-- A metric whose labels are known shows one value under them. -/
  values_row : ∀ r ms, m.Reached r ms → ∀ metric ∈ ms, ∀ row,
    (m.profile metric).row = some row →
      ∃ value, m.values r (m.profile metric).sampleName row = [value]
  /-- The right labels lead to a row of the metric. -/
  opens : ∀ r ms, m.Reached r ms → ∀ metric ∈ ms, ∀ labels, (m.profile metric).row = none →
    Accepted (m.profile metric).labelNames labels →
      ∃ r' row, m.labels r metric labels = (r', .ok row) ∧
        m.Opens r r' (m.profile metric) (labelSet (m.profile metric).labelNames labels) row
  /-- Other labels are refused, and so are labels where none are missing. -/
  labels_refused : ∀ r ms, m.Reached r ms → ∀ metric ∈ ms, ∀ labels,
    ¬((m.profile metric).row = none ∧ Accepted (m.profile metric).labelNames labels) →
      ∃ fault, m.labels r metric labels = (r, .error fault)
  /-- A row is moved on by what a value counts. -/
  moves : ∀ r ms, m.Reached r ms → ∀ metric ∈ ms, ∀ row value x y,
    (m.profile metric).row = some row → (m.profile metric).kind.growth? value = some x →
      m.values r (m.profile metric).sampleName row = [y] →
        ∃ r', m.move (m.profile metric).kind r metric value = (r', .ok ()) ∧
          m.Moves r r' (m.profile metric) row (y + x)
  /-- A metric is not moved on while its labels are missing. -/
  move_unlabelled : ∀ r ms, m.Reached r ms → ∀ metric ∈ ms, ∀ kind value,
    (m.profile metric).row = none → ∃ fault, m.move kind r metric value = (r, .error fault)
  /-- A counter is not moved on by what adds nothing to it. -/
  increase_refused : ∀ r ms, m.Reached r ms → ∀ metric ∈ ms, ∀ amount,
    (m.profile metric).kind = .counter → addend? amount = none →
      ∃ fault, m.move .counter r metric amount = (r, .error fault)

end Client

end Concordance.Metric
