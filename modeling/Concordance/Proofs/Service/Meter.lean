import Concordance.Proofs.Metric.Count
import Concordance.Service

/-!
# The metrics of a service

A service has two counters and a histogram, each with one label.  A new service in a new registry of
a lawful client gets all three, and whatever it gives to one of them is counted there alone.

* `Meter`, `Service.handle` — the three metrics, and the handles of a service on them.
* `Meter.values` — what is read of a metric under a value of its label.
* `Tallies` — from one registry to another some values of labels were counted.
* `Service.Equipped`, `Equipped.count` — all three metrics can be had; one of them is moved on.
* `equipped_start` — a new service has its metrics, which show nothing yet.
-/

namespace Concordance

open Concordance.Metric

/-- The metrics of a service. -/
inductive Meter where
  | requests
  | failures
  | durations
  deriving DecidableEq, Repr

namespace Meter

def kind : Meter → Kind
  | requests | failures => .counter
  | durations => .histogram

def base : Meter → String
  | requests => "cisame_query_requests"
  | failures => "cisame_query_failures"
  | durations => "cisame_query_build_seconds"

def label : Meter → String
  | failures => "kind"
  | requests | durations => "operation"

/-- The name of the sample that shows how much was counted. -/
def sampleName (meter : Meter) : String :=
  meter.kind.sampleName meter.base

/-- The names that the metric takes. -/
def names (meter : Meter) : List String :=
  meter.kind.names meter.base

/-- What is read of a metric under a value of its label. -/
def values {m : Client} (meter : Meter) (r : m.Registry) (v : String) : List Float :=
  m.values r meter.sampleName [(meter.label, v)]

/-- The name under which a service asks for the metric. -/
def name : Meter → String
  | requests => "cisame_query_requests_total"
  | failures => "cisame_query_failures_total"
  | durations => "cisame_query_build_seconds"

theorem baseName_name (meter : Meter) : baseName meter.kind meter.name = meter.base := by
  cases meter <;> decide

/-- Different metrics have no name in common. -/
theorem names_disjoint {meter meter' : Meter} (h : meter ≠ meter') :
    ∀ name ∈ meter.names, name ∉ meter'.names := by
  revert h
  cases meter <;> cases meter' <;> decide

theorem sampleName_mem (meter : Meter) : meter.sampleName ∈ meter.names :=
  Kind.sampleName_mem_names meter.kind meter.base

theorem label_ne_taken (meter : Meter) : meter.label ≠ Receiver.labels.taken := by
  cases meter <;> decide

end Meter

variable {m : Client}

/-! ## What is counted -/

/-- From one registry to another the metrics counted some values of their labels. -/
def Tallies (r r' : m.Registry) (given : List (Meter × String)) : Prop :=
  ∀ (meter : Meter) v n, meter.values r v = shown n →
    meter.values r' v = shown (n + given.count (meter, v))

namespace Tallies

variable {r r' r'' : m.Registry} {given given' : List (Meter × String)}

theorem refl (r : m.Registry) : Tallies r r [] :=
  fun _ _ _ h => h

theorem trans (h : Tallies r r' given) (h' : Tallies r' r'' given') :
    Tallies r r'' (given ++ given') := by
  intro meter v n hn
  rw [List.count_append, ← Nat.add_assoc]
  exact h' meter v _ (h meter v n hn)

/-- One value was counted by one metric. -/
theorem of_counts {meter : Meter} {v : String}
    (h : m.Counts r r' meter.kind meter.base meter.label v) : Tallies r r' [(meter, v)] := by
  intro meter' w n hn
  -- The value itself, the other values of its metric, and the other metrics.
  by_cases hmeter : meter' = meter
  · subst hmeter
    by_cases hw : w = v
    · subst hw
      rw [List.count_singleton_self]
      exact h.values_self n hn
    · have hne : (meter', v) ≠ (meter', w) := fun heq => hw (congrArg Prod.snd heq).symm
      rw [List.count_singleton, if_neg (by simpa using hne)]
      exact (h.values_ne w hw).trans hn
  · have hne : (meter, v) ≠ (meter', w) := fun heq => hmeter (congrArg Prod.fst heq).symm
    rw [List.count_singleton, if_neg (by simpa using hne)]
    exact (h.values_eq _ (Meter.names_disjoint hmeter _ meter'.sampleName_mem) _).trans hn

end Tallies

/-! ## A service with its metrics -/

namespace Service

/-- The handle of a service on a metric. -/
def handle (s : Service m) : Meter → Handle m
  | .requests => s.requests
  | .failures => s.failures
  | .durations => s.durations

/-- The service has its metrics, and its seconds are a number. -/
structure Equipped (s : Service m) : Prop where
  held : ∃ ms, m.Reached s.registry ms ∧
    ∀ meter, (s.handle meter).OnLabel ms meter.kind meter.base meter.label
  countable : Decimal.magnitude s.seconds ≠ .nan

variable {s : Service m}

/-- A metric is given a value of its label, and the row that it leads to is moved on. -/
theorem Equipped.give (h : s.Equipped) (hm : m.Lawful) (meter : Meter) {value : Value}
    (hvalue : meter.kind.growth? value = some 1) (v : String) :
    ∃ r1 row r2, (s.handle meter).labels s.registry [(meter.label, .text v)] =
        (r1, .ok ⟨meter.kind, some row⟩) ∧
      Handle.move ⟨meter.kind, some row⟩ meter.kind r1 value = (r2, .ok ()) ∧
      ({ s with registry := r2 } : Service m).Equipped ∧ Tallies s.registry r2 [(meter, v)] := by
  obtain ⟨ms, hreached, hhandles⟩ := h.held
  obtain ⟨r1, row, r2, hlabels, hmove, hreached', hcounts⟩ :=
    hm.count hreached (hhandles meter) meter.label_ne_taken hvalue v
  refine ⟨r1, row, r2, hlabels, hmove, ⟨⟨row :: ms, hreached', fun meter' => ?_⟩, h.countable⟩,
    .of_counts hcounts⟩
  exact (hhandles meter').cons row

/-- A counter is moved on for a value of its label. -/
theorem Equipped.count (h : s.Equipped) (hm : m.Lawful) (meter : Meter)
    (hmeter : meter.kind = .counter) (v : String) :
    ∃ registry, s.count (s.handle meter) meter.label v = ({ s with registry }, .ok ()) ∧
      ({ s with registry } : Service m).Equipped ∧ Tallies s.registry registry [(meter, v)] := by
  have hone : meter.kind.growth? (.float 1) = some 1 := by
    rw [hmeter]
    rfl
  obtain ⟨r1, row, r2, hlabels, hmove, hequipped, htallies⟩ := h.give hm meter hone v
  refine ⟨r2, ?_, hequipped, htallies⟩
  rw [Service.count, hlabels]
  dsimp only
  rw [hmeter] at hmove
  rw [Handle.increase, hmeter, hmove]

/-- An observation of a number counts as one. -/
theorem growth?_seconds {seconds : Float} (h : Decimal.magnitude seconds ≠ .nan) :
    Kind.growth? .histogram (.float seconds) = some 1 := by
  have hne : (Value.float seconds).magnitude? ≠ some .nan := fun heq => h (Option.some_inj.1 heq)
  rw [Kind.growth?, if_neg hne]
  rfl

/-! ## New services -/

/-- From one registry to another a metric was added, of which nothing is read yet. -/
structure Adds (meter : Meter) (r r' : m.Registry) : Prop where
  registered_eq : ∀ name ∉ meter.names, m.registered? r' name = m.registered? r name
  values_self : ∀ v, meter.values r' v = []
  values_ne : ∀ meter' ≠ meter, ∀ v, meter'.values r' v = meter'.values r v

/-- A metric whose names are free is created. -/
theorem exists_create (hm : m.Lawful) {r : m.Registry} {ms : List m.Instrument}
    (hr : m.Reached r ms) (meter : Meter)
    (hfree : ∀ name ∈ meter.names, m.registered? r name = none) :
    ∃ r' metric, Handle.create m r meter.kind meter.name [meter.label] =
        (r', ⟨meter.kind, some metric⟩) ∧
      m.Reached r' (metric :: ms) ∧
      Handle.OnLabel ⟨meter.kind, some metric⟩ (metric :: ms) meter.kind meter.base meter.label ∧
      Adds meter r r' := by
  have hname : isPlainName meter.base = true := by cases meter <;> decide
  have hlabel : isPlainName meter.label = true ∧ meter.label ≠ "le" := by cases meter <;> decide
  obtain ⟨r', metric, hcreate, hreached, hcreates⟩ :=
    hm.create hr meter.baseName_name hname hlabel hfree
  refine ⟨r', metric, hcreate, hreached,
    ⟨metric, List.mem_cons_self, rfl, hcreates.profile_eq⟩, ?_, ?_, ?_⟩
  · exact fun name hname => (hcreates.registered_eq name).trans (if_neg hname)
  · exact fun v => (hcreates.values_self _).trans (if_neg nofun)
  · exact fun meter' hne v =>
      hcreates.values_eq _ (Meter.names_disjoint hne _ meter'.sampleName_mem) _

/-- A new service in a new registry has its metrics, which show nothing. -/
theorem equipped_start (hm : m.Lawful) (config : Config) (c : Trace.Collector) {seconds : Float}
    (hseconds : Decimal.magnitude seconds ≠ .nan) :
    let s : Service m := { Service.start config c m.fresh with seconds }
    s.Equipped ∧ ∀ (meter : Meter) v, meter.values s.registry v = shown 0 := by
  have hfresh := hm.registered_fresh
  obtain ⟨r1, metric1, hcreate1, hr1, hhandle1, hadds1⟩ :=
    exists_create hm .fresh .requests fun name _ => hfresh name
  obtain ⟨r2, metric2, hcreate2, hr2, hhandle2, hadds2⟩ :=
    exists_create hm hr1 .failures fun name hname => by
      rw [hadds1.registered_eq name (Meter.names_disjoint (by decide) name hname), hfresh]
  obtain ⟨r3, metric3, hcreate3, hr3, hhandle3, hadds3⟩ :=
    exists_create hm hr2 .durations fun name hname => by
      rw [hadds2.registered_eq name (Meter.names_disjoint (by decide) name hname),
        hadds1.registered_eq name (Meter.names_disjoint (by decide) name hname), hfresh]
  have hstart : ∃ collector, Service.start config c m.fresh =
      { config, collector, registry := r3, requests := ⟨.counter, some metric1⟩,
        failures := ⟨.counter, some metric2⟩, durations := ⟨.histogram, some metric3⟩ } := by
    have hrequests : Handle.create m m.fresh .counter "cisame_query_requests_total" ["operation"] =
        (r1, ⟨.counter, some metric1⟩) := hcreate1
    have hfailures : Handle.create m r1 .counter "cisame_query_failures_total" ["kind"] =
        (r2, ⟨.counter, some metric2⟩) := hcreate2
    have hdurations : Handle.create m r2 .histogram "cisame_query_build_seconds" ["operation"] =
        (r3, ⟨.histogram, some metric3⟩) := hcreate3
    simp only [Service.start, hrequests, hfailures, hdurations]
    exact ⟨_, rfl⟩
  obtain ⟨collector, hstart⟩ := hstart
  rw [hstart]
  refine ⟨⟨⟨_, hr3, fun meter => ?_⟩, hseconds⟩, fun meter v => ?_⟩
  · cases meter with
    | requests => exact (hhandle1.cons metric2).cons metric3
    | failures => exact hhandle2.cons metric3
    | durations => exact hhandle3
  · cases meter with
    | requests =>
      exact (hadds3.values_ne _ (by decide) v).trans
        ((hadds2.values_ne _ (by decide) v).trans (hadds1.values_self v))
    | failures => exact (hadds3.values_ne _ (by decide) v).trans (hadds2.values_self v)
    | durations => exact hadds3.values_self v

end Service

end Concordance
