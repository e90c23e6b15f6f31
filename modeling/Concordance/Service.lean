import Concordance.Metric.Client
import Concordance.Page
import Concordance.Query.Bundle
import Concordance.Query.Semantic
import Concordance.Span
import Concordance.Trace.Collector

/-!
# The query service

The service compiles requests.  Around each one it starts a trace and a span, times the compilation,
counts how it ended and writes one log entry; a fault of the compilation is passed on after that.

* `Config`, `Request` — what the service works with and what it is asked.
* `Request.compile` — the compilation alone.
* `Service` — the state around it.
* `Service.start`, `Service.execute` — a new service, and one request, which also ends with a fault
  where the client of the metrics fails.
* `Service.latestTrace` — the trace that is shown.
-/

namespace Concordance

open Concordance.Trace Concordance.Metric

/-- What a service works with. -/
structure Config where
  generator : Pattern.Generator := .ofOrthography medieval
  limits : Distance.Limits := {}
  ceilings : Query.Limits := {}
  baseUrl : String := Link.corpusUrl

/-- What a service is asked. -/
inductive Request where
  | proximity (r : Query.Proximity)
  | variation (r : Query.Variation)
  | semantic (r : Query.Semantic)
  | bundle (r : Query.BundleRequest)

namespace Request

/-- The name of the operation. -/
def operation : Request → String
  | proximity _ => "proximity"
  | variation _ => "proximity_with_variation"
  | semantic _ => "semantic"
  | bundle _ => "variations"

/-- An option as a label: its name, or the display of what was given. -/
def label : Value → Value
  | .choice c => .text c.name
  | v => .text v.display

/-- What of the request is noted in the trace and on the span. -/
def labels : Request → List (String × Value)
  | proximity r => [("attribute", label r.attr), ("bidirectional", .bool r.bidirectional.truthy)]
  | variation r => [("strategy", label r.strategy), ("attribute", label r.attr)]
  | semantic r => [("mode", label r.mode), ("attribute", label r.attr)]
  | bundle r => [("with_suffix", .bool r.suffixed.truthy), ("attribute", label r.attr)]

/-- Compiles the request. -/
def compile (config : Config) : Request → Except Fault Outcome
  | proximity r => .ok (.ofQuery (r.compile config.limits))
  | variation r => (r.compile config.generator config.limits config.ceilings).map .ofQuery
  | semantic r => .ok (.ofQuery (r.compile config.limits config.ceilings))
  | bundle r => (r.compile config.generator config.ceilings).map .ofBundle

end Request

/-- The characters of all queries of a bundle. -/
def Bundle.length (b : Bundle) : Nat :=
  b.queries.foldl (fun n e => n + e.2.length) 0

/-- What of an outcome is noted: sizes, and the distance of a query. -/
def Outcome.summary : Outcome → List (String × Value)
  | .query q =>
    [("length", .int q.text.length), ("subqueries", .int q.subqueries.length),
      ("distance", .int q.distance)]
  | .bundle b =>
    [("strategies", .int b.queries.length),
      ("length", .int b.length)]
  | .refused _ => []

/-- A service with its state, whose metrics are kept by a client. -/
structure Service (m : Client) where
  config : Config
  collector : Collector
  registry : m.Registry
  requests : Handle m
  failures : Handle m
  durations : Handle m
  /-- The seconds that the compilation takes by the stopwatch of the caller. -/
  seconds : Float := 0
  spans : List Span := []
  /-- The trace at the end of the last request that did not fail. -/
  lastTrace : Option Snapshot := none

namespace Service

variable {m : Client}

/-- The logger of a service. -/
def logger (s : Service m) : Log.Logger where
  name := Log.projectLogger "app.services.query_service"
  bound := [(.text "component", .text "query_generator_service"),
    (.text "orthography", .text s.config.generator.name)]

/-- Writes a log entry. -/
def log (s : Service m) (level : Int) (message : String) (context : List (String × Value)) :
    Service m :=
  { s with collector := s.collector.log (s.logger.entry level message (Log.fields context)) }

/-- A new service, whose metrics are in the registry. -/
def start (config : Config) (collector : Collector) (registry : m.Registry) : Service m :=
  let (registry, requests) :=
    Handle.create m registry .counter "cisame_query_requests_total" ["operation"]
  let (registry, failures) :=
    Handle.create m registry .counter "cisame_query_failures_total" ["kind"]
  let (registry, durations) :=
    Handle.create m registry .histogram "cisame_query_build_seconds" ["operation"]
  let s : Service m := { config, collector, registry, requests, failures, durations }
  s.log 20 "Query generator service initialised"
    [("max_word_length", .int config.ceilings.wordLength),
      ("max_context_terms", .int config.ceilings.contextTerms)]

/-- Changes the collector. -/
def onCollector (s : Service m) (f : Collector → Collector) : Service m :=
  { s with collector := f s.collector }

/-- Puts notes into the trace, their keys behind a mark. -/
def annotateAll (s : Service m) (mark : String) (notes : List (String × Value)) : Service m :=
  s.onCollector fun c => notes.foldl (fun c e => c.annotate (mark ++ "." ++ e.1) e.2) c

/-- Moves a counter on for one label. -/
def count (s : Service m) (h : Handle m) (label value : String) :
    Service m × Except Fault Unit :=
  match h.labels s.registry [(label, .text value)] with
  | (registry, .error fault) => ({ s with registry }, .error fault)
  | (registry, .ok row) =>
    let (registry, result) := row.increase registry (.float 1)
    ({ s with registry }, result)

/-- Adds a span. -/
def addSpan (s : Service m) (span : Span) : Service m :=
  { s with spans := s.spans ++ [span] }

/-- A record with text keys. -/
def entries (fields : List (String × Value)) : Value.Entries :=
  fields.map fun e => (.text e.1, e.2)

/-- What is noted in the timing of a compilation: how it ended, if it did not fail. -/
def timingDetails : Except Fault Outcome → Value.Entries
  | .ok outcome => [(.text "ok", .bool outcome.ok)]
  | .error _ => []

/-- The compilation between the two readings of its timer; a reading that fails takes its place. -/
def compileWithin (s : Service m) (r : Request) : Service m × Except Fault Outcome :=
  match s.collector.openTimer "build" [] with
  | (collector, .error fault) => ({ s with collector }, .error fault)
  | (collector, .ok began) =>
    let result := r.compile s.config
    match collector.closeTimer "build" began (timingDetails result) with
    | (collector, .error fault) => ({ s with collector }, .error fault)
    | (collector, .ok ()) => ({ s with collector }, result)

/-- The compilation under the stopwatch of its operation, whose faults take its place. -/
def compileTimed (s : Service m) (r : Request) : Service m × Except Fault Outcome :=
  match s.durations.labels s.registry [("operation", .text r.operation)] with
  | (registry, .error fault) => ({ s with registry }, .error fault)
  | (registry, .ok row) =>
    let (s, result) := { s with registry }.compileWithin r
    let (registry, result) := row.time s.registry s.seconds result
    ({ s with registry }, result)

/-- The end of a request whose compilation failed. -/
def finishFailed (s : Service m) (r : Request) (span : Span) (fault : Fault) : Service m :=
  let s := s.addSpan (span.recordFault fault)
  let s := s.onCollector (·.increment "query.exceptions" 1)
  s.log 40 "Query compilation raised"
    [("operation", .text r.operation), ("error", .text fault.message)]

/-- The end of a request that is refused. -/
def finishRefused (s : Service m) (r : Request) (span : Span) (refusal : Refusal) :
    Service m × Except Fault Unit :=
  let kind := refusal.kind.name
  match s.count s.failures "kind" kind with
  | (s, .error fault) => (s.addSpan span, .error fault)
  | (s, .ok ()) =>
    let s := s.onCollector (·.increment "query.rejected" 1)
    let s := s.onCollector (·.annotate "error.kind" (.text kind))
    let s := s.addSpan (span.attach [(.text "query.error", .text kind)])
    (s.log 30 "Query request rejected" [("operation", .text r.operation), ("kind", .text kind)],
      .ok ())

/-- The end of a request that was compiled. -/
def finishCompiled (s : Service m) (r : Request) (span : Span) (outcome : Outcome) :
    Service m × Except Fault Unit :=
  match s.count s.requests "operation" r.operation with
  | (s, .error fault) => (s.addSpan span, .error fault)
  | (s, .ok ()) =>
    let s := s.onCollector (·.increment "query.compiled" 1)
    let s := s.annotateAll "result" outcome.summary
    let s := s.addSpan (span.attach (entries outcome.summary))
    (s.log 20 "Query compiled" (("operation", .text r.operation) :: outcome.summary), .ok ())

/-- The end of a request with an outcome. -/
def finish (s : Service m) (r : Request) (span : Span) : Outcome → Service m × Except Fault Unit
  | .refused refusal => s.finishRefused r span refusal
  | outcome => s.finishCompiled r span outcome

/-- Keeps the trace as the one that is shown. -/
def keepTrace (s : Service m) : Service m :=
  { s with lastTrace := some s.collector.current }

/-- The part of a request inside its trace. -/
def executeTraced (s : Service m) (r : Request) : Service m × Except Fault Outcome :=
  let span := Span.start ("cisame_query." ++ r.operation) (entries r.labels)
  match (s.annotateAll "request" r.labels).compileTimed r with
  | (s, .error fault) => (s.finishFailed r span fault, .error fault)
  | (s, .ok outcome) =>
    match s.finish r span outcome with
    | (s, .error fault) => (s, .error fault)
    | (s, .ok ()) => (s.keepTrace, .ok outcome)

/-- One request.  It ends at once if its trace cannot be started. -/
def execute (s : Service m) (r : Request) : Service m × Except Fault Outcome :=
  match s.collector.start r.operation with
  | (collector, .error fault) => ({ s with collector }, .error fault)
  | (collector, .ok _) => { s with collector }.executeTraced r

/-- The trace that is shown: the kept one, or else the published one. -/
def latestTrace (s : Service m) : Option Snapshot :=
  s.lastTrace.or s.collector.published

/-- The link to a query. -/
def searchUrl (s : Service m) (query : String) : String :=
  Link.searchUrl s.config.baseUrl query

/-- The page of an outcome. -/
def page (s : Service m) (outcome : Outcome) : String :=
  outcome.page s.config.baseUrl

end Service

end Concordance
