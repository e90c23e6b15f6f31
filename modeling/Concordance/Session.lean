import Concordance.Application
import Concordance.Trace.Step

/-!
# Sessions

A session is a row of steps on one service: requests, looks at what they left behind, and steps on
the trace.

* `Session.Step`, `Session.Reply`, `Session.step` — one step and its answer.
* `Session.take` — what was logged, told to listeners and spanned since the last look.
-/

namespace Concordance

open Concordance.Trace

/-- A service with the last outcome of its requests. -/
structure Session (m : Metric.Client) where
  service : Service m
  last : Option Outcome := none

namespace Session

variable {m : Metric.Client}

/-- A step of a session. -/
inductive Step where
  | request (r : Request)
  /-- Shows the last outcome as a page. -/
  | format
  | url (query : String)
  /-- Looks at the trace that is shown. -/
  | shownTrace
  /-- Looks at the metrics of the service. -/
  | metrics
  | trace (s : Trace.Step)

/-- The answer to a step. -/
inductive Reply where
  | outcome (o : Outcome)
  | text (s : String)
  | shown (t : Option Snapshot)
  | samples (s : List Metric.Sample)
  | trace (r : Except Fault Trace.Reply)
  | fault (f : Fault)
  | nothing

/-- The service's own counts, without the seconds of the real clock. -/
def counts (s : Service m) : List Metric.Sample :=
  Metric.sortSamples <| (m.samples s.registry).filter fun sample =>
    !"_sum".toList.isSuffixOf sample.name.toList

/-- One step. -/
def step (s : Session m) : Step → Session m × Reply
  | .request r =>
    match s.service.execute r with
    | (service, .ok outcome) => ({ service, last := some outcome }, .outcome outcome)
    | (service, .error f) => ({ s with service }, .fault f)
  | .format =>
    match s.last with
    | some outcome => (s, .text (s.service.page outcome))
    | none => (s, .nothing)
  | .url query => (s, .text (s.service.searchUrl query))
  | .shownTrace => (s, .shown s.service.latestTrace)
  | .metrics => (s, .samples (counts s.service))
  | .trace t =>
    let (collector, reply) := s.service.collector.run t
    ({ s with service := { s.service with collector } }, .trace reply)

/-- What was emitted and spanned since the last look, and the session without it. -/
def take (s : Session m) : (List Emission × List Span) × Session m :=
  let service := s.service
  let collector := { service.collector with outbox := [] }
  ((service.collector.outbox, service.spans),
    { s with service := { service with collector, spans := [] } })

end Session

end Concordance
