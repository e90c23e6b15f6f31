import Concordance.Trace.Clock
import Concordance.Trace.Listener
import Concordance.Value.Record

/-!
# The collector of a trace

* `Collector` — the current trace, its published copy, the listeners and the clock.
* `Collector.publish` — publishes the trace and tells every listener about an event.
* `Collector.start`, `Collector.recordTiming`, `Collector.increment`, `Collector.annotate` — the
  recording operations.
* `Collector.openTimer`, `Collector.closeTimer` — the two ends of a timed block.
-/

namespace Concordance.Trace

/-- The state of a collector. -/
structure Collector where
  current : Snapshot := {}
  /-- The trace as it was last published. -/
  published : Option Snapshot := none
  /-- The most timings that are kept. -/
  capacity : Nat := 128
  listeners : List Listener := []
  clock : Clock := .steady (.whole 0) (.whole 0)
  /-- What left the collector, in order. -/
  outbox : List Emission := []

/-- The capacity that a value gives; at least one timing is kept. -/
def capacityOf (v : Value) : Except Fault Nat := do
  let n ← v.toInt
  return (max 1 n).toNat

namespace Collector

/-- Publishes the trace and tells every listener about an event. -/
def publish (c : Collector) (e : Event) : Collector :=
  let round : Round := { cells := [e.payload], outbox := c.outbox }
  { c with
    published := some c.current
    outbox := (round.tellAll e.kind c.listeners).outbox }

/-- One reading of the clock. -/
def now (c : Collector) : Collector × Except Fault Float :=
  let (reading, clock) := c.clock.read
  ({ c with clock }, reading)

/-- Starts a new trace and gives its number.  Without a reading of the clock the notes of the trace
before it stay, and nothing is published. -/
def start (c : Collector) (name : String) : Collector × Except Fault Nat :=
  let id := c.current.id + 1
  let fresh : Snapshot := { id, name := some name }
  match c.now with
  | (c, .error fault) =>
    ({ c with current := { fresh with notes := c.current.notes } }, .error fault)
  | (c, .ok x) =>
    let notes := [("trace_name", .text name), ("start_time", .float x)]
    ({ c with current := { fresh with notes } }.publish (.started id name), .ok id)

/-- No duration is below zero, nor is what is no number. -/
def clampDuration (x : Float) : Float :=
  if 0 < x then x else 0

/-- The last items of a list. -/
def lastItems {α : Type} (n : Nat) (xs : List α) : List α :=
  xs.drop (xs.length - n)

/-- Records a duration. -/
def recordTiming (c : Collector) (name : String) (duration : Float) (details : Value.Entries) :
    Collector :=
  let d := clampDuration duration
  let t := c.current
  let stages := upsert name (fun s => (s.getD (.start d)).add d) t.stages
  let timings := lastItems c.capacity (t.timings ++ [⟨name, d, details⟩])
  { c with current := { t with stages, timings } }.publish (.timed name d details)

/-- Moves a counter on. -/
def increment (c : Collector) (name : String) (amount : Float) : Collector :=
  let t := c.current
  let value := (t.counters.lookup name).getD 0 + amount
  { c with current := { t with counters := upsert name (fun _ => value) t.counters } }.publish
    (.counted name amount value)

/-- Puts a note under a key. -/
def annotate (c : Collector) (key : String) (value : Value) : Collector :=
  let t := c.current
  { c with current := { t with notes := upsert key (fun _ => value) t.notes } }.publish
    (.noted key value)

/-- Adds a listener, once more if it is there already. -/
def addListener (c : Collector) (l : Listener) : Collector :=
  { c with listeners := c.listeners ++ [l] }

/-- Removes a listener wherever it stands. -/
def removeListener (c : Collector) (name : String) : Collector :=
  { c with listeners := c.listeners.filter fun l => l.name ≠ name }

/-- Begins a timed block and gives the reading at its start, without which it does not begin. -/
def openTimer (c : Collector) (name : String) (details : Value.Entries) :
    Collector × Except Fault Float :=
  match c.now with
  | (c, .error fault) => (c, .error fault)
  | (c, .ok x) => (c.publish (.timerStarted name details), .ok x)

/-- Ends a timed block that began at the given reading.  Without a reading nothing is recorded. -/
def closeTimer (c : Collector) (name : String) (began : Float) (details : Value.Entries) :
    Collector × Except Fault Unit :=
  match c.now with
  | (c, .error fault) => (c, .error fault)
  | (c, .ok x) => (c.recordTiming name (x - began) details, .ok ())

/-- Writes a log entry. -/
def log (c : Collector) (entry : Log.Entry) : Collector :=
  { c with outbox := c.outbox ++ [.logged entry] }

end Collector

end Concordance.Trace
