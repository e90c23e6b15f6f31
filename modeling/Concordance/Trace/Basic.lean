import Concordance.Log.Entry
import Concordance.Value.Number

/-!
# Traces of requests

A trace holds what was measured since it was started: timings, the stages that they belong to,
counters and notes.  Whatever is recorded is also published as an event.

* `Stage`, `Timing`, `Snapshot` — what a trace holds, with their records.
* `Event` — what is published, with its `kind` and `payload`.
* `lookup_upsert_self` — what was put under a name is found there.
-/

namespace Concordance.Trace

variable {β : Type}

/-- The list with what is under a name replaced, or added at the end. -/
def upsert (name : String) (f : Option β → β) : List (String × β) → List (String × β)
  | [] => [(name, f none)]
  | (n, b) :: rest => if n = name then (n, f (some b)) :: rest else (n, b) :: upsert name f rest

theorem lookup_upsert_self (name : String) (f : Option β → β) (entries : List (String × β)) :
    (upsert name f entries).lookup name = some (f (entries.lookup name)) := by
  induction entries with
  | nil => simp [upsert]
  | cons e rest ih =>
    obtain ⟨n, b⟩ := e
    by_cases h : n = name
    · subst h; simp [upsert]
    · have h' : (name == n) = false := by simpa using Ne.symm h
      simp [upsert, h, h', List.lookup_cons, ih]

/-- The timings of one name taken together. -/
structure Stage where
  count : Nat
  total : Float
  least : Float
  greatest : Float

namespace Stage

/-- A stage without timings, whose bounds are those of its first one. -/
def start (duration : Float) : Stage :=
  { count := 0, total := 0, least := duration, greatest := duration }

/-- The stage with one more timing. -/
def add (s : Stage) (duration : Float) : Stage where
  count := s.count + 1
  total := s.total + duration
  least := if duration < s.least then duration else s.least
  greatest := if s.greatest < duration then duration else s.greatest

/-- The mean duration. -/
def average (s : Stage) : Float :=
  s.total / Decimal.ofQuotient false s.count 1

end Stage

/-- One measured duration. -/
structure Timing where
  name : String
  duration : Float
  details : Value.Entries

/-- What was measured since the trace was started. -/
structure Snapshot where
  /-- The number of traces started so far. -/
  id : Nat := 0
  name : Option String := none
  stages : List (String × Stage) := []
  counters : List (String × Float) := []
  /-- The latest timings, in order. -/
  timings : List Timing := []
  notes : List (String × Value) := []

/-- The record of a stage. -/
def Stage.record (s : Stage) : Value :=
  Log.fields
    [("count", .int s.count), ("total", .float s.total), ("min", .float s.least),
      ("max", .float s.greatest), ("avg", .float s.average)]

/-- The fields of a timing, which has metadata if it has details. -/
def Timing.fields (t : Timing) : List (String × Value) :=
  [("name", .text t.name), ("duration", .float t.duration)] ++
    if t.details.isEmpty then [] else [("metadata", .record t.details)]

/-- The record of a trace. -/
def Snapshot.record (t : Snapshot) : Value :=
  Log.fields
    [("trace_id", .int t.id),
      ("name", t.name.elim .null .text),
      ("timings", Log.fields (t.stages.map fun e => (e.1, e.2.record))),
      ("counters", Log.fields (t.counters.map fun e => (e.1, .float e.2))),
      ("events", .list (t.timings.map fun timing => Log.fields timing.fields)),
      ("metadata", Log.fields t.notes)]

/-- What is published. -/
inductive Event where
  | started (id : Nat) (name : String)
  | timerStarted (name : String) (details : Value.Entries)
  | timed (name : String) (duration : Float) (details : Value.Entries)
  | counted (name : String) (delta value : Float)
  | noted (key : String) (value : Value)

namespace Event

/-- The name of an event's kind. -/
def kind : Event → String
  | started _ _ => "trace_started"
  | timerStarted _ _ => "timer_started"
  | timed _ _ _ => "timing"
  | counted _ _ _ => "counter"
  | noted _ _ => "metadata"

/-- The record of an event. -/
def payload : Event → Value.Entries
  | started id name => [(.text "trace_id", .int id), (.text "name", .text name)]
  | timerStarted name details => [(.text "name", .text name), (.text "metadata", .record details)]
  | timed name duration details =>
    [(.text "name", .text name), (.text "duration", .float duration),
      (.text "metadata", .record details)]
  | counted name delta value =>
    [(.text "name", .text name), (.text "delta", .float delta), (.text "value", .float value)]
  | noted key value => [(.text "key", .text key), (.text "value", value)]

end Event

end Concordance.Trace
