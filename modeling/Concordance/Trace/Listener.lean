import Concordance.Trace.Basic

/-!
# Listeners

Whoever listens to a collector is called with the kind of an event and with a payload of its own, to
which it may do what it likes.

* `Emission` — what leaves a collector.
* `Listener`, `Reaction` — who is called, and what comes of a call.
* `Round` — one event on its way from listener to listener.
* `Round.tellAll` — calls every listener with a copy of the payload, and goes on if one fails.
* `logEntry` — what a logging listener writes.
-/

namespace Concordance.Trace

/-- What leaves a collector. -/
inductive Emission where
  /-- A listener was called with the kind of an event and a payload. -/
  | told (listener kind : String) (payload : Value.Entries)
  /-- A listener wrote a log entry. -/
  | wrote (entry : Log.Entry)
  /-- The program wrote a log entry. -/
  | logged (entry : Log.Entry)

/-- The log entry of an emission, if it is one. -/
def Emission.entry? : Emission → Option Log.Entry
  | told _ _ _ => none
  | wrote entry | logged entry => some entry

/-- What comes of the call of a listener. -/
structure Reaction where
  /-- What the listener leaves in the payload that it was given. -/
  payload : Value.Entries
  entries : List Log.Entry := []
  result : Except Fault Unit := .ok ()

/-- A listener is known by its name.  What it does may depend on all that came before. -/
structure Listener where
  name : String
  react : List Emission → String → Value.Entries → Reaction

/-- An event on its way from listener to listener: its payload in the first of some cells, the
copies of it in the others, and what has left the collector. -/
structure Round where
  cells : List Value.Entries
  outbox : List Emission

namespace Round

/-- The content of a cell. -/
def payload (t : Round) (cell : Nat) : Value.Entries :=
  t.cells.getD cell []

/-- Copies a cell into a new one. -/
def copy (t : Round) (cell : Nat) : Round × Nat :=
  ({ t with cells := t.cells ++ [t.payload cell] }, t.cells.length)

/-- Calls a listener with a cell, in which it leaves what it likes. -/
def call (t : Round) (l : Listener) (kind : String) (cell : Nat) : Round × Except Fault Unit :=
  let reaction := l.react t.outbox kind (t.payload cell)
  let emitted := .told l.name kind (t.payload cell) :: reaction.entries.map .wrote
  ({ cells := t.cells.set cell reaction.payload, outbox := t.outbox ++ emitted }, reaction.result)

/-- Calls one listener after the other, each with its own copy of the payload. -/
def tellAll (t : Round) (kind : String) : List Listener → Round
  | [] => t
  | l :: rest =>
    let (copied, cell) := t.copy 0
    match copied.call l kind cell with
    | (called, .ok ()) => called.tellAll kind rest
    -- a listener that fails keeps the event from none of the others
    | (called, .error _) => called.tellAll kind rest

end Round

/-! ## Logging -/

/-- The logger of traces. -/
def traceLogger : Log.Logger where
  name := Log.projectLogger "utils.telemetry"
  bound := [(.text "component", .text "telemetry")]

/-- What an event is called in a log: by its name, its key, its trace, or just as an event. -/
def eventTitle (payload : Value.Entries) : Value :=
  let field (key : String) : Value := (Value.lookup? (.text key) payload).getD .null
  (field "name").orElse ((field "key").orElse ((field "trace_id").orElse (.text "event")))

/-- The log entry of an event; its keys are written as texts. -/
def logEntry (level : Int) (kind : String) (payload : Value.Entries) : Log.Entry :=
  let fields := payload.map fun e => (Value.text e.1.display, e.2)
  traceLogger.entry level ("Telemetry " ++ kind ++ ": " ++ (eventTitle payload).display)
    (.record (Value.merge [(.text "telemetry.event", .text kind)] fields))

namespace Listener

/-- A listener that only looks at what it is told. -/
def watching (name : String) : Listener where
  name := name
  react _ _ payload := { payload }

/-- A listener that empties what it is told. -/
def emptying (name : String) : Listener where
  name := name
  react _ _ _ := { payload := [] }

/-- A listener that fails. -/
def failing (name : String) (fault : Fault) : Listener where
  name := name
  react _ _ payload := { payload, result := .error fault }

/-- A listener that writes a log entry about each event. -/
def logging (name : String) (level : Int) : Listener where
  name := name
  react _ kind payload := { payload, entries := [logEntry level kind payload] }

end Listener

end Concordance.Trace
