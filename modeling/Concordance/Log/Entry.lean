import Concordance.Log.Level
import Concordance.Value.Payload
import Concordance.Value.Record

/-!
# Log entries

A logger is bound to a record, which every one of its messages carries as a payload behind a bar.

* `Entry`, `Entry.seen` — a message with its logger and level, and whether a threshold lets it pass.
* `Logger` — a name with a bound record.
* `Logger.bind` — the logger with more bound to it.
* `Logger.named`, `Logger.bindNamed` — the same for records whose keys have to be names.
* `Logger.line` — the text of a message with its payload.
* `Logger.entry` — the entry of a message.
-/

namespace Concordance.Log

/-- A message with its logger and level. -/
structure Entry where
  logger : String
  level : Int
  message : String
  deriving DecidableEq, Repr

/-- An entry is seen if its level is positive and not below the threshold. -/
def Entry.seen (setting : Int) (e : Entry) : Bool :=
  0 < e.level && threshold setting ≤ e.level

/-- A name with a record that all messages carry. -/
structure Logger where
  name : String
  bound : Value.Entries := []

namespace Logger

/-- The logger with more bound to it. -/
def bind (l : Logger) (more : Value.Entries) : Logger :=
  { l with bound := Value.merge l.bound more }

/-- A logger with a record bound to it, whose keys have to be names. -/
def named (name : String) (fields : Value.Entries) : Except Fault Logger := do
  Value.checkNames .logger fields
  return { name, bound := fields }

/-- The logger with one more record bound to it, whose keys have to be names. -/
def bindNamed (l : Logger) (fields : Value.Entries) : Except Fault Logger := do
  Value.checkNames .binding fields
  return l.bind fields

/-- The record of a message: what is bound, and then the message's own context. -/
def context (l : Logger) (own : Value) : Value.Entries :=
  match own with
  | .record entries => Value.merge l.bound entries
  | _ => l.bound

/-- The text of a message with its payload, if there is any. -/
def line (l : Logger) (message : String) (own : Value) : String :=
  match l.context own with
  | [] => message
  | entries => message ++ " | " ++ String.ofList (Payload.payload entries)

/-- The entry of a message. -/
def entry (l : Logger) (level : Int) (message : String) (own : Value) : Entry :=
  { logger := l.name, level := level, message := l.line message own }

end Logger

/-- The name of a logger of the project. -/
def projectLogger (s : String) : String :=
  "cisame_query." ++ s

/-- A record with text keys. -/
def fields (entries : List (String × Value)) : Value :=
  .record (entries.map fun e => (.text e.1, e.2))

end Concordance.Log
