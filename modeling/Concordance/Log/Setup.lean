import Concordance.Log.Level

/-!
# Setting logging up

Logging is set up once, and again only when that is forced.

* `Setup` — whether it was set up, the levels of all messages and of the project's, and the number
  of handlers.
* `Setup.configure` — one attempt, with the level that was given or else the environment's.
-/

namespace Concordance.Log

/-- The state of logging. -/
structure Setup where
  configured : Bool := false
  /-- The level of all messages. -/
  root : Level := .number defaultThreshold
  handlers : Nat := 0
  /-- The level of the project's messages. -/
  project : Level := .number 20
  deriving DecidableEq, Repr

/-- What stands behind a name that is no level cannot be set as one. -/
def Level.settable : Level → Except Fault Unit
  | words s => .error (if s = styleTable then .noLevel s else .unknownLevel s)
  | _ => .ok ()

/-- Removes all handlers if that is forced. -/
def Setup.cleared (s : Setup) (force : Bool) : Setup :=
  if force then { s with handlers := 0 } else s

/-- Adds a handler and sets the level of all messages, unless there is a handler. -/
def Setup.basic (s : Setup) (level : Level) : Setup × Except Fault Unit :=
  if s.handlers = 0 then
    match level.settable with
    | .error f => ({ s with handlers := 1 }, .error f)
    | .ok () => ({ s with handlers := 1, root := level }, .ok ())
  else (s, .ok ())

/-- Sets the level of the project's messages. -/
def Setup.finish (s : Setup) (level : Level) : Setup × Except Fault Unit :=
  match level.settable with
  | .error f => (s, .error f)
  | .ok () => ({ s with project := level, configured := true }, .ok ())

/-- The given level, or else that of the environment. -/
def consulted : Value → Value → Value
  | .null, fromEnvironment => fromEnvironment
  | given, _ => given

/-- One attempt to set logging up; a fault leaves what was done before it. -/
def Setup.configure (s : Setup) (given fromEnvironment : Value) (force : Bool) :
    Setup × Except Fault Unit :=
  if s.configured && !force then (s, .ok ()) else
    match Level.resolve (consulted given fromEnvironment) with
    | .error f => (s, .error f)
    | .ok level =>
      match (s.cleared force).basic level with
      | (s, .error f) => (s, .error f)
      | (s, .ok ()) => s.finish level

end Concordance.Log
