import Concordance.Text.Case
import Concordance.Value.Number

/-!
# Logging levels

A level is given as a number or by a name in any mix of cases; anything else is the level `INFO`.

* `Level` — a number, a truth value that serves as one, or what stands behind a name that is no
  level.
* `levelNames` — the names with their levels.
* `Level.resolve` — the level that a value gives.
* `threshold` — the level from which on messages pass.
-/

namespace Concordance.Log

/-- What a given level resolves to. -/
inductive Level where
  | number (n : Int)
  /-- A truth value, which is kept as it was given. -/
  | flag (b : Bool)
  /-- What stands behind a name that is no level, as texts show it. -/
  | words (s : String)
  deriving DecidableEq, Repr

/-- The level of ordinary messages. -/
def Level.info : Level := .number 20

/-- The threshold where none is set. -/
def defaultThreshold : Int := 30

/-- The level from which on messages pass; a setting of zero sets none. -/
def threshold (setting : Int) : Int :=
  if setting = 0 then defaultThreshold else setting

/-- The line pattern that stands under a name beside the levels. -/
def basicFormat : String := "%(levelname)s:%(name)s:%(message)s"

/-- The table of line patterns by their styles, which stands under another name. -/
def styleTable : String :=
  "\x7b'%': (<class 'logging.PercentStyle'>, '" ++ basicFormat ++ "'), " ++
  "'\x7b': (<class 'logging.StrFormatStyle'>, '\x7blevelname\x7d:\x7bname\x7d:\x7bmessage\x7d'), " ++
  "'$': (<class 'logging.StringTemplateStyle'>, '$\x7blevelname\x7d:$\x7bname\x7d:$\x7bmessage\x7d')\x7d"

/-- The names with what stands under them. -/
def levelNames : List (String × Level) :=
  [("CRITICAL", .number 50), ("FATAL", .number 50), ("ERROR", .number 40), ("WARNING", .number 30),
    ("WARN", .number 30), ("INFO", .number 20), ("DEBUG", .number 10), ("NOTSET", .number 0),
    ("BASIC_FORMAT", .words basicFormat), ("_STYLES", .words styleTable)]

/-- What stands under a name; under no known name stands `INFO`. -/
def Level.ofName (s : String) : Level :=
  (levelNames.lookup (Text.upperName s)).getD .info

/-- The level that a value gives.  Only infinity gives none. -/
def Level.resolve : Value → Except Fault Level
  | .null => .ok .info
  | .bool b => .ok (.flag b)
  | .int n => .ok (.number n)
  | v =>
    match v.toInt with
    | .ok n => .ok (.number n)
    | .error .wholeOfInfinity => .error .wholeOfInfinity
    | .error _ => .ok (ofName v.display)

example : (Level.resolve (.text " Warning ")).toOption = some (.number 30) := by decide +kernel

end Concordance.Log
