import Concordance.Decimal.Integer
import Concordance.Link
import Concordance.Query
import Concordance.Text.Case

/-!
# Settings

Settings come from an environment of named values; what is missing or malformed keeps its default.

* `Environment` — names with their values.
* `Environment.positive`, `Environment.flag`, `Environment.texts` — readings of one name.
* `Settings`, `Settings.ofEnvironment` — the settings of the application.
* `one_le_positive` — a positive number is read as one.
-/

namespace Concordance

open Concordance.Text

/-- Names with their values. -/
abbrev Environment := List (String × Value)

namespace Environment

/-- The whole number under a name, if there is one and it is positive. -/
def positive (env : Environment) (name : String) (default : Int) : Int :=
  match env.lookup name with
  | none | some .null => default
  | some v =>
    match Decimal.int? (trimChars v.displayChars) with
    | some n => if 1 ≤ n then n else default
    | none => default

theorem one_le_positive {env : Environment} {name : String} {default : Int} (h : 1 ≤ default) :
    1 ≤ env.positive name default := by
  unfold positive
  split
  · exact h
  · exact h
  · split
    · split
      · assumption
      · exact h
    · exact h

/-- The words that switch something on. -/
def yesWords : List String := ["1", "true", "yes", "on"]

/-- Whether a name is switched on. -/
def flag (env : Environment) (name : String) : Bool :=
  yesWords.contains (lowerName ((env.lookup name).getD (.text "")).display)

/-- The text under a name, if something is given there. -/
def text (env : Environment) (name default : String) : String :=
  (((env.lookup name).getD .null).orElse (.text default)).display

end Environment

/-- The settings of the application. -/
structure Settings where
  baseUrl : String := Link.corpusUrl
  ceilings : Query.Limits := {}
  /-- The logging level as it was given, if it was. -/
  logLevel : Value := .null
  /-- Whether the forms are offered beyond this machine. -/
  share : Bool := false
  serverName : String := "0.0.0.0"
  serverPort : Int := 7860

/-- The name of the logging level in an environment. -/
def Settings.levelName : String := "CISAME_LOG_LEVEL"

/-- The names in an environment that settings are read from. -/
def Settings.names : List String :=
  ["CISAME_NOSKETCH_URL", "CISAME_MAX_WORD_LENGTH", "CISAME_MAX_CONTEXT_TERMS", levelName,
    "CISAME_SHARE", "CISAME_SERVER_NAME", "CISAME_SERVER_PORT"]

/-- The settings of an environment. -/
def Settings.ofEnvironment (env : Environment) : Settings where
  baseUrl := env.text "CISAME_NOSKETCH_URL" Link.corpusUrl
  ceilings := {
    wordLength := env.positive "CISAME_MAX_WORD_LENGTH" 40
    contextTerms := env.positive "CISAME_MAX_CONTEXT_TERMS" 12 }
  logLevel := ((env.lookup levelName).getD .null).orElse .null
  share := env.flag "CISAME_SHARE"
  serverName := env.text "CISAME_SERVER_NAME" "0.0.0.0"
  serverPort := env.positive "CISAME_SERVER_PORT" 7860

end Concordance
