import Concordance.Application

/-!
# The command line

The program reads the settings of its environment, sets logging up and says how the forms are
served.

* `describe` — the lines about a launch.
* `environment` — the values under the names that settings are read from.
-/

namespace Concordance.Main

/-- The level as a number or a word. -/
def levelText : Log.Level → String
  | .number n => Decimal.intText n
  | .flag b => if b then "on" else "off"
  | .words s => s

/-- The lines about a launch. -/
def describe (l : Application.Launch) : List String :=
  ["server: " ++ l.serverName, "port: " ++ Decimal.intText l.serverPort,
    "share: " ++ (if l.share then "yes" else "no"), "level: " ++ levelText l.projectLevel]

/-- The values under the names that settings are read from. -/
def environment : IO Environment :=
  Settings.names.filterMapM fun name => do
    let value ← IO.getEnv name
    return value.map fun text => (name, .text text)

end Concordance.Main

/-- Says how the forms are served, or why they are not. -/
def main : IO UInt32 := do
  match Concordance.Application.launch (← Concordance.Main.environment) {} with
  | .ok l =>
    (Concordance.Main.describe l).forM IO.println
    return 0
  | .error f =>
    IO.eprintln f.message
    return 1
