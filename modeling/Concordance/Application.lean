import Concordance.Log.Setup
import Concordance.Service
import Concordance.Settings

/-!
# The application

* `Application.config` — what the service of some settings works with.
* `Application.wire` — a service together with the log entry of the application around it.
* `Application.own` — a trace collector of the application's own.
* `Launch`, `launch` — how the forms are served, and the logging level of the project.
-/

namespace Concordance.Application

open Concordance.Trace

variable {m : Metric.Client}

/-- What the service of some settings works with. -/
def config (settings : Settings) (o : Orthography) : Config where
  generator := .ofOrthography o
  ceilings := settings.ceilings
  baseUrl := settings.baseUrl

/-- The logger of the application. -/
def logger : Log.Logger where
  name := Log.projectLogger "app.app"
  bound := [(.text "component", .text "app_facade")]

/-- The application around a service. -/
def wire (settings : Settings) (s : Service m) : Service m :=
  let context := Log.fields
    [("orthography", .text s.config.generator.name), ("base_url", .text settings.baseUrl)]
  { s with collector := s.collector.log (logger.entry 20 "Application dependencies wired" context) }

/-- The application of some settings, with a collector for its traces and a registry for its
metrics. -/
def start (settings : Settings) (o : Orthography) (c : Collector) (registry : m.Registry) :
    Service m :=
  wire settings (Service.start (config settings o) c registry)

/-- A trace collector of the application's own, whose one listener logs all details. -/
def own : Collector where
  listeners := [.logging "logger_debug" 10]

/-- How the forms are served. -/
structure Launch where
  serverName : String
  serverPort : Int
  share : Bool
  projectLevel : Log.Level
  deriving DecidableEq, Repr

/-- Sets logging up from the environment and says how the forms are served. -/
def launch (env : Environment) (setup : Log.Setup) : Except Fault Launch :=
  let settings := Settings.ofEnvironment env
  let fromEnvironment := (env.lookup Settings.levelName).getD .null
  match setup.configure settings.logLevel fromEnvironment false with
  | (_, .error f) => .error f
  | (setup, .ok ()) =>
    .ok {
      serverName := settings.serverName
      serverPort := settings.serverPort
      share := settings.share
      projectLevel := setup.project }

end Concordance.Application
