import Concordance.Proofs.Service.Meter
import Concordance.Proofs.Trace.Recording

/-!
# One request to a service

Whatever a request comes to, its trace, its metrics and its log entries say how it ended, and its
result is that of the compilation alone.

* `Ending` — how a request ended, with its `counter`, its log `level` and what it is `counted` as.
* `Collector.Records` — what a request of an operation leaves in a collector.
* `Service.Metered` — what a request leaves in the metrics of a service.
* `Service.Ready`, `Service.execute_spec` — one request to a service that can record and count.
-/

namespace Concordance

open Concordance.Trace Concordance.Metric

/-- How a request ended. -/
inductive Ending where
  | compiled
  | rejected (kind : RefusalKind)
  | raised
  deriving DecidableEq, Repr

namespace Ending

def of : Except Fault Outcome → Ending
  | .ok (.refused r) => rejected r.kind
  | .ok _ => compiled
  | .error _ => raised

/-- The kind of reason for a rejection. -/
def kind? : Ending → Option RefusalKind
  | rejected kind => some kind
  | _ => none

/-- The counter of the trace that is moved on. -/
def counter : Ending → String
  | compiled => "query.compiled"
  | rejected _ => "query.rejected"
  | raised => "query.exceptions"

/-- The level of the log entry that is written. -/
def level : Ending → Int
  | compiled => 20
  | rejected _ => 30
  | raised => 40

/-- What the end of a request of an operation is counted as. -/
def counted (operation : String) : Ending → List (Meter × String)
  | compiled => [(.requests, operation)]
  | rejected kind => [(.failures, kind.name)]
  | raised => []

end Ending

/-- The name of a service's logger. -/
def Service.loggerName : String :=
  Log.projectLogger "app.services.query_service"

namespace Trace.Collector

/-- The end of a request: one counter was moved on and published, and one entry was written. -/
structure Ends (c c' : Collector) (ending : Ending) : Prop where
  current : ∃ notes, c'.current = { c.current with
    counters := upsert ending.counter (fun x? => x?.getD 0 + 1) c.current.counters
    notes }
  published : c'.published = some c'.current
  leaves : ∃ entry, entry.level = ending.level ∧ c.Leaves c' Service.loggerName [] [entry]

/-- A request of an operation in between: one trace was started, which holds one timing of one stage
and one counter, and one entry was written. -/
structure Records (c c' : Collector) (operation : String) (ending : Ending) : Prop where
  id : c'.current.id = c.current.id + 1
  name : c'.current.name = some operation
  counters : c'.current.counters = [(ending.counter, 1)]
  stages : ∃ stage, c'.current.stages = [("build", stage)] ∧ stage.count = 1
  timings : ∃ timing, c'.current.timings = [timing] ∧ timing.name = "build"
  published : c'.published = some c'.current
  leaves : ∃ entry, entry.level = ending.level ∧
    c.Leaves c' Service.loggerName
      (c.listeners.map fun l => (l.name, (Event.started (c.current.id + 1) operation).payload))
      [entry]

/-- A request is recorded if its trace held one timing alone before its end. -/
theorem Ends.records {c c' c'' : Collector} {operation : String} {ending : Ending} {d : Float}
    {details : Value.Entries} {notes : List (String × Value)} (h : c'.Ends c'' ending)
    (hcurrent : c'.current = {
      id := c.current.id + 1
      name := some operation
      stages := [("build", Stage.grown none d)]
      timings := [⟨"build", d, details⟩]
      notes })
    (hleaves : c.Leaves c' Service.loggerName
      (c.listeners.map fun l => (l.name, (Event.started (c.current.id + 1) operation).payload))
      []) :
    c.Records c'' operation ending := by
  obtain ⟨notes', hend⟩ := h.current
  obtain ⟨entry, hlevel, hwritten⟩ := h.leaves
  have hone : (0 : Float) + 1 = 1 := by rfl
  rw [hcurrent] at hend
  exact {
    id := by rw [hend]
    name := by rw [hend]
    counters := by
      rw [hend]
      exact congrArg (fun x => [(ending.counter, x)]) hone
    stages := ⟨_, by rw [hend], rfl⟩
    timings := ⟨_, by rw [hend], rfl⟩
    published := h.published
    leaves := ⟨entry, hlevel, by simpa using hleaves.trans hwritten⟩ }

/-- A request ends when its counter is moved on, notes are put into its trace and an entry is
written. -/
theorem ends_log {c c' : Collector} {ending : Ending} {entry : Log.Entry}
    {notes : List (String × Value)}
    (hcurrent : c'.current = { (c.increment ending.counter 1).current with notes })
    (hpublished : c'.published = some c'.current)
    (hleaves : (c.increment ending.counter 1).Leaves c' Service.loggerName [] [])
    (hlogger : entry.logger = Service.loggerName) (hlevel : entry.level = ending.level) :
    c.Ends (c'.log entry) ending := by
  refine ⟨⟨notes, ?_⟩, hpublished, entry, hlevel, ?_⟩
  · refine hcurrent.trans ?_
    rw [increment_eq]
    rfl
  · exact ((leaves_increment _ c _ _).trans hleaves).trans (leaves_log hlogger)

/-- Notes are put into a trace one by one. -/
theorem annotateAll_spec (c : Collector) (mark : String) (notes : List (String × Value)) :
    ∃ c' after, notes.foldl (fun c e => c.annotate (mark ++ "." ++ e.1) e.2) c = c' ∧
      c'.current = { c.current with notes := after } ∧
      (c.published = some c.current → c'.published = some c'.current) ∧
      c.Leaves c' Service.loggerName [] [] := by
  induction notes generalizing c with
  | nil => exact ⟨c, c.current.notes, rfl, rfl, id, .refl c _⟩
  | cons e rest ih =>
    obtain ⟨c', after, hc', hcurrent, hpublished, hleaves⟩ :=
      ih (c.annotate (mark ++ "." ++ e.1) e.2)
    exact ⟨c', after, hc', hcurrent, fun _ => hpublished rfl,
      (leaves_annotate _ c _ _).trans hleaves⟩

end Trace.Collector

namespace Service

variable {m : Client} {s : Service m}

/-- With another registry the service has its metrics, and these counted what they were given. -/
structure Metered (s : Service m) (registry : m.Registry) (given : List (Meter × String)) :
    Prop where
  equipped : ({ s with registry } : Service m).Equipped
  tallies : Tallies s.registry registry given

/-- The end of a request does to a service and to its trace what an ending says. -/
def FinishesBy (s : Service m) (operation : String) (ending : Ending)
    (result : Service m × Except Fault Unit) : Prop :=
  ∃ c' registry spans, result = ({ s with collector := c', registry, spans }, .ok ()) ∧
    s.collector.Ends c' ending ∧ s.Metered registry (ending.counted operation)

theorem finishFailed_spec (h : s.Equipped) (r : Request) (span : Span) (fault : Fault) :
    s.FinishesBy r.operation .raised (s.finishFailed r span fault, .ok ()) :=
  ⟨_, _, _, rfl, Collector.ends_log rfl rfl (.refl _ _) rfl rfl, ⟨h.held, h.countable⟩, .refl _⟩

theorem finishRefused_spec (h : s.Equipped) (hm : m.Lawful) (r : Request) (span : Span)
    (refusal : Refusal) :
    s.FinishesBy r.operation (.rejected refusal.kind) (s.finishRefused r span refusal) := by
  obtain ⟨registry, hcount, hequipped, htallies⟩ :=
    h.count hm .failures rfl refusal.kind.name
  have hcount : s.count s.failures "kind" refusal.kind.name = ({ s with registry }, .ok ()) :=
    hcount
  rw [finishRefused, hcount]
  exact ⟨_, registry, _, rfl,
    Collector.ends_log rfl rfl (Collector.leaves_annotate _ _ _ _) rfl rfl,
    ⟨hequipped.held, hequipped.countable⟩, htallies⟩

theorem finishCompiled_spec (h : s.Equipped) (hm : m.Lawful) (r : Request) (span : Span)
    (outcome : Outcome) :
    s.FinishesBy r.operation .compiled (s.finishCompiled r span outcome) := by
  obtain ⟨registry, hcount, hequipped, htallies⟩ := h.count hm .requests rfl r.operation
  have hcount : s.count s.requests "operation" r.operation = ({ s with registry }, .ok ()) :=
    hcount
  obtain ⟨c', notes, hc', hcurrent, hpublished, hleaves⟩ :=
    (s.collector.increment "query.compiled" 1).annotateAll_spec "result" outcome.summary
  have hfinish : s.finishCompiled r span outcome =
      (({ s with
        collector := c'
        registry
        spans := s.spans ++ [span.attach (entries outcome.summary)] } : Service m).log 20
          "Query compiled" (("operation", .text r.operation) :: outcome.summary), .ok ()) := by
    rw [finishCompiled, hcount, ← hc']
    rfl
  rw [hfinish]
  exact ⟨_, registry, _, rfl, Collector.ends_log hcurrent (hpublished rfl) hleaves rfl rfl,
    ⟨hequipped.held, hequipped.countable⟩, htallies⟩

/-- The compilation between the readings of its timer. -/
theorem compileWithin_spec (hworking : s.collector.Working) (r : Request) :
    ∃ c' d, s.compileWithin r = ({ s with collector := c' }, r.compile s.config) ∧
      c'.current = s.collector.current.after s.collector.capacity
        (.timed ⟨"build", d, timingDetails (r.compile s.config)⟩) ∧
      s.collector.Leaves c' loggerName [] [] := by
  have hreliable := hworking.reliable
  have hopen := openTimer_eq hreliable "build" []
  let c1 := (s.collector.perform (.opened "build" [])).atClock s.collector.clock.next
  have hleaves1 : s.collector.Leaves c1 loggerName [] [] :=
    (s.collector.leaves_perform loggerName (.opened "build" [])).atNext
  obtain ⟨d, hclose⟩ : ∃ d, c1.closeTimer "build" s.collector.clock.reading
      (timingDetails (r.compile s.config)) =
        ((c1.perform (.timed ⟨"build", d, timingDetails (r.compile s.config)⟩)).atClock
          c1.clock.next, .ok ()) :=
    ⟨_, closeTimer_eq (c := c1) hreliable.next "build" _ _⟩
  have hleaves2 (a : Act) : c1.Leaves ((c1.perform a).atClock c1.clock.next) loggerName
      (c1.startsOf a) [] :=
    (c1.leaves_perform loggerName a).atNext
  refine ⟨_, d, ?_, rfl, hleaves1.trans (hleaves2 (.timed _))⟩
  rw [compileWithin, hopen]
  dsimp only
  rw [hclose]

/-- The compilation under the stopwatch of its operation. -/
theorem compileTimed_spec (h : s.Equipped) (hm : m.Lawful) (hworking : s.collector.Working)
    (r : Request) :
    ∃ c' registry d, s.compileTimed r =
        ({ s with collector := c', registry }, r.compile s.config) ∧
      c'.current = s.collector.current.after s.collector.capacity
        (.timed ⟨"build", d, timingDetails (r.compile s.config)⟩) ∧
      s.collector.Leaves c' loggerName [] [] ∧ s.Metered registry [(.durations, r.operation)] := by
  obtain ⟨r1, row, r2, hlabels, hmove, hequipped, htallies⟩ :=
    h.give hm .durations (growth?_seconds h.countable) r.operation
  have hlabels : s.durations.labels s.registry [("operation", .text r.operation)] =
      (r1, .ok ⟨.histogram, some row⟩) := hlabels
  obtain ⟨c', d, hwithin, hcurrent, hleaves⟩ :=
    compileWithin_spec (s := { s with registry := r1 }) hworking r
  refine ⟨c', r2, d, ?_, hcurrent, hleaves, hequipped, htallies⟩
  have hobserve : Handle.observe ⟨.histogram, some row⟩ r1 (.float s.seconds) = (r2, .ok ()) :=
    hmove
  rw [compileTimed, hlabels]
  dsimp only
  rw [hwithin]
  dsimp only
  rw [Handle.time, if_pos rfl, hobserve]

/-- The service records and counts whatever it is asked. -/
structure Ready (s : Service m) : Prop where
  working : s.collector.Working
  equipped : s.Equipped

/-- The trace that a service shows from its own memory after a request. -/
def remembered (s : Service m) (c : Collector) : Except Fault Outcome → Option Snapshot
  | .ok _ => some c.current
  | .error _ => s.lastTrace

/-- The end of a request whose compilation came to a result. -/
theorem executeTraced_spec {s1 : Service m} {r : Request} {result : Except Fault Outcome}
    (hcompile : (s.annotateAll "request" r.labels).compileTimed r = (s1, result))
    (h : s1.Equipped) (hm : m.Lawful) :
    ∃ c' registry spans, s.executeTraced r =
        ({ s1 with collector := c', registry, spans, lastTrace := s1.remembered c' result },
          result) ∧
      s1.collector.Ends c' (.of result) ∧
      s1.Metered registry ((Ending.of result).counted r.operation) := by
  let span := Span.start ("cisame_query." ++ r.operation) (entries r.labels)
  rw [executeTraced, hcompile]
  cases result with
  | error fault =>
    obtain ⟨c', registry, spans, hfinish, hends, hmetered⟩ := s1.finishFailed_spec h r span fault
    exact ⟨c', registry, spans, congrArg (fun t => (t.1, _)) hfinish, hends, hmetered⟩
  | ok outcome =>
    have hfinish : s1.FinishesBy r.operation (.of (.ok outcome)) (s1.finish r span outcome) := by
      cases outcome with
      | refused refusal => exact s1.finishRefused_spec h hm r span refusal
      | query q => exact s1.finishCompiled_spec h hm r span (.query q)
      | bundle b => exact s1.finishCompiled_spec h hm r span (.bundle b)
    obtain ⟨c', registry, spans, hfinish, hends, hmetered⟩ := hfinish
    refine ⟨c', registry, spans, ?_, hends, hmetered⟩
    dsimp only
    rw [hfinish]
    rfl

/-- One request to a service. -/
theorem execute_spec (h : s.Ready) (hm : m.Lawful) (r : Request) :
    ∃ c' registry spans, s.execute r =
        ({ s with
          collector := c'
          registry
          spans
          lastTrace := s.remembered c' (r.compile s.config) }, r.compile s.config) ∧
      s.collector.Records c' r.operation (.of (r.compile s.config)) ∧
      s.Metered registry
        ((.durations, r.operation) :: (Ending.of (r.compile s.config)).counted r.operation) := by
  -- `c1`, `c2` and `c3` stand behind the start of the trace, the notes, and the compilation.
  let c := s.collector
  have hstart := start_eq h.working.reliable r.operation
  let c1 := (c.perform (.started r.operation c.clock.reading)).atClock c.clock.next
  have hleaves1 : c.Leaves c1 loggerName (c.startsOf (.started r.operation c.clock.reading)) [] :=
    (c.leaves_perform loggerName _).atNext
  obtain ⟨c2, notes2, hannotate, hcurrent2, -, hleaves2⟩ := c1.annotateAll_spec "request" r.labels
  have hleaves12 := hleaves1.trans hleaves2
  have hworking2 := hleaves12.working h.working
  let s1 : Service m := { s with collector := c1 }
  let s2 : Service m := { s with collector := c2 }
  obtain ⟨c3, registry3, d, htimed, hcurrent3, hleaves3, hmetered3⟩ :=
    compileTimed_spec (s := s2) ⟨h.equipped.held, h.equipped.countable⟩ hm hworking2 r
  let s3 : Service m := { s with collector := c3, registry := registry3 }
  have hcurrent : c3.current = {
      id := c.current.id + 1
      name := some r.operation
      stages := [("build", Stage.grown none d)]
      timings := [⟨"build", d, timingDetails (r.compile s.config)⟩]
      notes := notes2 } := by
    have hdrop : 1 - c2.capacity = 0 := Nat.sub_eq_zero_of_le hworking2.capacity_pos
    rw [hcurrent3, hcurrent2]
    show Snapshot.mk _ _ _ _ (List.drop (1 - c2.capacity) _) _ = _
    rw [hdrop]
    rfl
  have hleaves : c.Leaves c3 loggerName
      (c.listeners.map fun l => (l.name, (Event.started (c.current.id + 1) r.operation).payload))
      [] := by
    have hstarts : c.startsOf (.started r.operation c.clock.reading) = c.listeners.map fun l =>
        (l.name, (Event.started (c.current.id + 1) r.operation).payload) := rfl
    simpa [hstarts] using hleaves12.trans hleaves3
  have hbuilt : (s1.annotateAll "request" r.labels).compileTimed r =
      (s3, r.compile s.config) := by
    have hrequest : s1.annotateAll "request" r.labels = s2 := by
      rw [annotateAll, onCollector, hannotate]
    rw [hrequest]
    exact htimed
  have hequipped3 : s3.Equipped := ⟨hmetered3.equipped.held, hmetered3.equipped.countable⟩
  obtain ⟨c', registry, spans, htraced, hends, hmetered⟩ := executeTraced_spec hbuilt hequipped3 hm
  refine ⟨c', registry, spans, ?_, hends.records hcurrent hleaves, ?_⟩
  · rw [execute, hstart]
    exact htraced
  · exact ⟨⟨hmetered.equipped.held, hmetered.equipped.countable⟩,
      hmetered3.tallies.trans hmetered.tallies⟩

end Service

end Concordance
