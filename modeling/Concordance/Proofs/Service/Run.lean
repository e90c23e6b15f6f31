import Concordance.Proofs.Service.Call

/-!
# Runs of a service

A run is a row of requests to one service, whatever each of them comes to.

* `Call`, `Service.calls`, `Service.after` — one request with the states around it, and the calls
  and the last state of a run.
* `Call.Recorded`, `recorded_calls` — the trace and the log entries of a call say how it ended; in
  every run all calls are recorded.
* `tallies_after` — after a run the metrics have counted what they were given by its calls.
* `endings_calls` — how a call ends does not depend on the calls before it.
-/

namespace Concordance

open Concordance.Trace Concordance.Metric

variable {m : Client}

/-- One request to a service, with the states around it. -/
structure Call (m : Client) where
  before : Service m
  request : Request
  after : Service m
  result : Except Fault Outcome

namespace Call

/-- How the call ended. -/
def ending (k : Call m) : Ending :=
  .of k.result

/-- What the metrics were given by the call. -/
def counted (k : Call m) : List (Meter × String) :=
  (.durations, k.request.operation) :: k.ending.counted k.request.operation

/-- What left the collector during the call. -/
def emissions (k : Call m) : List Emission :=
  k.after.collector.outbox.drop k.before.collector.outbox.length

/-- The call came to what its compilation comes to; it started one trace, about which every listener
was told; that trace holds one counter, one stage and one timing; and one entry was logged. -/
structure Recorded (k : Call m) : Prop where
  result : k.result = k.request.compile k.before.config
  outbox : k.after.collector.outbox = k.before.collector.outbox ++ k.emissions
  id : k.after.collector.current.id = k.before.collector.current.id + 1
  started : startsAmong k.emissions =
    k.before.collector.listeners.map fun l =>
      (l.name, (Event.started k.after.collector.current.id k.request.operation).payload)
  name : k.after.collector.current.name = some k.request.operation
  counters : k.after.collector.current.counters = [(k.ending.counter, 1)]
  stages : ∃ stage, k.after.collector.current.stages = [("build", stage)] ∧ stage.count = 1
  timings : ∃ timing, k.after.collector.current.timings = [timing] ∧ timing.name = "build"
  logged : ∃ entry, entry.level = k.ending.level ∧
    writtenBy Service.loggerName k.emissions = [entry]

end Call

namespace Service

/-- One request as a call. -/
def call (s : Service m) (r : Request) : Call m :=
  ⟨s, r, (s.execute r).1, (s.execute r).2⟩

/-- The calls of a run. -/
def calls (s : Service m) : List Request → List (Call m)
  | [] => []
  | r :: rest => s.call r :: (s.execute r).1.calls rest

/-- The service after a run. -/
def after (s : Service m) (rs : List Request) : Service m :=
  rs.foldl (fun s r => (s.execute r).1) s

variable {s : Service m}

/-- A new service in a new registry can record and count. -/
theorem ready_start (hm : m.Lawful) (config : Config) {c : Collector} (h : c.Working)
    {seconds : Float} (hseconds : Decimal.magnitude seconds ≠ .nan) :
    ({ Service.start config c m.fresh with seconds } : Service m).Ready :=
  ⟨⟨h.reliable, h.capacity_pos⟩, (equipped_start hm config c hseconds).1⟩

/-! ## Single calls -/

theorem recorded_call (h : s.Ready) (hm : m.Lawful) (r : Request) : (s.call r).Recorded := by
  obtain ⟨c', registry, spans, hexecute, hrecords, -⟩ := s.execute_spec h hm r
  obtain ⟨entry, hlevel, hleaves⟩ := hrecords.leaves
  obtain ⟨es, houtbox, hstarts, hentries⟩ := hleaves.outbox
  have hresult : (s.call r).result = r.compile s.config := congrArg Prod.snd hexecute
  have hcollector : (s.call r).after.collector = c' := congrArg (·.1.collector) hexecute
  have hending : (s.call r).ending = .of (r.compile s.config) := congrArg Ending.of hresult
  have hemissions : (s.call r).emissions = es := by
    rw [Call.emissions, hcollector, houtbox]
    exact List.drop_left
  exact {
    result := hresult
    outbox := by rw [hemissions, hcollector]; exact houtbox
    id := by rw [hcollector]; exact hrecords.id
    started := by rw [hemissions, hcollector, hrecords.id]; exact hstarts
    name := by rw [hcollector]; exact hrecords.name
    counters := by rw [hcollector, hending]; exact hrecords.counters
    stages := by rw [hcollector]; exact hrecords.stages
    timings := by rw [hcollector]; exact hrecords.timings
    logged := ⟨entry, by rw [hending]; exact hlevel, by rw [hemissions]; exact hentries⟩ }

theorem ending_call (h : s.Ready) (hm : m.Lawful) (r : Request) :
    (s.call r).ending = .of (r.compile s.config) :=
  congrArg Ending.of (recorded_call h hm r).result

theorem ready_execute (h : s.Ready) (hm : m.Lawful) (r : Request) : (s.execute r).1.Ready := by
  obtain ⟨c', registry, spans, hexecute, hrecords, hmetered⟩ := s.execute_spec h hm r
  obtain ⟨entry, -, hleaves⟩ := hrecords.leaves
  rw [hexecute]
  exact ⟨hleaves.working h.working, hmetered.equipped.held, hmetered.equipped.countable⟩

theorem config_execute (h : s.Ready) (hm : m.Lawful) (r : Request) :
    (s.execute r).1.config = s.config := by
  obtain ⟨c', registry, spans, hexecute, -⟩ := s.execute_spec h hm r
  rw [hexecute]

/-- The metrics count what they are given by a call. -/
theorem tallies_call (h : s.Ready) (hm : m.Lawful) (r : Request) :
    Tallies s.registry (s.call r).after.registry (s.call r).counted := by
  obtain ⟨c', registry, spans, hexecute, -, hmetered⟩ := s.execute_spec h hm r
  have hregistry : (s.call r).after.registry = registry := congrArg (·.1.registry) hexecute
  rw [hregistry, Call.counted, ending_call h hm]
  exact hmetered.tallies

/-! ## Runs -/

theorem ready_after (h : s.Ready) (hm : m.Lawful) (rs : List Request) : (s.after rs).Ready := by
  induction rs generalizing s with
  | nil => exact h
  | cons r rest ih => exact ih (ready_execute h hm r)

theorem config_after (h : s.Ready) (hm : m.Lawful) (rs : List Request) :
    (s.after rs).config = s.config := by
  induction rs generalizing s with
  | nil => rfl
  | cons r rest ih => exact (ih (ready_execute h hm r)).trans (config_execute h hm r)

theorem recorded_calls (h : s.Ready) (hm : m.Lawful) (rs : List Request) :
    ∀ k ∈ s.calls rs, k.Recorded := by
  induction rs generalizing s with
  | nil => exact List.forall_mem_nil _
  | cons r rest ih =>
    exact List.forall_mem_cons.2 ⟨recorded_call h hm r, ih (ready_execute h hm r)⟩

theorem tallies_after (h : s.Ready) (hm : m.Lawful) (rs : List Request) :
    Tallies s.registry (s.after rs).registry ((s.calls rs).flatMap Call.counted) := by
  induction rs generalizing s with
  | nil => exact .refl _
  | cons r rest ih => exact (tallies_call h hm r).trans (ih (ready_execute h hm r))

/-- How the requests of a run end depends on each of them alone. -/
theorem endings_calls (h : s.Ready) (hm : m.Lawful) (rs : List Request) :
    (s.calls rs).map (fun k => (k.request.operation, k.ending)) =
      rs.map fun r => (r.operation, .of (r.compile s.config)) := by
  induction rs generalizing s with
  | nil => rfl
  | cons r rest ih =>
    rw [calls, List.map_cons, List.map_cons, ih (ready_execute h hm r), config_execute h hm,
      ending_call h hm]
    rfl

end Service

end Concordance
