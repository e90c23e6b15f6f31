import Concordance.Proofs.Trace.Happening

/-!
# What recording leaves behind

A collector with a clock that gives readings records everything that it is asked to, tells its
listeners and writes what it is given to write.

* `startsAmong`, `writtenBy` — the trace starts that listeners are told about and the log entries of
  one logger of the program among emissions.
* `Collector.Working` — the clock gives readings, and at least one timing is kept.
* `Collector.Leaves` — from one state to another the outbox grew by given starts and entries.
* `leaves_perform`, `leaves_log` — what an act and a log entry leave.
-/

namespace Concordance.Trace

/-- The trace starts that listeners are told about, with their payloads. -/
def startsAmong (es : List Emission) : List (String × Value.Entries) :=
  ((toldAmong es).filter fun call => call.2.1 = "trace_started").map fun call => (call.1, call.2.2)

/-- The log entries that one logger of the program writes. -/
def writtenBy (logger : String) (es : List Emission) : List Log.Entry :=
  (loggedAmong es).filter (·.logger == logger)

theorem startsAmong_append (es fs : List Emission) :
    startsAmong (es ++ fs) = startsAmong es ++ startsAmong fs := by
  rw [startsAmong, toldAmong_append, List.filter_append, List.map_append]
  rfl

theorem writtenBy_append (logger : String) (es fs : List Emission) :
    writtenBy logger (es ++ fs) = writtenBy logger es ++ writtenBy logger fs := by
  rw [writtenBy, loggedAmong_append, List.filter_append]
  rfl

/-- The event that starts a trace is announced as such, and no other event is. -/
theorem startsAmong_announced {kind : String} {payload : Value.Entries} {ls : List Listener}
    {es : List Emission} (h : Announced kind payload ls es) :
    startsAmong es = if kind = "trace_started" then ls.map fun l => (l.name, payload) else [] := by
  rw [startsAmong, h.told_eq, List.filter_map]
  by_cases hkind : kind = "trace_started" <;> simp [hkind, Function.comp_def]

theorem kind_event_eq_started_iff (t : Snapshot) (a : Act) :
    (a.event t).kind = "trace_started" ↔ a.startName?.isSome := by
  cases a <;> simp [Act.event, Event.kind, Act.startName?]

namespace Collector

/-- The collector has a clock that gives readings and keeps at least one timing. -/
structure Working (c : Collector) : Prop where
  reliable : c.clock.Reliable
  capacity_pos : 1 ≤ c.capacity

/-- From one state to another the outbox grew by some emissions, among them the given trace starts
and entries of one logger; listeners and capacity stayed, and a reliable clock stayed reliable. -/
structure Leaves (c c' : Collector) (logger : String) (starts : List (String × Value.Entries))
    (entries : List Log.Entry) : Prop where
  outbox : ∃ es, c'.outbox = c.outbox ++ es ∧ startsAmong es = starts ∧
    writtenBy logger es = entries
  listeners_eq : c'.listeners = c.listeners
  capacity_eq : c'.capacity = c.capacity
  reliable : c.clock.Reliable → c'.clock.Reliable

variable {c : Collector} {logger : String}

namespace Leaves

variable {c' c'' : Collector} {starts starts' : List (String × Value.Entries)}
  {entries entries' : List Log.Entry}

theorem refl (c : Collector) (logger : String) : c.Leaves c logger [] [] :=
  ⟨⟨[], (List.append_nil _).symm, rfl, rfl⟩, rfl, rfl, id⟩

theorem working (h : c.Leaves c' logger starts entries) (hc : c.Working) : c'.Working :=
  ⟨h.reliable hc.reliable, h.capacity_eq ▸ hc.capacity_pos⟩

theorem trans (h : c.Leaves c' logger starts entries) (h' : c'.Leaves c'' logger starts' entries') :
    c.Leaves c'' logger (starts ++ starts') (entries ++ entries') := by
  obtain ⟨es, hes, hstarts, hentries⟩ := h.outbox
  obtain ⟨fs, hfs, hstarts', hentries'⟩ := h'.outbox
  refine ⟨⟨es ++ fs, ?_, ?_, ?_⟩, h'.listeners_eq.trans h.listeners_eq,
    h'.capacity_eq.trans h.capacity_eq, h'.reliable ∘ h.reliable⟩
  · rw [hfs, hes, List.append_assoc]
  · rw [startsAmong_append, hstarts, hstarts']
  · rw [writtenBy_append, hentries, hentries']

/-- The clock was read. -/
theorem atNext (h : c.Leaves c' logger starts entries) :
    c.Leaves (c'.atClock c'.clock.next) logger starts entries :=
  ⟨h.outbox, h.listeners_eq, h.capacity_eq, fun hc => (h.reliable hc).next⟩

end Leaves

/-- The starts that listeners are told about with an act. -/
def startsOf (c : Collector) (a : Act) : List (String × Value.Entries) :=
  if a.startName?.isSome then c.listeners.map fun l => (l.name, (a.event c.current).payload) else []

/-- An act tells the listeners, and the program writes nothing with it. -/
theorem leaves_perform (c : Collector) (logger : String) (a : Act) :
    c.Leaves (c.perform a) logger (c.startsOf a) [] := by
  obtain ⟨es, hes, hannounced⟩ :=
    outbox_publish { c with current := c.current.after c.capacity a } (a.event c.current)
  refine ⟨⟨es, hes, ?_, ?_⟩, rfl, rfl, id⟩
  · rw [startsAmong_announced hannounced, startsOf]
    simp only [kind_event_eq_started_iff]
  · rw [writtenBy, hannounced.logged_eq]
    rfl

theorem leaves_log {entry : Log.Entry} (h : entry.logger = logger) :
    c.Leaves (c.log entry) logger [] [entry] :=
  ⟨⟨[.logged entry], rfl, rfl, by simp [writtenBy, loggedAmong, Emission.logged?, h]⟩, rfl, rfl, id⟩

theorem leaves_annotate (logger : String) (c : Collector) (key : String) (value : Value) :
    c.Leaves (c.annotate key value) logger [] [] :=
  c.leaves_perform logger (.noted key value)

theorem leaves_increment (logger : String) (c : Collector) (name : String) (amount : Float) :
    c.Leaves (c.increment name amount) logger [] [] := by
  rw [increment_eq]
  exact c.leaves_perform logger (.counted name amount)

end Collector

end Concordance.Trace
