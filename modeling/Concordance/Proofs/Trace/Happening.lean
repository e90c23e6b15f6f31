import Concordance.Proofs.Trace.History
import Concordance.Proofs.Trace.Listening

/-!
# A run is its course

With a clock that gives readings a run nests timed blocks in each other and looks at the clock, but
what it comes to is a row of acts and of changes of the listeners.

* `Act.event` — the event that an act publishes.
* `Collector.perform`, `Collector.undergoAll`, `Collector.follow` — a collector after an act, after
  happenings, and after a course.
* `Keeps`, `Keeps.perform`, `Keeps.undergoAll` — a collector holds the trace of what happened to it.
* `start_eq`, `openTimer_eq`, `closeTimer_eq` — the operations that read the clock.
* `Course.Covers`, `covers_run`, `covers_runAll` — a run follows the course of its steps.
-/

namespace Concordance.Trace

open Collector

/-! ## What an act does -/

/-- What is published with an act that comes upon a trace. -/
def Act.event (t : Snapshot) : Act → Event
  | started name _ => .started (t.id + 1) name
  | opened name details => .timerStarted name details
  | timed timing => .timed timing.name timing.duration timing.details
  | counted name amount => .counted name amount ((t.counters.lookup name).getD 0 + amount)
  | noted key value => .noted key value

namespace Collector

/-- The collector after an act, apart from its clock. -/
def perform (c : Collector) (a : Act) : Collector :=
  { c with current := c.current.after c.capacity a }.publish (a.event c.current)

section Perform

variable (c : Collector) (a : Act)

@[simp]
theorem perform_published : (c.perform a).published = some (c.current.after c.capacity a) := rfl

@[simp]
theorem perform_listeners : (c.perform a).listeners = c.listeners := rfl

/-- An act tells a listener about its event once for each registration. -/
theorem received_perform (name : String) :
    received name (c.perform a).outbox = received name c.outbox ++
      List.replicate (registrations name c.listeners)
        ((a.event c.current).kind, (a.event c.current).payload) :=
  received_publish name { c with current := c.current.after c.capacity a } (a.event c.current)

end Perform

/-- The collector after a happening, apart from its clock. -/
def undergo (c : Collector) : Happening → Collector
  | .did a => c.perform a
  | .added l => c.addListener l
  | .removed name => c.removeListener name

/-- The collector after happenings one after the other, apart from its clock. -/
def undergoAll (c : Collector) (hs : List Happening) : Collector :=
  hs.foldl undergo c

theorem undergoAll_append (c : Collector) (hs hs' : List Happening) :
    c.undergoAll (hs ++ hs') = (c.undergoAll hs).undergoAll hs' :=
  List.foldl_append

/-- The collector with another clock. -/
def atClock (c : Collector) (clock : Clock) : Collector :=
  { c with clock }

/-- Happenings do not look at the clock. -/
theorem undergo_atClock (c : Collector) (clock : Clock) (h : Happening) :
    (c.atClock clock).undergo h = (c.undergo h).atClock clock := by
  cases h <;> rfl

theorem undergoAll_atClock (c : Collector) (clock : Clock) (hs : List Happening) :
    (c.atClock clock).undergoAll hs = (c.undergoAll hs).atClock clock := by
  induction hs generalizing c with
  | nil => rfl
  | cons h rest ih =>
    show ((c.atClock clock).undergo h).undergoAll rest =
      ((c.undergo h).undergoAll rest).atClock clock
    rw [undergo_atClock, ih]

/-- The collector after a course. -/
def follow (c : Collector) (k : Course) : Collector :=
  (c.undergoAll k.happenings).atClock k.clock

end Collector

/-! ## The trace that is held -/

/-- The collector has a capacity and holds the trace of some acts, which is published if there are
any. -/
structure Collector.Keeps (c : Collector) (capacity : Nat) (acts : List Act) : Prop where
  capacity_eq : c.capacity = capacity
  current_eq : c.current = .ofHistory capacity acts
  published_eq : c.published = if acts = [] then none else some (.ofHistory capacity acts)

/-- A new collector holds the trace of nothing. -/
theorem keeps_new (capacity : Nat) (listeners : List Listener) (clock : Clock) :
    ({ capacity, listeners, clock } : Collector).Keeps capacity [] :=
  ⟨rfl, (Snapshot.ofHistory_nil capacity).symm, rfl⟩

namespace Collector.Keeps

variable {c : Collector} {capacity : Nat} {acts : List Act}

theorem atClock (h : c.Keeps capacity acts) (clock : Clock) :
    (c.atClock clock).Keeps capacity acts :=
  ⟨h.capacity_eq, h.current_eq, h.published_eq⟩

theorem perform (h : c.Keeps capacity acts) (a : Act) :
    (c.perform a).Keeps capacity (acts ++ [a]) := by
  have hcurrent : c.current.after c.capacity a = .ofHistory capacity (acts ++ [a]) := by
    rw [ofHistory_concat, h.current_eq, h.capacity_eq]
  refine ⟨h.capacity_eq, hcurrent, ?_⟩
  rw [perform_published, hcurrent, if_neg (List.concat_ne_nil _ _)]

theorem undergoAll (h : c.Keeps capacity acts) (hs : List Happening) :
    (c.undergoAll hs).Keeps capacity (acts ++ hs.filterMap Happening.act?) := by
  induction hs generalizing c acts with
  | nil =>
    rw [List.filterMap_nil, List.append_nil]
    exact h
  | cons happening rest ih =>
    cases happening with
    | did a =>
      have hact : Happening.act? (.did a) = some a := rfl
      rw [List.filterMap_cons_some hact, List.append_cons]
      exact ih (h.perform a)
    | added l =>
      have hact : Happening.act? (.added l) = none := rfl
      rw [List.filterMap_cons_none hact]
      exact ih (c := c.addListener l) ⟨h.capacity_eq, h.current_eq, h.published_eq⟩
    | removed name =>
      have hact : Happening.act? (.removed name) = none := rfl
      rw [List.filterMap_cons_none hact]
      exact ih (c := c.removeListener name) ⟨h.capacity_eq, h.current_eq, h.published_eq⟩

theorem follow (h : c.Keeps capacity acts) (k : Course) :
    (c.follow k).Keeps capacity (acts ++ k.acts) :=
  (h.undergoAll k.happenings).atClock k.clock

end Collector.Keeps

/-! ## Operations with a reading of the clock -/

section Readings

variable {c : Collector}

theorem now_eq (h : c.clock.Reliable) : c.now = (c.atClock c.clock.next, .ok c.clock.reading) := by
  rw [now, h.read_eq]
  rfl

theorem start_eq (h : c.clock.Reliable) (name : String) :
    c.start name =
      ((c.perform (.started name c.clock.reading)).atClock c.clock.next,
        .ok (c.current.id + 1)) := by
  rw [Collector.start, now_eq h]
  rfl

theorem increment_eq (c : Collector) (name : String) (amount : Float) :
    c.increment name amount = c.perform (.counted name amount) := by
  rw [increment, upsert_const name fun x? => x?.getD 0 + amount]
  rfl

theorem openTimer_eq (h : c.clock.Reliable) (name : String) (details : Value.Entries) :
    c.openTimer name details =
      ((c.perform (.opened name details)).atClock c.clock.next, .ok c.clock.reading) := by
  rw [openTimer, now_eq h]
  rfl

theorem openTimer_collector (h : c.clock.Reliable) (name : String) (details : Value.Entries) :
    (c.openTimer name details).1 = (c.perform (.opened name details)).atClock c.clock.next :=
  congrArg Prod.fst (openTimer_eq h name details)

theorem openTimer_clock (h : c.clock.Reliable) (name : String) (details : Value.Entries) :
    (c.openTimer name details).1.clock = c.clock.next :=
  congrArg Collector.clock (openTimer_collector h name details)

theorem closeTimer_eq (h : c.clock.Reliable) (name : String) (began : Float)
    (details : Value.Entries) :
    let x := c.clock.reading - began
    c.closeTimer name began details =
      ((c.perform (.timed ⟨name, if 0 < x then x else 0, details⟩)).atClock c.clock.next,
        .ok ()) := by
  rw [closeTimer, now_eq h]
  rfl

/-- A timed block that begins records its timing behind what its steps come to, and then passes
their fault on or answers with their answers. -/
theorem run_timer {name : String} {details : Value} {entries : Value.Entries} (body : List Step)
    (h : c.clock.Reliable) (hdetails : details.toRecord = .ok entries)
    (hbody : (((c.openTimer name entries).1.runAll body).collector.clock).Reliable) :
    let inner := (c.openTimer name entries).1.runAll body
    let x := inner.collector.clock.reading - c.clock.reading
    let closing : Timing := ⟨name, if 0 < x then x else 0, Reply.yielded entries inner.replies⟩
    c.run (.timer name details body) =
      ((inner.collector.perform (.timed closing)).atClock inner.collector.clock.next,
        match inner.fault with
        | some f => .error f
        | none => .ok (.block inner.replies)) := by
  intro inner x closing
  -- Only the reading is read off here: the steps run on the collector as it is then.
  have hopen : c.openTimer name entries = ((c.openTimer name entries).1, .ok c.clock.reading) := by
    rw [openTimer_eq h]
  rw [run, hdetails]
  dsimp only
  rw [hopen]
  dsimp only
  rw [closeTimer_eq hbody]
  cases inner.fault <;> rfl

end Readings

/-! ## Runs -/

/-- One step as a run. -/
def Ran.ofStep : Collector × Except Fault Reply → Ran
  | (c, .ok reply) => { collector := c, replies := [reply] }
  | (c, .error f) => { collector := c, fault := some f }

/-- A run follows a course: it leaves the collector after the course, writes the same into the
details of the timed block around it, and ends with the same fault. -/
structure Course.Covers (k : Course) (c : Collector) (ran : Ran) : Prop where
  collector_eq : ran.collector = c.follow k
  puts_eq : ran.replies.filterMap Reply.put? = k.puts
  fault_eq : ran.fault = k.fault
  reliable : k.clock.Reliable

namespace Course.Covers

variable {k : Course} {c : Collector} {ran : Ran}

theorem clock_eq (h : k.Covers c ran) : ran.collector.clock = k.clock := by
  rw [h.collector_eq]
  rfl

theorem keeps (h : k.Covers c ran) {capacity : Nat} {acts : List Act} (hc : c.Keeps capacity acts) :
    ran.collector.Keeps capacity (acts ++ k.acts) := by
  rw [h.collector_eq]
  exact hc.follow k

/-- A timed block that begins follows its course if its steps do. -/
theorem timer {name : String} {details : Value} {entries : Value.Entries} {body : List Step}
    (h : c.clock.Reliable) (hdetails : details.toRecord = .ok entries)
    (hbody : (Step.courseAll c.clock.next body).Covers (c.openTimer name entries).1
      ((c.openTimer name entries).1.runAll body)) :
    (Step.course c.clock (.timer name details body)).Covers c
      (.ofStep (c.run (.timer name details body))) := by
  rw [run_timer body h hdetails (hbody.clock_eq ▸ hbody.reliable), hbody.clock_eq, hbody.fault_eq,
    Reply.yielded, hbody.puts_eq, hbody.collector_eq, openTimer_collector h, Step.course, hdetails]
  have hcollector (t : Timing) :
      (((c.perform (.opened name entries)).atClock c.clock.next).follow
        (Step.courseAll c.clock.next body)).perform (.timed t) =
      (c.undergoAll (.did (.opened name entries) ::
        ((Step.courseAll c.clock.next body).happenings ++ [.did (.timed t)]))).atClock
          (Step.courseAll c.clock.next body).clock := by
    rw [Collector.follow, undergoAll_atClock, ← List.cons_append, undergoAll_append]
    rfl
  rw [hcollector]
  dsimp only
  cases (Step.courseAll c.clock.next body).fault <;> exact ⟨rfl, rfl, rfl, hbody.reliable.next⟩

/-- Steps follow their course if the first one does and those behind it do from anywhere. -/
theorem cons {s : Step} {rest : List Step}
    (hfirst : (s.course c.clock).Covers c (.ofStep (c.run s)))
    (hrest : ∀ {d : Collector}, d.clock.Reliable →
      (Step.courseAll d.clock rest).Covers d (d.runAll rest)) :
    (Step.courseAll c.clock (s :: rest)).Covers c (c.runAll (s :: rest)) := by
  obtain ⟨hcollector, hputs, hfault, hreliable⟩ := hfirst
  rw [Step.courseAll, Course.andThen, ← hfault]
  cases hrun : c.run s with
  | mk c' result =>
    rw [hrun] at hcollector hputs hfault
    cases result with
    | error f =>
      rw [runAll_of_error hrun]
      exact ⟨hcollector, hputs, hfault, hreliable⟩
    | ok reply =>
      rw [runAll_of_ok hrun]
      have hclock : c'.clock = (s.course c.clock).clock := congrArg Collector.clock hcollector
      have hothers := hrest (d := c') (hclock ▸ hreliable)
      rw [hclock] at hothers
      refine ⟨?_, ?_, hothers.fault_eq, hothers.reliable⟩
      · have hcollector' : c' = c.follow (s.course c.clock) := hcollector
        refine hothers.collector_eq.trans ?_
        rw [hcollector', Collector.follow, Collector.follow, Collector.follow, undergoAll_atClock,
          ← undergoAll_append]
        rfl
      · show (reply :: (c'.runAll rest).replies).filterMap Reply.put? = _
        rw [← List.singleton_append, List.filterMap_append, hothers.puts_eq]
        exact congrArg (· ++ _) hputs

end Course.Covers

mutual

/-- A step follows its course. -/
theorem covers_run (s : Step) {c : Collector} (h : c.clock.Reliable) :
    (s.course c.clock).Covers c (.ofStep (c.run s)) := by
  cases s with
  | start name =>
    rw [run, Step.course, start_eq h]
    exact ⟨rfl, rfl, rfl, h.next⟩
  | timing name duration details =>
    rw [run, Step.course, timingStep]
    cases duration.toFloat with
    | error f => exact ⟨rfl, rfl, rfl, h⟩
    | ok x =>
      cases details.toRecord with
      | error f => exact ⟨rfl, rfl, rfl, h⟩
      | ok entries => exact ⟨rfl, rfl, rfl, h⟩
  | increment name amount =>
    rw [run, Step.course, incrementStep]
    cases amount.toFloat with
    | error f => exact ⟨rfl, rfl, rfl, h⟩
    | ok x => exact ⟨increment_eq c name x, rfl, rfl, h⟩
  | now =>
    rw [run, Step.course, now_eq h]
    exact ⟨rfl, rfl, rfl, h.next⟩
  | annotate | snapshot | latest | add | remove | put | fail =>
    rw [run, Step.course]
    exact ⟨rfl, rfl, rfl, h⟩
  | attempt step =>
    obtain ⟨hcollector, hputs, hfault, hreliable⟩ := covers_run step h
    rw [run, Step.course]
    cases hrun : c.run step with
    | mk c' result =>
      rw [hrun] at hcollector hputs
      cases result with
      | ok reply => exact ⟨hcollector, hputs, rfl, hreliable⟩
      | error f => exact ⟨hcollector, hputs, rfl, hreliable⟩
  | timer name details body =>
    cases hdetails : details.toRecord with
    | error f =>
      rw [run, Step.course, hdetails]
      exact ⟨rfl, rfl, rfl, h⟩
    | ok entries =>
      -- The body and its course both start at the clock after the first reading.
      have hclock := openTimer_clock h name entries
      have hbody := covers_runAll body (c := (c.openTimer name entries).1) (hclock ▸ h.next)
      rw [hclock] at hbody
      exact .timer h hdetails hbody

/-- Steps one after the other follow their course. -/
theorem covers_runAll (steps : List Step) {c : Collector} (h : c.clock.Reliable) :
    (Step.courseAll c.clock steps).Covers c (c.runAll steps) := by
  cases steps with
  | nil =>
    rw [runAll, Step.courseAll]
    exact ⟨rfl, rfl, rfl, h⟩
  | cons s rest =>
    exact .cons (covers_run s h) fun hd => covers_runAll rest hd

end

end Concordance.Trace
