import Concordance.Proofs.Trace.Delivery

/-!
# Timed blocks as brackets

The events of a run are bracketed by its timed blocks: each block that begins publishes its start,
what its steps publish, and its timing when it ends, whether its steps fail or not.

* `Bracketed` — events as steps publish them, with the readings of the clock that they take, what
  they write into the details around them, and the fault that ends them.
* `Collector.eventsOf`, `received_undergoAll_spared` — the events that are published, and that a
  listener hears them.
* `bracketed_course`, `bracketed_courseAll` — the events of a run are bracketed.
* `Outline`, `Step.outline` — the timed blocks of steps in the order of their starts, and the
  timings in the order of their ends.
* `timers_are_well_bracketed` — the main statement.
-/

namespace Concordance.Trace

open Collector

/-! ## Brackets -/

/-- The name and the details with which a timed block begins. -/
def Event.begun? : Event → Option (String × Value.Entries)
  | timerStarted name details => some (name, details)
  | _ => none

/-- The name and the details of the timing that an event tells of. -/
def Event.timed? : Event → Option (String × Value.Entries)
  | timed name _ details => some (name, details)
  | _ => none

/-- The event at the end of a timed block, by the readings at its two ends. -/
def Event.ofBlock (name : String) (began ended : Float) (details : Value.Entries) : Event :=
  let x := ended - began
  .timed name (if 0 < x then x else 0) details

namespace Step

/-- The step has no steps within it. -/
def isPlain : Step → Bool
  | .attempt _ | .timer _ _ _ => false
  | _ => true

/-- The fault with which a plain step ends. -/
def fault? : Step → Option Fault
  | .timing _ duration details =>
    match duration.toFloat, details.toRecord with
    | .error f, _ => some f
    | .ok _, .error f => some f
    | .ok _, .ok _ => none
  | .increment _ amount =>
    match amount.toFloat with
    | .error f => some f
    | .ok _ => none
  | .fail f => some f
  | _ => none

/-- The name and the details of the timing that a plain step records. -/
def timed? : Step → Option (String × Value.Entries)
  | .timing name _ details =>
    match details.toRecord with
    | .ok entries => some (name, entries)
    | .error _ => none
  | _ => none

/-- What a plain step writes into the details around it. -/
def put? : Step → Option Value.Entries
  | .put entries => some entries
  | _ => none

/-- The clock after a plain step. -/
def clockAfter (clock : Clock) : Step → Clock
  | .start _ | .now => clock.next
  | _ => clock

end Step

/-- The events are those that steps publish one after the other, the clock moves on from the first
one to the second, some entries are written into the details around the steps, and a fault ends them
or none does.  A timed block takes one reading and publishes its start; then come the events of its
steps; then it takes one reading more and publishes its timing, with the details that it began with
and what its steps wrote into them; a fault of its steps ends the steps around it as well. -/
inductive Bracketed :
    Clock → List Step → List Event → Clock → List Value.Entries → Option Fault → Prop
  | nil {k : Clock} : Bracketed k [] [] k [] none
  | plain {k k' : Clock} {s : Step} {rest : List Step} {es more : List Event}
    {puts : List Value.Entries} {fault : Option Fault} (hs : s.isPlain = true)
    (hfault : s.fault? = none) (hone : es.length ≤ 1) (hbegun : es.filterMap Event.begun? = [])
    (htimed : es.filterMap Event.timed? = s.timed?.toList)
    (hrest : Bracketed (s.clockAfter k) rest more k' puts fault) :
    Bracketed k (s :: rest) (es ++ more) k' (s.put?.toList ++ puts) fault
  | failing {k : Clock} {s : Step} {rest : List Step} {f : Fault} (hs : s.isPlain = true)
    (hfault : s.fault? = some f) : Bracketed k (s :: rest) [] k [] (some f)
  | attempt {k k₁ k' : Clock} {s : Step} {rest : List Step} {es more : List Event}
    {puts puts' : List Value.Entries} {fault fault' : Option Fault}
    (hstep : Bracketed k [s] es k₁ puts fault) (hrest : Bracketed k₁ rest more k' puts' fault') :
    Bracketed k (.attempt s :: rest) (es ++ more) k' (puts ++ puts') fault'
  | refused {k : Clock} {name : String} {details : Value} {body rest : List Step} {f : Fault}
    (hdetails : details.toRecord = .error f) :
    Bracketed k (.timer name details body :: rest) [] k [] (some f)
  | block {k k₁ k' : Clock} {name : String} {details : Value} {entries : Value.Entries}
    {body rest : List Step} {inner more : List Event} {puts puts' : List Value.Entries}
    {fault : Option Fault} (hdetails : details.toRecord = .ok entries)
    (hbody : Bracketed k.next body inner k₁ puts none)
    (hrest : Bracketed k₁.next rest more k' puts' fault) :
    Bracketed k (.timer name details body :: rest)
      (.timerStarted name entries :: (inner ++
        .ofBlock name k.reading k₁.reading (puts.foldl Value.merge entries) :: more))
      k' puts' fault
  | broken {k k₁ : Clock} {name : String} {details : Value} {entries : Value.Entries}
    {body rest : List Step} {inner : List Event} {puts : List Value.Entries} {f : Fault}
    (hdetails : details.toRecord = .ok entries)
    (hbody : Bracketed k.next body inner k₁ puts (some f)) :
    Bracketed k (.timer name details body :: rest)
      (.timerStarted name entries :: (inner ++
        [.ofBlock name k.reading k₁.reading (puts.foldl Value.merge entries)]))
      k₁.next [] (some f)

namespace Bracketed

variable {k k₁ k' : Clock} {steps rest : List Step} {es more : List Event}
  {puts puts' : List Value.Entries} {fault : Option Fault} {f : Fault}

/-- Steps behind others that no fault ended. -/
theorem append (h : Bracketed k steps es k₁ puts none)
    (hrest : Bracketed k₁ rest more k' puts' fault) :
    Bracketed k (steps ++ rest) (es ++ more) k' (puts ++ puts') fault := by
  generalize hnone : (none : Option Fault) = ended at h
  induction h with
  | nil => exact hrest
  | plain hs hfault hone hbegun htimed _ ih =>
    rw [List.append_assoc, List.append_assoc]
    exact .plain hs hfault hone hbegun htimed (ih hrest hnone)
  | attempt hstep _ _ ih =>
    rw [List.append_assoc, List.append_assoc]
    exact .attempt hstep (ih hrest hnone)
  | block hdetails hbody _ _ ih =>
    rw [List.cons_append, List.cons_append, List.append_assoc, List.cons_append]
    exact .block hdetails hbody (ih hrest hnone)
  | failing | refused | broken => cases hnone

/-- Steps behind a fault do not matter. -/
theorem append_of_fault (h : Bracketed k steps es k₁ puts (some f)) (rest : List Step) :
    Bracketed k (steps ++ rest) es k₁ puts (some f) := by
  generalize hsome : some f = ended at h
  induction h with
  | nil => cases hsome
  | plain hs hfault hone hbegun htimed _ ih => exact .plain hs hfault hone hbegun htimed (ih hsome)
  | failing hs hfault => exact .failing hs hfault
  | attempt hstep _ _ ih => exact .attempt hstep (ih hsome)
  | refused hdetails => exact .refused hdetails
  | block hdetails hbody _ _ ih => exact .block hdetails hbody (ih hsome)
  | broken hdetails hbody => exact .broken hdetails hbody

end Bracketed

/-! ## What is published -/

namespace Collector

/-- The events that happenings publish. -/
def eventsOf (c : Collector) : List Happening → List Event
  | [] => []
  | h :: rest => (h.act?.map fun a => a.event c.current).toList ++ (c.undergo h).eventsOf rest

theorem eventsOf_append (c : Collector) (hs hs' : List Happening) :
    c.eventsOf (hs ++ hs') = c.eventsOf hs ++ (c.undergoAll hs).eventsOf hs' := by
  induction hs generalizing c with
  | nil => rfl
  | cons h rest ih =>
    rw [List.cons_append, eventsOf, eventsOf, ih, List.append_assoc]
    rfl

end Collector

mutual

/-- The step neither adds nor removes a listener, not even within a timed block. -/
def Step.spares (name : String) : Step → Bool
  | .add l => l.name != name
  | .remove n => n != name
  | .attempt s => s.spares name
  | .timer _ _ body => sparesAll name body
  | _ => true

/-- No step adds or removes a listener. -/
def Step.sparesAll (name : String) : List Step → Bool
  | [] => true
  | s :: rest => s.spares name && sparesAll name rest

end

/-- What happens does not change the registrations of a listener. -/
def Happening.spares (name : String) : Happening → Bool
  | did _ => true
  | added l => l.name != name
  | removed n => n != name

/-- Nothing of a course changes the registrations of a listener. -/
def Course.Spares (name : String) (k : Course) : Prop :=
  ∀ h ∈ k.happenings, h.spares name = true

mutual

theorem spares_course (name : String) (s : Step) (k : Clock) (hs : s.spares name = true) :
    (s.course k).Spares name := by
  cases s with
  | start | annotate => exact List.forall_mem_singleton.2 rfl
  | timing n duration details =>
    rw [Step.course]
    cases duration.toFloat with
    | error f => exact List.forall_mem_nil _
    | ok x =>
      cases details.toRecord with
      | error f => exact List.forall_mem_nil _
      | ok entries => exact List.forall_mem_singleton.2 rfl
  | increment n amount =>
    rw [Step.course]
    cases amount.toFloat with
    | error f => exact List.forall_mem_nil _
    | ok x => exact List.forall_mem_singleton.2 rfl
  | snapshot | latest | now | put | fail => exact List.forall_mem_nil _
  | add | remove => exact List.forall_mem_singleton.2 hs
  | attempt s => exact spares_course name s k hs
  | timer n details body =>
    have hbody := spares_courseAll name body k.next hs
    rw [Step.course]
    cases details.toRecord with
    | error f => exact List.forall_mem_nil _
    | ok entries =>
      exact List.forall_mem_cons.2
        ⟨rfl, List.forall_mem_append.2 ⟨hbody, List.forall_mem_singleton.2 rfl⟩⟩

theorem spares_courseAll (name : String) (steps : List Step) (k : Clock)
    (hs : Step.sparesAll name steps = true) : (Step.courseAll k steps).Spares name := by
  cases steps with
  | nil => exact List.forall_mem_nil _
  | cons s rest =>
    rw [Step.sparesAll, Bool.and_eq_true] at hs
    have hfirst := spares_course name s k hs.1
    rw [Step.courseAll, Course.andThen]
    cases (s.course k).fault with
    | some f => exact hfirst
    | none =>
      exact List.forall_mem_append.2 ⟨hfirst, spares_courseAll name rest (s.course k).clock hs.2⟩

end

theorem registrations_undergo {name : String} {h : Happening} (hs : h.spares name = true)
    (c : Collector) :
    registrations name (c.undergo h).listeners = registrations name c.listeners := by
  cases h with
  | did a => rfl
  | added l => rw [undergo, addListener, registrations_add, if_neg (bne_iff_ne.1 hs)]
  | removed n => rw [undergo, removeListener, registrations_remove, if_neg (bne_iff_ne.1 hs)]

/-- A listener that hears events is called with their kinds and payloads, as often as it is
registered. -/
def callsOf (times : Nat) (es : List Event) : List (String × Value.Entries) :=
  es.flatMap fun e => List.replicate times (e.kind, e.payload)

theorem received_undergo (name : String) (c : Collector) (h : Happening) :
    received name (c.undergo h).outbox = received name c.outbox ++
      callsOf (registrations name c.listeners)
        (h.act?.map fun a => a.event c.current).toList := by
  cases h with
  | did a =>
    have hone : callsOf (registrations name c.listeners) [a.event c.current] = _ :=
      List.flatMap_singleton ..
    exact (received_perform c a name).trans (congrArg _ hone.symm)
  | added | removed => exact (List.append_nil _).symm

/-- A listener whose registrations do not change hears all events. -/
theorem received_undergoAll_spared {name : String} {hs : List Happening}
    (hspares : ∀ h ∈ hs, h.spares name = true) (c : Collector) :
    received name (c.undergoAll hs).outbox = received name c.outbox ++
      callsOf (registrations name c.listeners) (c.eventsOf hs) := by
  induction hs generalizing c with
  | nil => exact (List.append_nil _).symm
  | cons h rest ih =>
    obtain ⟨hfirst, hrest⟩ := List.forall_mem_cons.1 hspares
    show received name ((c.undergo h).undergoAll rest).outbox = _
    rw [ih hrest, received_undergo, registrations_undergo hfirst, eventsOf, callsOf, callsOf,
      callsOf, List.flatMap_append, List.append_assoc]

/-! ## The events of a run -/

/-- The events of a course are bracketed. -/
def Course.IsBracketed (k : Course) (c : Collector) (clock : Clock) (steps : List Step) : Prop :=
  Bracketed clock steps (c.eventsOf k.happenings) k.clock k.puts k.fault

/-- The events of a plain step that does not fail. -/
theorem Bracketed.one {k : Clock} {s : Step} {es : List Event} (hs : s.isPlain = true)
    (hfault : s.fault? = none) (hone : es.length ≤ 1) (hbegun : es.filterMap Event.begun? = [])
    (htimed : es.filterMap Event.timed? = s.timed?.toList) :
    Bracketed k [s] es (s.clockAfter k) s.put?.toList none := by
  have hplain : Bracketed k [s] (es ++ []) (s.clockAfter k) (s.put?.toList ++ []) none :=
    .plain hs hfault hone hbegun htimed .nil
  rwa [List.append_nil, List.append_nil] at hplain

mutual

/-- The events of a step are bracketed. -/
theorem bracketed_course (s : Step) (c : Collector) (k : Clock) :
    (s.course k).IsBracketed c k [s] := by
  cases s with
  | start | annotate =>
    rw [Step.course]
    exact .one rfl rfl (Nat.le_refl _) rfl rfl
  | timing name duration details =>
    rw [Step.course]
    cases hx : duration.toFloat with
    | error f => exact .failing rfl (by rw [Step.fault?, hx])
    | ok x =>
      cases hentries : details.toRecord with
      | error f => exact .failing rfl (by rw [Step.fault?, hx, hentries])
      | ok entries =>
        exact .one rfl (by rw [Step.fault?, hx, hentries]) (Nat.le_refl _) rfl
          (by rw [Step.timed?, hentries]; rfl)
  | increment name amount =>
    rw [Step.course]
    cases hx : amount.toFloat with
    | error f => exact .failing rfl (by rw [Step.fault?, hx])
    | ok x => exact .one rfl (by rw [Step.fault?, hx]) (Nat.le_refl _) rfl rfl
  | snapshot | latest | now | add | remove | put =>
    rw [Step.course]
    exact .one rfl rfl (Nat.zero_le _) rfl rfl
  | fail f =>
    rw [Step.course]
    exact .failing rfl rfl
  | attempt s =>
    have hstep : (s.course k).IsBracketed c k [s] := bracketed_course s c k
    have hattempt := Bracketed.attempt hstep .nil
    rw [Step.course]
    rwa [List.append_nil, List.append_nil] at hattempt
  | timer name details body =>
    rw [Step.course]
    cases hdetails : details.toRecord with
    | error f => exact .refused hdetails
    | ok entries =>
      let opened := c.perform (.opened name entries)
      have hbody : (Step.courseAll k.next body).IsBracketed opened k.next body :=
        bracketed_courseAll body opened k.next
      have hevents (t : Timing) : c.eventsOf (.did (.opened name entries) ::
          ((Step.courseAll k.next body).happenings ++ [.did (.timed t)])) =
          .timerStarted name entries :: (opened.eventsOf (Step.courseAll k.next body).happenings ++
            [.timed t.name t.duration t.details]) := by
        rw [eventsOf, eventsOf_append]
        rfl
      rw [Course.IsBracketed]
      dsimp only
      rw [hevents]
      rw [Course.IsBracketed] at hbody
      cases hfault : (Step.courseAll k.next body).fault with
      | none => exact .block hdetails (hfault ▸ hbody) .nil
      | some f => exact .broken hdetails (hfault ▸ hbody)

/-- The events of steps one after the other are bracketed. -/
theorem bracketed_courseAll (steps : List Step) (c : Collector) (k : Clock) :
    (Step.courseAll k steps).IsBracketed c k steps := by
  cases steps with
  | nil => exact .nil
  | cons s rest =>
    have hfirst : (s.course k).IsBracketed c k [s] := bracketed_course s c k
    rw [Course.IsBracketed] at hfirst
    rw [Step.courseAll, Course.andThen]
    cases hfault : (s.course k).fault with
    | some f =>
      rw [Course.IsBracketed, hfault]
      exact (hfault ▸ hfirst).append_of_fault rest
    | none =>
      have hothers : (Step.courseAll (s.course k).clock rest).IsBracketed
          (c.undergoAll (s.course k).happenings) (s.course k).clock rest :=
        bracketed_courseAll rest _ _
      rw [Course.IsBracketed]
      dsimp only
      rw [eventsOf_append]
      exact (hfault ▸ hfirst).append hothers

end

/-! ## Orders -/

/-- What of steps does not depend on the clock: the timed blocks that begin, in the order of their
starts, the timings in the order in which they are recorded, what is written into the details around
the steps, and the fault that ends them. -/
structure Outline where
  begun : List (String × Value.Entries) := []
  ended : List (String × Value.Entries) := []
  puts : List Value.Entries := []
  fault : Option Fault := none

/-- An outline with another one behind it, unless it ends with a fault. -/
def Outline.andThen (o others : Outline) : Outline :=
  match o.fault with
  | some _ => o
  | none =>
    { others with
      begun := o.begun ++ others.begun
      ended := o.ended ++ others.ended
      puts := o.puts ++ others.puts }

namespace Step

mutual

/-- The outline of a step.  A timed block begins before those within it, and its timing comes after
theirs. -/
def outline : Step → Outline
  | .attempt s => { outline s with fault := none }
  | .timer name details body =>
    match details.toRecord with
    | .error f => { fault := some f }
    | .ok entries =>
      let inner := outlineAll body
      { begun := (name, entries) :: inner.begun
        ended := inner.ended ++ [(name, inner.puts.foldl Value.merge entries)]
        fault := inner.fault }
  | s =>
    match s.fault? with
    | some f => { fault := some f }
    | none => { ended := s.timed?.toList, puts := s.put?.toList }

/-- The outline of steps one after the other. -/
def outlineAll : List Step → Outline
  | [] => {}
  | s :: rest => (outline s).andThen (outlineAll rest)

end

theorem outlineAll_singleton (s : Step) : outlineAll [s] = s.outline := by
  rw [outlineAll, Outline.andThen]
  cases h : s.outline with
  | mk begun ended puts fault => cases fault <;> simp [outlineAll]

theorem outline_plain {s : Step} (hs : s.isPlain = true) :
    s.outline =
      match s.fault? with
      | some f => { fault := some f }
      | none => { ended := s.timed?.toList, puts := s.put?.toList } := by
  cases s with
  | attempt | timer => cases hs
  | start | timing | increment | annotate | snapshot | latest | now | add | remove | put | fail =>
    rw [outline] <;> simp

end Step

/-- Events follow an outline: blocks begin and timings are recorded in its order, and it says what
is written and which fault ends the steps. -/
structure Outline.Orders (o : Outline) (es : List Event) (puts : List Value.Entries)
    (fault : Option Fault) : Prop where
  begun_eq : es.filterMap Event.begun? = o.begun
  ended_eq : es.filterMap Event.timed? = o.ended
  puts_eq : puts = o.puts
  fault_eq : fault = o.fault

/-- Bracketed events follow the outline of their steps. -/
theorem Bracketed.orders {k k' : Clock} {steps : List Step} {es : List Event}
    {puts : List Value.Entries} {fault : Option Fault} (h : Bracketed k steps es k' puts fault) :
    (Step.outlineAll steps).Orders es puts fault := by
  induction h with
  | nil => exact ⟨rfl, rfl, rfl, rfl⟩
  | @plain k k' s rest es more puts fault hs hfault hone hbegun htimed hrest ih =>
    obtain ⟨hbegun', hended', hputs, hfault'⟩ := ih
    rw [Step.outlineAll, Step.outline_plain hs, hfault]
    refine ⟨?_, ?_, ?_, hfault'⟩
    · rw [List.filterMap_append, hbegun, hbegun']
      rfl
    · rw [List.filterMap_append, htimed, hended']
      rfl
    · rw [hputs]
      rfl
  | @failing k s rest f hs hfault =>
    rw [Step.outlineAll, Step.outline_plain hs, hfault]
    exact ⟨rfl, rfl, rfl, rfl⟩
  | @attempt k k₁ k' s rest es more puts puts' fault fault' hstep hrest ihstep ihrest =>
    rw [Step.outlineAll_singleton] at ihstep
    obtain ⟨hbegun, hended, hputs, -⟩ := ihstep
    obtain ⟨hbegun', hended', hputs', hfault'⟩ := ihrest
    rw [Step.outlineAll, Step.outline]
    refine ⟨?_, ?_, ?_, hfault'⟩
    · rw [List.filterMap_append, hbegun, hbegun']
      rfl
    · rw [List.filterMap_append, hended, hended']
      rfl
    · rw [hputs, hputs']
      rfl
  | refused hdetails =>
    rw [Step.outlineAll, Step.outline, hdetails]
    exact ⟨rfl, rfl, rfl, rfl⟩
  | block hdetails hbody hrest ihbody ihrest =>
    obtain ⟨hbegun, hended, hputs, hfault⟩ := ihbody
    obtain ⟨hbegun', hended', hputs', hfault'⟩ := ihrest
    rw [Step.outlineAll, Step.outline, hdetails]
    dsimp only
    rw [← hfault, ← hputs, ← hbegun, ← hended, Outline.andThen]
    refine ⟨?_, ?_, hputs', hfault'⟩
    · simp [List.filterMap_cons, Event.begun?, Event.ofBlock, hbegun']
    · simp [List.filterMap_cons, Event.timed?, Event.ofBlock, hended']
  | broken hdetails hbody ihbody =>
    obtain ⟨hbegun, hended, hputs, hfault⟩ := ihbody
    rw [Step.outlineAll, Step.outline, hdetails]
    dsimp only
    rw [← hfault, ← hputs, ← hbegun, ← hended, Outline.andThen]
    refine ⟨?_, ?_, rfl, rfl⟩
    · simp [List.filterMap_cons, Event.begun?, Event.ofBlock]
    · simp [List.filterMap_cons, Event.timed?, Event.ofBlock]

/-! ## The trace that holds a timing -/

theorem undergoAll_capacity (hs : List Happening) (c : Collector) :
    (c.undergoAll hs).capacity = c.capacity := by
  induction hs generalizing c with
  | nil => rfl
  | cons h rest ih =>
    have hfirst : (c.undergo h).capacity = c.capacity := by
      cases h <;> rfl
    exact (ih (c.undergo h)).trans hfirst

theorem undergo_trace (h : Happening) (c : Collector) :
    let start := h.act?.bind Act.startName?
    (c.undergo h).current.id = c.current.id + start.toList.length ∧
      (c.undergo h).current.name = start.or c.current.name := by
  cases h with
  | did a => cases a <;> exact ⟨rfl, rfl⟩
  | added | removed => exact ⟨rfl, rfl⟩

/-- The number and the name of the current trace after happenings. -/
theorem undergoAll_trace (hs : List Happening) (c : Collector) :
    let starts := (hs.filterMap Happening.act?).filterMap Act.startName?
    (c.undergoAll hs).current.id = c.current.id + starts.length ∧
      (c.undergoAll hs).current.name = starts.getLast?.or c.current.name := by
  simp only [List.filterMap_filterMap]
  induction hs generalizing c with
  | nil => exact ⟨rfl, rfl⟩
  | cons h rest ih =>
    obtain ⟨hid, hname⟩ := undergo_trace h c
    obtain ⟨hids, hnames⟩ := ih (c.undergo h)
    have hstarts : (h :: rest).filterMap (fun h => h.act?.bind Act.startName?) =
        (h.act?.bind Act.startName?).toList ++
          rest.filterMap fun h => h.act?.bind Act.startName? := by
      cases hstart : h.act?.bind Act.startName? <;> simp [hstart]
    rw [hstarts]
    constructor
    · show ((c.undergo h).undergoAll rest).current.id = _
      rw [hids, hid, List.length_append, Nat.add_assoc]
    · show ((c.undergo h).undergoAll rest).current.name = _
      rw [hnames, hname, List.getLast?_append, Option.or_assoc]
      cases h.act?.bind Act.startName? <;> rfl

namespace Course.Covers

variable {k : Course} {c : Collector} {ran : Ran}

theorem capacity_eq (h : k.Covers c ran) : ran.collector.capacity = c.capacity := by
  rw [h.collector_eq]
  exact undergoAll_capacity k.happenings c

/-- The number and the name of the current trace after a run. -/
theorem trace_eq (h : k.Covers c ran) :
    let starts := k.acts.filterMap Act.startName?
    ran.collector.current.id = c.current.id + starts.length ∧
      ran.collector.current.name = starts.getLast?.or c.current.name := by
  rw [h.collector_eq]
  exact undergoAll_trace k.happenings c

end Course.Covers

/-! ## The main statement -/

/-- **Timed blocks are well bracketed on every exit.**  The events of a run from any state, which a
listener that stays hears in order, are bracketed by its timed blocks, and so are the readings of
the clock; the blocks publish their starts in the order in which they begin, each one once, and
their timings, each one once, in the order in which they end.  A timed block records its timing in
the trace that is current after its steps, which is the one that they started last if they started
any; then it passes the fault of its steps on, or answers with their answers. -/
theorem timers_are_well_bracketed {c : Collector} (hclock : c.clock.Reliable)
    (steps : List Step) :
    let ran := c.runAll steps
    (∃ es puts, Bracketed c.clock steps es ran.collector.clock puts ran.fault ∧
      (∀ listener, Step.sparesAll listener steps = true →
        received listener ran.collector.outbox = received listener c.outbox ++
          callsOf (registrations listener c.listeners) es) ∧
      (Step.outlineAll steps).Orders es puts ran.fault) ∧
    ∀ name details body entries, Value.toRecord details = .ok entries →
      let inner := (c.openTimer name entries).1.runAll body
      let after := c.run (.timer name details body)
      let starts := (Step.courseAll c.clock.next body).acts.filterMap Act.startName?
      let x := inner.collector.clock.reading - c.clock.reading
      let closing : Timing := ⟨name, if 0 < x then x else 0, Reply.yielded entries inner.replies⟩
      inner.collector.current.id = c.current.id + starts.length ∧
      inner.collector.current.name = starts.getLast?.or c.current.name ∧
      after.1.current = inner.collector.current.after c.capacity (.timed closing) ∧
      after.1.published = some after.1.current ∧
      after.2 =
        match inner.fault with
        | some f => .error f
        | none => .ok (.block inner.replies) := by
  intro ran
  have hcovers := covers_runAll steps hclock
  constructor
  · have hbracketed : Bracketed c.clock steps _ _ _ _ := bracketed_courseAll steps c c.clock
    rw [← hcovers.clock_eq, ← hcovers.fault_eq] at hbracketed
    refine ⟨_, _, hbracketed, fun listener hspares => ?_, hbracketed.orders⟩
    show received listener (c.runAll steps).collector.outbox = _
    rw [hcovers.collector_eq]
    exact received_undergoAll_spared (spares_courseAll listener steps c.clock hspares) c
  · intro name details body entries hdetails inner after starts x closing
    have hopen := openTimer_clock hclock name entries
    have hbody : (Step.courseAll c.clock.next body).Covers (c.openTimer name entries).1 inner :=
      hopen ▸ covers_runAll body (hopen ▸ hclock.next)
    have hafter : after = _ :=
      run_timer body hclock hdetails (hbody.clock_eq ▸ hbody.reliable)
    have hopened := openTimer_collector hclock name entries
    have hcapacity : inner.collector.capacity = c.capacity := by
      rw [hbody.capacity_eq, hopened]
      rfl
    have htrace := hbody.trace_eq
    rw [hopened] at htrace
    refine ⟨htrace.1, htrace.2, ?_, ?_, ?_⟩
    · rw [hafter, ← hcapacity]
      rfl
    · rw [hafter]
      rfl
    · exact congrArg Prod.snd hafter

/-- A block that fails within another one ends before it, and both fail with its fault, behind which
no step is run; a trace that was started between them holds the timing of the outer one. -/
theorem failing_blocks_end_from_within :
    let c : Collector := { listeners := [.watching "seen"], clock := .steady (.real 0) (.real 1) }
    let within : Step :=
      .timer "inner" .null [.put [(.text "deep", .null)], .annotate "key" .null,
        .fail (.failure "boom"), .annotate "lost" .null]
    let body := [.start "ratio", .put [(.text "ok", .bool false)], within, .start "lost"]
    let details : Value := .record [(.text "ok", .null), (.text "word", .text "ratio")]
    let closing : Value.Entries := [(.text "ok", .bool false), (.text "word", .text "ratio")]
    let block : Step := .timer "outer" details body
    c.clock.Reliable ∧ Step.sparesAll "seen" [block] = true ∧
    (∃ es : List Event, received "seen" (c.runAll [block]).collector.outbox =
        es.map (fun e => (e.kind, e.payload)) ∧
      es.filterMap Event.begun? =
        [("outer", [(.text "ok", .null), (.text "word", .text "ratio")]), ("inner", [])] ∧
      es.filterMap Event.timed? = [("inner", [(.text "deep", .null)]), ("outer", closing)]) ∧
    (c.run block).1.current.name = some "ratio" ∧
    (c.run block).1.current.timings.getLast?.map (fun t => (t.name, t.details)) =
      some ("outer", closing) ∧
    (c.run block).2 = .error (.failure "boom") := by
  intro c within body details closing block
  have hclock : c.clock.Reliable := Clock.reliable_steady_real 0 1
  obtain ⟨⟨es, puts, -, hreceived, horders⟩, htimer⟩ := timers_are_well_bracketed hclock [block]
  obtain ⟨-, hname, hcurrent, -, hanswer⟩ := htimer "outer" details body _ rfl
  refine ⟨hclock, rfl, ⟨es, ?_, horders.begun_eq, horders.ended_eq⟩, ?_, ?_, ?_⟩
  · rw [hreceived "seen" rfl]
    exact List.map_eq_flatMap.symm
  · rw [hcurrent]
    exact hname
  · have hyielded : Reply.yielded [(.text "ok", .null), (.text "word", .text "ratio")]
        (((c.openTimer "outer" [(.text "ok", .null), (.text "word", .text "ratio")]).1.runAll
          body).replies) = closing := rfl
    have hcapacity : c.capacity = 128 := rfl
    rw [hcurrent, hyielded, hcapacity]
    simp only [Snapshot.after, List.getLast?_drop, List.getLast?_concat, List.length_append,
      List.length_singleton]
    rw [if_neg (by omega)]
    rfl
  · exact hanswer

end Concordance.Trace
