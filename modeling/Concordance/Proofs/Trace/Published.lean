import Concordance.Proofs.Trace.InStep
import Concordance.Proofs.Trace.Moment

/-!
# The published copy of a trace

A collector publishes its trace with everything that it records, and with nothing else.

* `Collector.IsCurrent` — whoever looks at the published copy sees the trace.
* `Step.IsMeasurement`, `run_of_fault` — a number that cannot be recorded changes nothing.
* `startCount`, `sameResult_start` — a new trace has nothing of the one before it but its number.
* `published_copy_is_current` — the copy is current at every moment behind the first act; what
  cannot be recorded changes nothing; and a trace is the same whatever came before it.
-/

namespace Concordance.Trace

open Collector

/-! ## The copy and the trace -/

/-- Whoever looks at the published copy sees the trace. -/
def Collector.IsCurrent (c : Collector) : Prop :=
  ∃ t, (c.run .snapshot).2 = .ok (.trace t) ∧ (c.run .latest).2 = .ok (.published (some t))

/-- A collector to which something happened shows its trace. -/
theorem Collector.Keeps.isCurrent {c : Collector} {capacity : Nat} {acts : List Act}
    (h : c.Keeps capacity acts) (hacts : acts ≠ []) : c.IsCurrent := by
  refine ⟨c.current, by rw [run], ?_⟩
  rw [run, h.published_eq, if_neg hacts, h.current_eq]

/-! ## What fails -/

/-- The step records a number. -/
def Step.IsMeasurement : Step → Prop
  | .timing .. | .increment .. => True
  | _ => False

theorem run_increment_fault_iff (c : Collector) (name : String) (amount : Value) (f : Fault) :
    (c.run (.increment name amount)).2 = .error f ↔ amount.toFloat = .error f := by
  rw [run, incrementStep]
  cases amount.toFloat <;> simp

theorem run_timing_fault_iff (c : Collector) (name : String) (duration details : Value)
    (f : Fault) :
    (c.run (.timing name duration details)).2 = .error f ↔
      duration.toFloat = .error f ∨
        (∃ x, duration.toFloat = .ok x) ∧ details.toRecord = .error f := by
  rw [run, timingStep]
  cases duration.toFloat with
  | error g => simp
  | ok x => cases details.toRecord <;> simp

/-- A number that cannot be recorded leaves the collector as it was. -/
theorem run_of_fault {c : Collector} {s : Step} {f : Fault} (hs : s.IsMeasurement)
    (h : (c.run s).2 = .error f) : (c.run s).1 = c := by
  cases s with
  | timing name duration details =>
    rw [run_timing_fault_iff] at h
    rw [run, timingStep]
    obtain h | ⟨⟨x, hx⟩, h⟩ := h
    · rw [h]
    · rw [hx, h]
  | increment name amount =>
    rw [run_increment_fault_iff] at h
    rw [run, incrementStep, h]
  | start | annotate | snapshot | latest | now | add | remove | put | fail | attempt | timer =>
    cases hs

/-! ## A new trace -/

/-- The number of traces that steps start. -/
def startCount (clock : Clock) (steps : List Step) : Nat :=
  ((Step.courseAll clock steps).acts.filterMap Act.startName?).length

/-- Nothing of an old trace but its number is in the new one. -/
theorem sameResult_start {c c' : Collector} (hid : c.current.id = c'.current.id)
    (hcapacity : c.capacity = c'.capacity) (hclocks : c.clock.Agrees c'.clock)
    (hclock : c.clock.Reliable) (name : String) :
    SameResult (fun _ => False) (c.run (.start name)) (c'.run (.start name)) := by
  obtain ⟨reading, k, k', hk, hk', hagrees⟩ := hclocks.read
  rw [hclock.read_eq] at hk
  obtain ⟨rfl, rfl⟩ := Prod.mk.inj hk
  rw [run, run]
  unfold Collector.start now
  rw [hclock.read_eq, hk', hid]
  refine ⟨⟨rfl, rfl, hcapacity, hagrees, ?_, ?_⟩, rfl⟩
  · exact fun _ h => h.elim
  · exact fun _ h => h.elim

/-- **The published copy is current, failures change nothing, and traces do not leak.**  At every
moment of a run behind the first act, the published copy is the trace.  A number that cannot be
recorded fails for its own reason and changes nothing, for nobody.  And what runs recorded makes no
difference to a trace that is started after them, if as many were started before it. -/
theorem published_copy_is_current (capacity : Nat) (listeners : List Listener) {clock : Clock}
    (hclock : clock.Reliable) (steps : List Step) :
    let new : Collector := { capacity, listeners, clock }
    (∀ (acts : List Act) (c : Collector), Moment new steps acts c → acts ≠ [] → c.IsCurrent) ∧
    ((∀ (c : Collector) (name : String) (amount : Value) (f : Fault),
        (c.run (.increment name amount)).2 = .error f ↔ amount.toFloat = .error f) ∧
      (∀ (c : Collector) (name : String) (duration details : Value) (f : Fault),
        (c.run (.timing name duration details)).2 = .error f ↔
          duration.toFloat = .error f ∨
            (∃ x, duration.toFloat = .ok x) ∧ details.toRecord = .error f) ∧
      (∀ (c : Collector) (s : Step) (f : Fault),
        s.IsMeasurement → (c.run s).2 = .error f → (c.run s).1 = c)) ∧
    (∀ (listeners' : List Listener) (clock' : Clock) (steps' : List Step) (name : String)
      (rest : List Step),
      let c := (new.runAll steps).collector
      let c' := (({ capacity, listeners := listeners', clock := clock' } : Collector).runAll
        steps').collector
      let done := c.runAll (.start name :: rest)
      let done' := c'.runAll (.start name :: rest)
      clock'.Reliable → startCount clock steps = startCount clock' steps' →
        c.clock.Agrees c'.clock →
        done.replies = done'.replies ∧ done.fault = done'.fault ∧
          (done.collector.run .snapshot).2 = (done'.collector.run .snapshot).2 ∧
          (done.collector.run .latest).2 = (done'.collector.run .latest).2) := by
  intro new
  have hnew : new.Keeps capacity [] := keeps_new capacity listeners clock
  refine ⟨fun acts c hmoment hacts => (hmoment.keeps hclock hnew).isCurrent hacts,
    ⟨run_increment_fault_iff, run_timing_fault_iff, fun c s f hs h => run_of_fault hs h⟩, ?_⟩
  intro listeners' clock' steps' name rest c c' done done' hclock' hcount hclocks
  have hcourse := covers_runAll steps (c := new) hclock
  have hkeeps : c.Keeps capacity _ := hcourse.keeps hnew
  have hkeeps' : c'.Keeps capacity _ :=
    (covers_runAll steps' hclock').keeps (keeps_new capacity listeners' clock')
  -- The number of the trace is all that a start takes over, so it must agree before.
  have hid : c.current.id = c'.current.id := by
    rw [hkeeps.current_eq, hkeeps'.current_eq]
    exact hcount
  have hstart := sameResult_start hid (hkeeps.capacity_eq.trans hkeeps'.capacity_eq.symm) hclocks
    (hcourse.clock_eq ▸ hcourse.reliable) name
  obtain ⟨hend, hreplies, hfault⟩ : SameRan (fun _ => False) done done' :=
    .of_first hstart fun hd => inStep_runAll rest (Step.sameBut_refl _ rest) hd
  refine ⟨hreplies, hfault, ?_, ?_⟩
  · rw [run, run, hend.current_eq]
  · rw [run, run, hend.published_eq]

/-- A trace that is started is current, and has nothing of a note that was put into the trace before
it; what is no number is not added to a counter. -/
theorem second_trace_has_no_old_note :
    let clock : Clock := .steady (.real 0) (.real 1)
    let new : Collector := { capacity := 1, clock }
    let after (before : List Step) := (new.runAll before).collector
    let noted : List Step := [.start "ratio", .annotate "lost" .null]
    let rest : List Step := [.increment "hits" (.bool true)]
    clock.Reliable ∧ (after noted).IsCurrent ∧
    (new.run (.increment "hits" .null)).2 = .error (.noNumberIn "NoneType") ∧
    (new.run (.increment "hits" .null)).1 = new ∧
    startCount clock noted = 1 ∧ (after noted).clock.Agrees (after [.start "fides"]).clock ∧
    (((after noted).runAll (.start "lex" :: rest)).collector.run .latest).2 =
      (((after [.start "fides"]).runAll (.start "lex" :: rest)).collector.run .latest).2 := by
  intro clock new after noted rest
  have hclock : clock.Reliable := Clock.reliable_steady_real 0 1
  obtain ⟨hcurrent, ⟨hfault, -, hsame⟩, hapart⟩ := published_copy_is_current 1 [] hclock noted
  have hmoment : Moment new noted (Step.courseAll clock noted).acts (after noted) :=
    moment_runAll noted hclock
  have hnull := (hfault new "hits" .null (.noNumberIn "NoneType")).2 rfl
  have hagrees : (after noted).clock.Agrees (after [.start "fides"]).clock := .refl _
  refine ⟨hclock, ?_, hnull, hsame new _ _ trivial hnull, rfl, hagrees, ?_⟩
  · exact hcurrent _ _ hmoment (List.cons_ne_nil _ _)
  · exact (hapart [] clock [.start "fides"] "lex" rest hclock rfl hagrees).2.2.2

end Concordance.Trace
