import Concordance.Proofs.Trace.Happening
import Concordance.Proofs.Trace.InStep

/-!
# What listeners are told

A listener is told about the events that are published while it is registered, and about nothing
else; the other listeners make no difference to that, and no listener makes a difference to a trace.

* `served` — the events for one listener among what happens, said without the other listeners.
* `received_undergoAll` — they are what it is called with.
* `listeners_are_served_apart` — so it is in every run.
-/

namespace Concordance.Trace

open Collector

/-- The kinds and payloads for one listener among what happens after some acts: those of each event
that is published, as many times as the listener is registered then. -/
def served (capacity : Nat) (name : String) :
    Nat → List Act → List Happening → List (String × Value.Entries)
  | _, _, [] => []
  | times, acts, .did a :: rest =>
    let e := a.event (.ofHistory capacity acts)
    List.replicate times (e.kind, e.payload) ++ served capacity name times (acts ++ [a]) rest
  | times, acts, .added l :: rest =>
    served capacity name (if l.name = name then times + 1 else times) acts rest
  | times, acts, .removed n :: rest =>
    served capacity name (if n = name then 0 else times) acts rest

/-- What happens calls a listener with the events for it. -/
theorem received_undergoAll (name : String) (hs : List Happening) {capacity : Nat} {acts : List Act}
    {c : Collector} (h : c.Keeps capacity acts) :
    received name (c.undergoAll hs).outbox = received name c.outbox ++
      served capacity name (registrations name c.listeners) acts hs := by
  induction hs generalizing c acts with
  | nil => exact (List.append_nil _).symm
  | cons happening rest ih =>
    cases happening with
    | did a =>
      have hrest := ih (h.perform a)
      rw [perform_listeners, received_perform, h.current_eq, List.append_assoc] at hrest
      exact hrest
    | added l =>
      have hadded : (c.addListener l).Keeps capacity acts :=
        ⟨h.capacity_eq, h.current_eq, h.published_eq⟩
      have hrest := ih hadded
      rw [addListener, registrations_add] at hrest
      exact hrest
    | removed n =>
      have hremoved : (c.removeListener n).Keeps capacity acts :=
        ⟨h.capacity_eq, h.current_eq, h.published_eq⟩
      have hrest := ih hremoved
      rw [removeListener, registrations_remove] at hrest
      exact hrest

section NewCollectors

variable {capacity : Nat} {listeners listeners' : List Listener} {clock : Clock}

theorem received_runAll (name : String) (steps : List Step) (hclock : clock.Reliable) :
    received name (({ capacity, listeners, clock } : Collector).runAll steps).collector.outbox =
      served capacity name (registrations name listeners) []
        (Step.courseAll clock steps).happenings := by
  let new : Collector := { capacity, listeners, clock }
  rw [(covers_runAll steps (c := new) hclock).collector_eq]
  exact received_undergoAll name _ (keeps_new capacity listeners clock)

/-- New collectors are in step if the given listeners are registered alike. -/
theorem inStep_new {P : String → Prop}
    (hls : ∀ name, P name → registrations name listeners = registrations name listeners') :
    ({ capacity, listeners, clock } : Collector).InStep P
      { capacity, listeners := listeners', clock } :=
  ⟨rfl, rfl, rfl, Clock.Agrees.refl clock, hls, fun _ _ => rfl⟩

end NewCollectors

/-- **Every listener is served apart from the others.**  In every run of a new collector a listener
is called with the kind and the payload of each event that is published while it is registered, in
order and once for each of its registrations; a listener that is removed has none left.  It is
called with the same in runs that do the same with other listeners, and such runs give the same
answers, end with the same fault and have the same traces, whoever listens: listeners may fail,
change the payloads that they are given, and do all that in the light of what came before. -/
theorem listeners_are_served_apart (capacity : Nat) (listeners : List Listener) (clock : Clock)
    (steps : List Step) :
    let ends (listeners : List Listener) (steps : List Step) :=
      ({ capacity, listeners, clock } : Collector).runAll steps
    (clock.Reliable → ∀ name, received name (ends listeners steps).collector.outbox =
      served capacity name (registrations name listeners) []
        (Step.courseAll clock steps).happenings) ∧
    (∀ name listeners' steps', registrations name listeners = registrations name listeners' →
      List.Forall₂ (Step.SameBut fun n => n = name) steps steps' →
        received name (ends listeners' steps').collector.outbox =
          received name (ends listeners steps).collector.outbox) ∧
    ∀ listeners' steps', List.Forall₂ (Step.SameBut fun _ => False) steps steps' →
      let one := ends listeners steps
      let other := ends listeners' steps'
      other.replies = one.replies ∧ other.fault = one.fault ∧
      (other.collector.run .snapshot).2 = (one.collector.run .snapshot).2 ∧
      (other.collector.run .latest).2 = (one.collector.run .latest).2 := by
  intro ends
  refine ⟨fun hclock name => received_runAll name steps hclock, ?_, ?_⟩
  · intro name listeners' steps' hsame hsteps
    have hnew : ({ capacity, listeners, clock } : Collector).InStep (fun n => n = name)
        { capacity, listeners := listeners', clock } :=
      inStep_new fun n hn => hn ▸ hsame
    have hend := (inStep_runAll steps hsteps hnew).inStep
    exact (hend.received_eq name rfl).symm
  · intro listeners' steps' hsteps one other
    have hnew : ({ capacity, listeners, clock } : Collector).InStep (fun _ => False)
        { capacity, listeners := listeners', clock } :=
      inStep_new fun _ hn => hn.elim
    have hend := inStep_runAll steps hsteps hnew
    have hsnapshot := inStep_run .snapshot (.refl _) hend.inStep
    have hlatest := inStep_run .latest (.refl _) hend.inStep
    exact ⟨hend.replies_eq.symm, hend.fault_eq.symm, hsnapshot.result_eq.symm,
      hlatest.result_eq.symm⟩

/-- A listener that is registered twice and removed within a timed block is called twice with what
is published before that, beside a listener that empties what it gets and beside one that fails. -/
theorem removed_listener_is_told_no_more :
    let keeper : Listener := .watching "keeper"
    let greedy : Listener := .emptying "greedy"
    let broken : Listener := .failing "broken" (.failure "boom")
    let listeners := [greedy, keeper, keeper]
    let listeners' := [keeper, broken, keeper]
    let clock : Clock := .steady (.real 0) (.real 1)
    let block (change : Step) : Step :=
      .timer "block" .null [change, .annotate "seen" .null, .remove "keeper",
        .annotate "lost" .null, .fail (.failure "boom")]
    let steps := [.start "trace", block (.add broken)]
    let steps' := [.start "trace", block (.remove "greedy")]
    let ends (listeners : List Listener) (steps : List Step) :=
      ({ listeners, clock } : Collector).runAll steps
    clock.Reliable ∧ registrations "keeper" listeners = registrations "keeper" listeners' ∧
    List.Forall₂ (Step.SameBut fun n => n = "keeper") steps steps' ∧
    List.Forall₂ (Step.SameBut fun _ => False) steps steps' ∧
    (received "keeper" (ends listeners steps).collector.outbox).map Prod.fst =
      ["trace_started", "trace_started", "timer_started", "timer_started", "metadata",
        "metadata"] ∧
    received "keeper" (ends listeners' steps').collector.outbox =
      received "keeper" (ends listeners steps).collector.outbox ∧
    (ends listeners' steps').fault = (ends listeners steps).fault := by
  intro keeper greedy broken listeners listeners' clock block steps steps' ends
  have hclock : clock.Reliable := Clock.reliable_steady_real 0 1
  have hcount : registrations "keeper" listeners = registrations "keeper" listeners' := rfl
  have hsteps : ∀ P : String → Prop, ¬ P "broken" → ¬ P "greedy" →
      List.Forall₂ (Step.SameBut P) steps steps' := by
    intro P hbroken hgreedy
    have hblock : (block (.add broken)).SameBut P (block (.remove "greedy")) :=
      .timer (.cons (.changes hbroken hgreedy) (Step.sameBut_refl P _))
    exact .cons (.refl _) (.cons hblock .nil)
  have hkeeper := hsteps (fun n => n = "keeper") (by decide) (by decide)
  have hnone := hsteps (fun _ => False) id id
  obtain ⟨hserved, hothers, hanswers⟩ := listeners_are_served_apart 128 listeners clock steps
  refine ⟨hclock, hcount, hkeeper, hnone, ?_, hothers "keeper" listeners' steps' hcount hkeeper,
    (hanswers listeners' steps' hnone).2.1⟩
  rw [hserved hclock "keeper"]
  rfl

end Concordance.Trace
