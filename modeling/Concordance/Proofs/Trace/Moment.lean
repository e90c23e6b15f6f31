import Concordance.Proofs.Trace.Happening

/-!
# The moments of a run

A collector that runs steps holds the trace of what they did, at the end and at every moment on the
way, also within timed blocks and attempts, and behind a step that failed.

* `Moment` — a collector that comes up while steps run, with the acts before it.
* `moment_runAll` — the end of a run is one of its moments.
* `Moment.keeps` — at every moment the collector holds the trace of the acts before it.
-/

namespace Concordance.Trace

open Collector

/-- A collector that comes up while steps run, with the acts before it: at the start, after some of
the steps, behind the one that failed, and within an attempt or a timed block. -/
inductive Moment : Collector → List Step → List Act → Collector → Prop
  | start (c : Collector) (steps : List Step) : Moment c steps [] c
  | after {c c₁ c' : Collector} {s : Step} {rest : List Step} {reply : Reply} {acts : List Act}
    (hrun : c.run s = (c₁, .ok reply)) (h : Moment c₁ rest acts c') :
    Moment c (s :: rest) ((s.course c.clock).acts ++ acts) c'
  | failed {c c₁ : Collector} {s : Step} {rest : List Step} {f : Fault}
    (hrun : c.run s = (c₁, .error f)) : Moment c (s :: rest) (s.course c.clock).acts c₁
  | attempted {c c' : Collector} {s : Step} {rest : List Step} {acts : List Act}
    (h : Moment c [s] acts c') : Moment c (.attempt s :: rest) acts c'
  | within {c opened c' : Collector} {name : String} {details : Value} {entries : Value.Entries}
    {body rest : List Step} {began : Float} {acts : List Act}
    (hdetails : details.toRecord = .ok entries)
    (hopen : c.openTimer name entries = (opened, .ok began)) (h : Moment opened body acts c') :
    Moment c (.timer name details body :: rest) (.opened name entries :: acts) c'

/-- The collector behind a step. -/
theorem run_fst_eq {c : Collector} (h : c.clock.Reliable) (s : Step) :
    (c.run s).1 = c.follow (s.course c.clock) := by
  have hcollector := (covers_run s h).collector_eq
  cases hrun : c.run s with
  | mk c' result =>
    rw [hrun] at hcollector
    cases result <;> exact hcollector

theorem reliable_run {c : Collector} (h : c.clock.Reliable) (s : Step) :
    (c.run s).1.clock.Reliable := by
  rw [run_fst_eq h]
  exact (covers_run s h).reliable

/-- The end of a run is one of its moments. -/
theorem moment_runAll (steps : List Step) {c : Collector} (h : c.clock.Reliable) :
    Moment c steps (Step.courseAll c.clock steps).acts (c.runAll steps).collector := by
  induction steps generalizing c with
  | nil =>
    rw [Step.courseAll, runAll]
    exact .start c []
  | cons s rest ih =>
    have hfault := (covers_run s h).fault_eq
    have hclock : (c.run s).1.clock = (s.course c.clock).clock :=
      congrArg Collector.clock (run_fst_eq h s)
    have hrest := ih (reliable_run h s)
    rw [hclock] at hrest
    rw [Step.courseAll, Course.andThen, ← hfault]
    cases hrun : c.run s with
    | mk c₁ result =>
      rw [hrun] at hrest
      cases result with
      | error f =>
        rw [runAll_of_error hrun]
        exact .failed hrun
      | ok reply =>
        rw [runAll_of_ok hrun]
        have hafter := Moment.after hrun hrest
        rwa [Course.acts, Course.acts, ← List.filterMap_append] at hafter

/-- At every moment of a run the collector holds the trace of the acts before it. -/
theorem Moment.keeps {capacity : Nat} {c c' : Collector} {steps : List Step} {acts : List Act}
    (h : Moment c steps acts c') {before : List Act} (hclock : c.clock.Reliable)
    (hc : c.Keeps capacity before) : c'.Keeps capacity (before ++ acts) := by
  induction h generalizing before with
  | start c steps => rwa [List.append_nil]
  | @after c c₁ _ s _ _ _ hrun h ih =>
    have hfirst : c₁ = c.follow (s.course c.clock) := by
      rw [← run_fst_eq hclock, hrun]
    have hreliable := reliable_run hclock s
    rw [hrun] at hreliable
    rw [← List.append_assoc]
    exact ih hreliable (hfirst ▸ hc.follow _)
  | @failed c c₁ s _ _ hrun =>
    have hfirst : c₁ = c.follow (s.course c.clock) := by
      rw [← run_fst_eq hclock, hrun]
    exact hfirst ▸ hc.follow _
  | attempted h ih => exact ih hclock hc
  | @within c opened _ name _ entries _ _ _ _ _ hopen h ih =>
    have hopened : opened = (c.perform (.opened name entries)).atClock c.clock.next := by
      rw [openTimer_eq hclock] at hopen
      exact (Prod.mk.inj hopen).1.symm
    rw [List.append_cons]
    refine ih ?_ ?_ <;> rw [hopened]
    · exact hclock.next
    · exact (hc.perform _).atClock _

end Concordance.Trace
