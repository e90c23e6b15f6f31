import Concordance.Proofs.Trace.Listening
import Concordance.Proofs.Trace.Reading
import Concordance.Trace.Step
import Mathlib.Data.List.Forall2

/-!
# Runs that differ in their listeners

Two collectors that hold the same trace and read the same times stay in step when they do the same,
whoever listens to them.

* `Step.SameBut` — steps that do the same, except that they may add and remove other listeners.
* `Collector.InStep` — two collectors that differ at most in their other listeners.
* `inStep_run`, `inStep_runAll` — they stay so, and give the same answers.
-/

namespace Concordance.Trace

open Collector

/-! ## Steps -/

/-- The step adds or removes a listener other than the given ones. -/
def Step.ChangesOther (P : String → Prop) : Step → Prop
  | .add l => ¬ P l.name
  | .remove name => ¬ P name
  | _ => False

/-- Steps that do the same, except that they may add and remove listeners other than the given
ones, also within timed blocks and attempts. -/
inductive Step.SameBut (P : String → Prop) : Step → Step → Prop
  | refl (s : Step) : SameBut P s s
  | changes {s s' : Step} (h : s.ChangesOther P) (h' : s'.ChangesOther P) : SameBut P s s'
  | attempt {s s' : Step} (h : SameBut P s s') : SameBut P (.attempt s) (.attempt s')
  | timer {name : String} {details : Value} {body body' : List Step}
    (h : List.Forall₂ (SameBut P) body body') :
    SameBut P (.timer name details body) (.timer name details body')

theorem Step.sameBut_refl (P : String → Prop) (steps : List Step) :
    List.Forall₂ (Step.SameBut P) steps steps := by
  induction steps with
  | nil => exact .nil
  | cons s rest ih => exact .cons (.refl s) ih

/-! ## Collectors -/

/-- Two collectors hold the same trace, have published the same, read the same times, and have
called the given listeners with the same payloads; they may differ in all other listeners. -/
structure Collector.InStep (P : String → Prop) (c c' : Collector) : Prop where
  current_eq : c.current = c'.current
  published_eq : c.published = c'.published
  capacity_eq : c.capacity = c'.capacity
  clocks : c.clock.Agrees c'.clock
  registrations_eq : ∀ name, P name →
    registrations name c.listeners = registrations name c'.listeners
  received_eq : ∀ name, P name → received name c.outbox = received name c'.outbox

/-- Two collectors in step with the same result. -/
structure SameResult {α : Type} (P : String → Prop) (x y : Collector × α) : Prop where
  inStep : x.1.InStep P y.1
  result_eq : x.2 = y.2

theorem SameResult.exists_eq {α : Type} {P : String → Prop} {x y : Collector × α}
    (h : SameResult P x y) :
    ∃ d d' result, x = (d, result) ∧ y = (d', result) ∧ d.InStep P d' :=
  ⟨x.1, y.1, x.2, rfl, Prod.ext rfl h.result_eq.symm, h.inStep⟩

/-- Two runs in step with the same answers and the same end. -/
structure SameRan (P : String → Prop) (x y : Ran) : Prop where
  inStep : x.collector.InStep P y.collector
  replies_eq : x.replies = y.replies
  fault_eq : x.fault = y.fault

namespace Collector.InStep

variable {P : String → Prop} {c c' : Collector}

theorem withClock (h : c.InStep P c') {k k' : Clock} (hk : k.Agrees k') :
    ({ c with clock := k } : Collector).InStep P { c' with clock := k' } :=
  ⟨h.current_eq, h.published_eq, h.capacity_eq, hk, h.registrations_eq, h.received_eq⟩

theorem withCurrent (h : c.InStep P c') {t t' : Snapshot} (ht : t = t') :
    ({ c with current := t } : Collector).InStep P { c' with current := t' } :=
  ⟨ht, h.published_eq, h.capacity_eq, h.clocks, h.registrations_eq, h.received_eq⟩

theorem publish (h : c.InStep P c') (e : Event) : (c.publish e).InStep P (c'.publish e) where
  current_eq := h.current_eq
  published_eq := congrArg some h.current_eq
  capacity_eq := h.capacity_eq
  clocks := h.clocks
  registrations_eq := h.registrations_eq
  received_eq := by
    intro name hname
    rw [received_publish, received_publish, h.received_eq name hname,
      h.registrations_eq name hname]

theorem start (h : c.InStep P c') (name : String) :
    SameResult P (c.start name) (c'.start name) := by
  obtain ⟨reading, k, k', hk, hk', hagrees⟩ := h.clocks.read
  unfold Collector.start now
  rw [hk, hk', h.current_eq]
  cases reading with
  | error f => exact ⟨(h.withClock hagrees).withCurrent rfl, rfl⟩
  | ok x => exact ⟨((h.withClock hagrees).withCurrent rfl).publish _, rfl⟩

theorem now (h : c.InStep P c') : SameResult P c.now c'.now := by
  obtain ⟨reading, k, k', hk, hk', hagrees⟩ := h.clocks.read
  unfold Collector.now
  rw [hk, hk']
  exact ⟨h.withClock hagrees, rfl⟩

theorem recordTiming (h : c.InStep P c') (name : String) (x : Float) (details : Value.Entries) :
    (c.recordTiming name x details).InStep P (c'.recordTiming name x details) := by
  have hcurrent : (c.recordTiming name x details).current =
      (c'.recordTiming name x details).current := by
    simp only [Collector.recordTiming, publish_current, h.current_eq, h.capacity_eq]
  exact (h.withCurrent hcurrent).publish (.timed name (clampDuration x) details)

theorem increment (h : c.InStep P c') (name : String) (amount : Float) :
    (c.increment name amount).InStep P (c'.increment name amount) := by
  unfold Collector.increment
  rw [h.current_eq]
  exact (h.withCurrent rfl).publish _

theorem annotate (h : c.InStep P c') (key : String) (value : Value) :
    (c.annotate key value).InStep P (c'.annotate key value) := by
  unfold Collector.annotate
  rw [h.current_eq]
  exact (h.withCurrent rfl).publish _

theorem openTimer (h : c.InStep P c') (name : String) (details : Value.Entries) :
    SameResult P (c.openTimer name details) (c'.openTimer name details) := by
  obtain ⟨reading, k, k', hk, hk', hagrees⟩ := h.clocks.read
  unfold Collector.openTimer Collector.now
  rw [hk, hk']
  cases reading with
  | error f => exact ⟨h.withClock hagrees, rfl⟩
  | ok x => exact ⟨(h.withClock hagrees).publish _, rfl⟩

theorem closeTimer (h : c.InStep P c') (name : String) (began : Float) (details : Value.Entries) :
    SameResult P (c.closeTimer name began details) (c'.closeTimer name began details) := by
  obtain ⟨reading, k, k', hk, hk', hagrees⟩ := h.clocks.read
  unfold Collector.closeTimer Collector.now
  rw [hk, hk']
  cases reading with
  | error f => exact ⟨h.withClock hagrees, rfl⟩
  | ok x => exact ⟨(h.withClock hagrees).recordTiming name (x - began) details, rfl⟩

theorem timingStep (h : c.InStep P c') (name : String) (duration details : Value) :
    SameResult P (c.timingStep name duration details) (c'.timingStep name duration details) := by
  unfold Collector.timingStep
  cases duration.toFloat with
  | error f => exact ⟨h, rfl⟩
  | ok x =>
    cases details.toRecord with
    | error f => exact ⟨h, rfl⟩
    | ok entries => exact ⟨h.recordTiming name x entries, rfl⟩

theorem incrementStep (h : c.InStep P c') (name : String) (amount : Value) :
    SameResult P (c.incrementStep name amount) (c'.incrementStep name amount) := by
  unfold Collector.incrementStep
  cases amount.toFloat with
  | error f => exact ⟨h, rfl⟩
  | ok x => exact ⟨h.increment name x, rfl⟩

/-- The same listeners are added on both sides, or removed. -/
theorem withListeners (h : c.InStep P c') {ls ls' : List Listener}
    (hls : ∀ name, P name → registrations name ls = registrations name ls') :
    ({ c with listeners := ls } : Collector).InStep P { c' with listeners := ls' } :=
  ⟨h.current_eq, h.published_eq, h.capacity_eq, h.clocks, hls, h.received_eq⟩

/-- A change of other listeners leaves the registrations of the given ones. -/
theorem exists_of_changesOther {s : Step} (hs : s.ChangesOther P) (c : Collector) :
    ∃ ls, c.run s = ({ c with listeners := ls }, .ok .done) ∧
      ∀ name, P name → registrations name ls = registrations name c.listeners := by
  cases s with
  | add l =>
    refine ⟨c.listeners ++ [l], by rw [run]; rfl, fun name hname => ?_⟩
    rw [registrations_add, if_neg]
    rintro rfl
    exact hs hname
  | remove n =>
    refine ⟨c.listeners.filter fun l => l.name ≠ n, by rw [run]; rfl, fun name hname => ?_⟩
    rw [registrations_remove, if_neg]
    rintro rfl
    exact hs hname
  | start | timing | increment | annotate | snapshot | latest | now | put | fail | attempt
  | timer =>
    cases hs

/-- Attempts stay in step if their steps do. -/
theorem attempt {s s' : Step} (h : SameResult P (c.run s) (c'.run s')) :
    SameResult P (c.run (.attempt s)) (c'.run (.attempt s')) := by
  obtain ⟨d, d', result, hs, hs', hstep⟩ := h.exists_eq
  rw [run, run, hs, hs']
  cases result <;> exact ⟨hstep, rfl⟩

/-- Timed blocks stay in step if their steps do. -/
theorem timer (h : c.InStep P c') (name : String) (details : Value) {body body' : List Step}
    (hbody : ∀ {d d' : Collector}, d.InStep P d' → SameRan P (d.runAll body) (d'.runAll body')) :
    SameResult P (c.run (.timer name details body)) (c'.run (.timer name details body')) := by
  rw [run, run]
  cases details.toRecord with
  | error f => exact ⟨h, rfl⟩
  | ok entries =>
    obtain ⟨opened, opened', began, ho, ho', hopened⟩ := (h.openTimer name entries).exists_eq
    dsimp only
    rw [ho, ho']
    cases began with
    | error f => exact ⟨hopened, rfl⟩
    | ok began =>
      obtain ⟨hinner, hreplies, hfault⟩ := hbody hopened
      dsimp only
      -- From here on both sides have one fault and one row of answers.
      rw [← hreplies, ← hfault]
      generalize (opened.runAll body).fault = fault
      generalize (opened.runAll body).replies = replies
      obtain ⟨closed, closed', result, hc, hc', hclosed⟩ :=
        (hinner.closeTimer name began (Reply.yielded entries replies)).exists_eq
      rw [hc, hc']
      cases result with
      | error f => exact ⟨hclosed, rfl⟩
      | ok _ => cases fault <;> exact ⟨hclosed, rfl⟩

end Collector.InStep

/-! ## Runs -/

section Runs

variable {P : String → Prop}

/-- Runs stay in step if their first steps come to the same and the others keep them so. -/
theorem SameRan.of_first {c c' : Collector} {s s' : Step} {rest rest' : List Step}
    (hfirst : SameResult P (c.run s) (c'.run s'))
    (hrest : ∀ {d d' : Collector}, d.InStep P d' → SameRan P (d.runAll rest) (d'.runAll rest')) :
    SameRan P (c.runAll (s :: rest)) (c'.runAll (s' :: rest')) := by
  obtain ⟨d, d', result, hrun, hrun', hstep⟩ := hfirst.exists_eq
  cases result with
  | error f =>
    rw [runAll_of_error hrun, runAll_of_error hrun']
    exact ⟨hstep, rfl, rfl⟩
  | ok reply =>
    obtain ⟨hothers, hreplies, hfault⟩ := hrest hstep
    rw [runAll_of_ok hrun, runAll_of_ok hrun']
    exact ⟨hothers, congrArg (reply :: ·) hreplies, hfault⟩

mutual

/-- Steps that do the same keep collectors in step. -/
theorem inStep_run (s : Step) {s' : Step} (hs : s.SameBut P s') {c c' : Collector}
    (h : c.InStep P c') : SameResult P (c.run s) (c'.run s') := by
  cases hs with
  | refl =>
    cases s with
    | start name =>
      have hstart := h.start name
      rw [run, run]
      exact ⟨hstart.inStep, congrArg (Except.map Reply.id) hstart.result_eq⟩
    | timing name duration details =>
      rw [run, run]
      exact h.timingStep name duration details
    | increment name amount =>
      rw [run, run]
      exact h.incrementStep name amount
    | annotate key value =>
      rw [run, run]
      exact ⟨h.annotate key value, rfl⟩
    | snapshot =>
      rw [run, run]
      exact ⟨h, congrArg (fun t => Except.ok (Reply.trace t)) h.current_eq⟩
    | latest =>
      rw [run, run]
      exact ⟨h, congrArg (fun t => Except.ok (Reply.published t)) h.published_eq⟩
    | now =>
      have hnow := h.now
      rw [run, run]
      exact ⟨hnow.inStep, congrArg (Except.map Reply.reading) hnow.result_eq⟩
    | add l =>
      rw [run, run]
      refine ⟨h.withListeners fun name hname => ?_, rfl⟩
      rw [registrations_add, registrations_add, h.registrations_eq name hname]
    | remove n =>
      rw [run, run]
      refine ⟨h.withListeners fun name hname => ?_, rfl⟩
      rw [registrations_remove, registrations_remove, h.registrations_eq name hname]
    | put | fail =>
      rw [run, run]
      exact ⟨h, rfl⟩
    | attempt step => exact InStep.attempt (inStep_run step (.refl step) h)
    | timer name details body =>
      exact h.timer name details fun hd => inStep_runAll body (Step.sameBut_refl P body) hd
  | changes hs hs' =>
    obtain ⟨ls, hrun, hls⟩ := InStep.exists_of_changesOther hs c
    obtain ⟨ls', hrun', hls'⟩ := InStep.exists_of_changesOther hs' c'
    rw [hrun, hrun']
    refine ⟨h.withListeners fun name hname => ?_, rfl⟩
    rw [hls name hname, hls' name hname, h.registrations_eq name hname]
  | @attempt step step' hstep => exact InStep.attempt (inStep_run step hstep h)
  | @timer name details body body' hbody =>
    exact h.timer name details fun hd => inStep_runAll body hbody hd

/-- Steps one after the other that do the same keep collectors in step. -/
theorem inStep_runAll (steps : List Step) {steps' : List Step}
    (hsteps : List.Forall₂ (Step.SameBut P) steps steps') {c c' : Collector}
    (h : c.InStep P c') : SameRan P (c.runAll steps) (c'.runAll steps') := by
  cases hsteps with
  | nil =>
    rw [runAll, runAll]
    exact ⟨h, rfl, rfl⟩
  | @cons s s' rest rest' hs hrest =>
    exact .of_first (inStep_run s hs h) fun hd => inStep_runAll rest hrest hd

end

end Runs

end Concordance.Trace
