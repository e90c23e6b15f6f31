import Concordance.Trace.Collector

/-!
# Steps on a collector

A fault ends the steps in which it arises: those after it are not run, and a timed block passes it
on when it has recorded its timing.  An attempt answers with the fault instead.

* `Step` — steps, among them timed blocks of steps and attempts.
* `Reply`, `Reply.yielded` — the answers, and what is written into the details of a timed block.
* `Ran` — what steps come to.
* `Collector.run`, `Collector.runAll` — one step, and steps one after the other.
-/

namespace Concordance.Trace

/-- A step of work on a collector. -/
inductive Step where
  | start (name : String)
  | timing (name : String) (duration details : Value)
  | increment (name : String) (amount : Value)
  | annotate (key : String) (value : Value)
  /-- Looks at the trace. -/
  | snapshot
  /-- Looks at the published copy. -/
  | latest
  | now
  | add (listener : Listener)
  | remove (name : String)
  /-- Writes into the details of the timed block around it. -/
  | put (entries : Value.Entries)
  /-- Fails. -/
  | fail (fault : Fault)
  /-- Runs a step and goes on if it fails. -/
  | attempt (step : Step)
  /-- A timed block of steps. -/
  | timer (name : String) (details : Value) (body : List Step)
  deriving Inhabited

/-- The answer to a step. -/
inductive Reply where
  | done
  | id (n : Nat)
  | reading (x : Float)
  | trace (t : Snapshot)
  | published (t : Option Snapshot)
  | put (entries : Value.Entries)
  | block (replies : List Reply)
  /-- The fault that an attempt ended with. -/
  | fault (f : Fault)

namespace Reply

def put? : Reply → Option Value.Entries
  | put entries => some entries
  | _ => none

/-- The details of a timed block with what its steps wrote into them, in order. -/
def yielded (details : Value.Entries) (replies : List Reply) : Value.Entries :=
  (replies.filterMap put?).foldl Value.merge details

end Reply

/-- What steps come to: the collector after them, their answers, and the fault that ended them. -/
structure Ran where
  collector : Collector
  replies : List Reply := []
  fault : Option Fault := none

namespace Collector

/-- Records a timing from values. -/
def timingStep (c : Collector) (name : String) (duration details : Value) :
    Collector × Except Fault Reply :=
  match duration.toFloat, details.toRecord with
  | .error f, _ => (c, .error f)
  | .ok _, .error f => (c, .error f)
  | .ok x, .ok entries => (c.recordTiming name x entries, .ok .done)

/-- Moves a counter on by the number in a value. -/
def incrementStep (c : Collector) (name : String) (amount : Value) :
    Collector × Except Fault Reply :=
  match amount.toFloat with
  | .error f => (c, .error f)
  | .ok x => (c.increment name x, .ok .done)

mutual

/-- Runs one step. -/
def run (c : Collector) : Step → Collector × Except Fault Reply
  | .start name => let (c, id) := c.start name; (c, id.map .id)
  | .timing name duration details => c.timingStep name duration details
  | .increment name amount => c.incrementStep name amount
  | .annotate key value => (c.annotate key value, .ok .done)
  | .snapshot => (c, .ok (.trace c.current))
  | .latest => (c, .ok (.published c.published))
  | .now => let (c, x) := c.now; (c, x.map .reading)
  | .add listener => (c.addListener listener, .ok .done)
  | .remove name => (c.removeListener name, .ok .done)
  | .put entries => (c, .ok (.put entries))
  | .fail f => (c, .error f)
  | .attempt step =>
    match run c step with
    | (c, .ok reply) => (c, .ok reply)
    | (c, .error f) => (c, .ok (.fault f))
  | .timer name details body =>
    match details.toRecord with
    | .error f => (c, .error f)
    | .ok entries =>
      match c.openTimer name entries with
      | (c, .error f) => (c, .error f)
      | (c, .ok began) =>
        let inner := runAll c body
        let yielded := Reply.yielded entries inner.replies
        match inner.collector.closeTimer name began yielded, inner.fault with
        -- a fault at the end takes the place of the one within the block
        | (c, .error f), _ => (c, .error f)
        | (c, .ok ()), some f => (c, .error f)
        | (c, .ok ()), none => (c, .ok (.block inner.replies))

/-- Runs steps one after the other until one fails. -/
def runAll (c : Collector) : List Step → Ran
  | [] => { collector := c }
  | s :: rest =>
    match run c s with
    | (c, .error f) => { collector := c, fault := some f }
    | (c, .ok reply) =>
      let others := runAll c rest
      { others with replies := reply :: others.replies }

end

/-- Behind a step that fails no other step is run. -/
theorem runAll_of_error {c c' : Collector} {s : Step} {f : Fault} (h : c.run s = (c', .error f))
    (rest : List Step) : c.runAll (s :: rest) = { collector := c', fault := some f } := by
  simp only [runAll, h]

/-- Behind a step that answers come the others. -/
theorem runAll_of_ok {c c' : Collector} {s : Step} {reply : Reply} (h : c.run s = (c', .ok reply))
    (rest : List Step) :
    c.runAll (s :: rest) =
      { c'.runAll rest with replies := reply :: (c'.runAll rest).replies } := by
  simp only [runAll, h]

end Collector

end Concordance.Trace
