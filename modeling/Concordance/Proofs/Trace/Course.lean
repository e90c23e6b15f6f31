import Concordance.Proofs.Trace.Reading
import Concordance.Trace.Step

/-!
# The course of steps

What steps do, said without a collector: it depends on the steps and on the readings of the clock
alone.

* `Act`, `Happening` — what is started, measured, counted and noted, and changes of the listeners.
* `Course` — what happens, the clock after it, what is written into the details of the timed block
  around the steps, and the fault that ends them.
* `Step.course`, `Step.courseAll` — the course of a step, and of steps one after the other.
-/

namespace Concordance.Trace

/-- What is recorded or published. -/
inductive Act where
  /-- A trace was started at a reading of the clock. -/
  | started (name : String) (time : Float)
  /-- A timed block began. -/
  | opened (name : String) (details : Value.Entries)
  | timed (timing : Timing)
  | counted (name : String) (amount : Float)
  | noted (key : String) (value : Value)

namespace Act

def startName? : Act → Option String
  | started name _ => some name
  | _ => none

/-- The notes with which a trace begins. -/
def startNotes? : Act → Option (List (String × Value))
  | started name time => some [("trace_name", .text name), ("start_time", .float time)]
  | _ => none

def timing? : Act → Option Timing
  | timed timing => some timing
  | _ => none

def count? : Act → Option (String × Float)
  | counted name amount => some (name, amount)
  | _ => none

def note? : Act → Option (String × Value)
  | noted key value => some (key, value)
  | _ => none

end Act

/-- What happens to a collector. -/
inductive Happening where
  | did (a : Act)
  | added (l : Listener)
  | removed (name : String)

def Happening.act? : Happening → Option Act
  | did a => some a
  | _ => none

/-- What comes of steps. -/
structure Course where
  happenings : List Happening := []
  clock : Clock
  /-- What is written into the details of the timed block around the steps. -/
  puts : List Value.Entries := []
  fault : Option Fault := none

namespace Course

/-- The acts of a course. -/
def acts (k : Course) : List Act :=
  k.happenings.filterMap Happening.act?

/-- One act. -/
def did (clock : Clock) (a : Act) : Course where
  happenings := [.did a]
  clock := clock

/-- Nothing but a fault. -/
def failed (clock : Clock) (f : Fault) : Course where
  clock := clock
  fault := some f

/-- A course with another one after it, unless it ends with a fault. -/
def andThen (k : Course) (next : Clock → Course) : Course :=
  match k.fault with
  | some _ => k
  | none =>
    let others := next k.clock
    { others with
      happenings := k.happenings ++ others.happenings
      puts := k.puts ++ others.puts }

end Course

namespace Step

mutual

/-- The course of a step.  A duration below zero counts as zero, and a duration that is no number as
well; a timed block that begins records its timing however its steps end, with the details that it
began with and what its steps wrote into them. -/
def course (clock : Clock) : Step → Course
  | .start name => .did clock.next (.started name clock.reading)
  | .timing name duration details =>
    match duration.toFloat, details.toRecord with
    | .error f, _ => .failed clock f
    | .ok _, .error f => .failed clock f
    | .ok x, .ok entries => .did clock (.timed ⟨name, if 0 < x then x else 0, entries⟩)
  | .increment name amount =>
    match amount.toFloat with
    | .error f => .failed clock f
    | .ok x => .did clock (.counted name x)
  | .annotate key value => .did clock (.noted key value)
  | .snapshot | .latest => { clock }
  | .now => { clock := clock.next }
  | .add listener => { happenings := [.added listener], clock }
  | .remove name => { happenings := [.removed name], clock }
  | .put entries => { clock, puts := [entries] }
  | .fail f => .failed clock f
  | .attempt step => { course clock step with fault := none }
  | .timer name details body =>
    match details.toRecord with
    | .error f => .failed clock f
    | .ok entries =>
      let inner := courseAll clock.next body
      let x := inner.clock.reading - clock.reading
      let closing : Timing :=
        ⟨name, if 0 < x then x else 0, inner.puts.foldl Value.merge entries⟩
      { happenings := .did (.opened name entries) :: (inner.happenings ++ [.did (.timed closing)])
        clock := inner.clock.next
        fault := inner.fault }

/-- The course of steps one after the other, up to the first one that fails. -/
def courseAll (clock : Clock) : List Step → Course
  | [] => { clock }
  | s :: rest => (course clock s).andThen fun k => courseAll k rest

end

end Step

end Concordance.Trace
