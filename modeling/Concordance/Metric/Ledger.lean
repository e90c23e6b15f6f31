import Concordance.Metric.Client

/-!
# Counters that are held

A program creates counters, gives labels to what it holds and moves it on.  It holds a metric, a row
of one, or nothing.

* `Counter` — what is held, and how it was asked for.
* `Ledger`, `Ledger.Step` — a registry with the counters that are held, and the steps on them.
* `Ledger.perform`, `Ledger.after` — one step, and steps one after the other.
-/

namespace Concordance.Metric

/-- A counter that is held: the hold on it, and how it was asked for. -/
structure Counter (m : Client) where
  name : String
  labelNames : List String
  /-- The labels that were given, once they were. -/
  labels : Option (List (String × Value)) := none
  handle : Handle m

/-- A registry with the counters that are held, in the order in which they were come by, and with
the amounts that were given to them. -/
structure Ledger (m : Client) where
  registry : m.Registry
  held : List (Counter m) := []
  amounts : List (Counter m × Value) := []

namespace Ledger

/-- A step on counters, each of which is named by its place among those that are held. -/
inductive Step where
  | create (name : String) (labelNames : List String)
  | label (place : Nat) (labels : List (String × Value))
  | increase (place : Nat) (amount : Value)

variable {m : Client}

/-- The ledger of a new registry. -/
def fresh (m : Client) : Ledger m where
  registry := m.fresh

/-- The ledger with one more counter that is held. -/
def hold (s : Ledger m) (registry : m.Registry) (c : Counter m) : Ledger m :=
  { s with registry, held := s.held ++ [c] }

/-- The ledger with one more amount that was given to a counter. -/
def book (s : Ledger m) (registry : m.Registry) (c : Counter m) (amount : Value) : Ledger m :=
  { s with registry, amounts := s.amounts ++ [(c, amount)] }

/-- Creates a counter, which is held from then on. -/
def create (s : Ledger m) (name : String) (labelNames : List String) : Ledger m :=
  let (registry, handle) := Handle.create m s.registry .counter name labelNames
  s.hold registry { name, labelNames, handle }

/-- Gives labels to a counter; what comes of it is held from then on. -/
def label (s : Ledger m) (c : Counter m) (labels : List (String × Value)) :
    Ledger m × Except Fault Unit :=
  match c.handle.labels s.registry labels with
  | (registry, .error fault) => ({ s with registry }, .error fault)
  | (registry, .ok handle) =>
    (s.hold registry { c with labels := some labels, handle }, .ok ())

/-- Moves a counter on. -/
def increase (s : Ledger m) (c : Counter m) (amount : Value) : Ledger m × Except Fault Unit :=
  let (registry, result) := c.handle.increase s.registry amount
  (s.book registry c amount, result)

/-- One step; there is none on a place where nothing is held. -/
def perform (s : Ledger m) : Step → Ledger m × Except Fault Unit
  | .create name labelNames => (s.create name labelNames, .ok ())
  | .label place labels =>
    match s.held[place]? with
    | none => (s, .ok ())
    | some c => s.label c labels
  | .increase place amount =>
    match s.held[place]? with
    | none => (s, .ok ())
    | some c => s.increase c amount

/-- The ledger after steps one after the other. -/
def after (s : Ledger m) (steps : List Step) : Ledger m :=
  steps.foldl (fun s step => (s.perform step).1) s

end Ledger

end Concordance.Metric
