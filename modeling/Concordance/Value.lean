import Concordance.Choice
import Concordance.Decimal.Binary

/-!
# Values typed into a form, bound to a log line, or kept in a trace

* `Value` — a value whose kind is known only when it is read.
* `Value.truthy` — whether it counts as given.
* `Value.text?` — its characters, when it is text; an option is the text of its name.
* `Value.sameKey` — two keys of one record are the same.
* `Value.assign`, `Value.merge` — records with their keys in the order of first assignment.
-/

namespace Concordance

open Concordance.Decimal

/-- A value whose kind is known only when it is read. -/
inductive Value where
  | null
  | bool (b : Bool)
  | int (n : Int)
  | float (x : Float)
  | text (s : String)
  /-- An option that is already resolved. -/
  | choice (c : Choice)
  | bytes (bs : List UInt8)
  | list (items : List Value)
  /-- Keys and values in the order of the keys' first assignment. -/
  | record (entries : List (Value × Value))
  deriving Inhabited

namespace Value

abbrev Entries := List (Value × Value)

/-- The name of a value's kind, as error texts give it. -/
def kind : Value → String
  | null => "NoneType"
  | bool _ => "bool"
  | int _ => "int"
  | float _ => "float"
  | text _ => "str"
  | choice c => c.family
  | bytes _ => "bytes"
  | list _ => "list"
  | record _ => "dict"

/-- Whether a value counts as given: nothing, `false`, zero and what is empty do not. -/
def truthy : Value → Bool
  | null => false
  | bool b => b
  | int n => n != 0
  | float x => x != 0
  | text s => s != ""
  | choice _ => true
  | bytes bs => !bs.isEmpty
  | list items => !items.isEmpty
  | record entries => !entries.isEmpty

/-- The characters of a text; an option is the text of its name. -/
def text? : Value → Option String
  | text s => some s
  | choice c => some c.name
  | _ => none

/-- A value if it counts as given, and another one otherwise. -/
def orElse (v other : Value) : Value :=
  if v.truthy then v else other

/-- What a number denotes exactly; a truth value counts as one or zero. -/
def magnitude? : Value → Option Magnitude
  | bool b => some (wholeMagnitude b.toNat)
  | int n => some (wholeMagnitude n)
  | float x => some (magnitude x)
  | _ => none

/-- Two keys are the same: numbers by what they denote, texts by their characters. -/
def sameKey (a b : Value) : Bool :=
  match a.magnitude?, b.magnitude? with
  | some x, some y => compareMagnitude x y == some .eq
  | some _, none | none, some _ => false
  | none, none =>
    match a.text?, b.text? with
    | some s, some t => s == t
    | some _, none | none, some _ => false
    | none, none =>
      match a, b with
      | null, null => true
      | bytes x, bytes y => x == y
      | _, _ => false

def lookup? (key : Value) : Entries → Option Value
  | [] => none
  | (k, v) :: rest => if k.sameKey key then some v else lookup? key rest

/-- The record with a value under a key: an old key keeps its place and its form. -/
def assign (key value : Value) : Entries → Entries
  | [] => [(key, value)]
  | (k, v) :: rest => if k.sameKey key then (k, value) :: rest else (k, v) :: assign key value rest

@[simp]
theorem sameKey_text (s t : String) : sameKey (text s) (text t) = (s == t) := rfl

/-- The first record with all assignments of the second one made in order. -/
def merge (base extra : Entries) : Entries :=
  extra.foldl (fun entries e => assign e.1 e.2 entries) base

def ofAssignments (assignments : Entries) : Entries :=
  merge [] assignments

end Value

end Concordance
