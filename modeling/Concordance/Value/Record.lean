import Concordance.Fault

/-!
# Records in values

* `Value.items?` — the items that a value is made of.
* `Value.toRecord` — the record that a value holds: its entries, or its items as pairs.
* `Value.checkNames` — the keys of a record serve as names.
* `checkNames_text` — texts other than the taken name do.
-/

namespace Concordance.Value

/-- The items that a value is made of: the characters of a text, the keys of a record. -/
def items? : Value → Option (List Value)
  | text s => some (s.toList.map fun c => text (String.singleton c))
  | choice c => some (c.name.toList.map fun c => text (String.singleton c))
  | bytes bs => some (bs.map fun b => int b.toNat)
  | list items => some items
  | record entries => some (entries.map Prod.fst)
  | _ => none

/-- Lists and records are no keys. -/
def isKey : Value → Bool
  | list _ => false
  | record _ => false
  | _ => true

/-- The entries that pairs of items give, numbered from `index` on. -/
def pairEntries (index : Nat) : List Value → Except Fault Entries
  | [] => .ok []
  | v :: rest =>
    match v.items? with
    | none => .error (.entryWithoutItems index)
    | some [k, value] =>
      if k.isKey then do
        let entries ← pairEntries (index + 1) rest
        return (k, value) :: entries
      else .error (.noKey k.kind)
    | some items => .error (.entryOfLength index items.length)

/-- The record that a value holds; what does not count as given is the empty record. -/
def toRecord (v : Value) : Except Fault Entries :=
  if v.truthy then
    match v with
    | record entries => .ok entries
    | v =>
      match v.items? with
      | none => .error (.notIterable v.kind)
      | some items => do
        let entries ← pairEntries 0 items
        return ofAssignments entries
  else .ok []

/-- The keys of a record serve as names if all of them are texts and none is the name that the
receiver has taken for itself. -/
def checkNames (receiver : Receiver) (entries : Entries) : Except Fault Unit :=
  if entries.any fun e => e.1.text?.isNone then .error .noName
  else if entries.any fun e => e.1.text? == some receiver.taken then .error (.nameTaken receiver)
  else .ok ()

theorem checkNames_text {receiver : Receiver} {fields : List (String × Value)}
    (h : receiver.taken ∉ fields.map Prod.fst) :
    checkNames receiver (fields.map fun e => (.text e.1, e.2)) = .ok () := by
  have texts : (fields.map fun e => (text e.1, e.2)).any (fun e => e.1.text?.isNone) = false := by
    simp [text?]
  have free : (fields.map fun e => (text e.1, e.2)).any
      (fun e => e.1.text? == some receiver.taken) = false := by
    simpa [text?] using fun a b (hab : (a, b) ∈ fields) (ha : a = receiver.taken) =>
      h (ha ▸ List.mem_map_of_mem hab)
  simp [checkNames, texts, free]

end Concordance.Value
