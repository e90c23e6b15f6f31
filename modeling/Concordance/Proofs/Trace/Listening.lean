import Concordance.Trace.Collector

/-!
# What listeners are called with

An event reaches every listener with the payload that it was published with, whatever the listeners
before do to their payloads and however they end.

* `toldAmong`, `loggedAmong` — the calls of listeners and the entries of the program among
  emissions.
* `Announced` — emissions in which each listener is called once with an event.
* `Round.announced_tellAll`, `outbox_publish` — what is published is announced to all listeners.
* `received`, `registrations` — what one listener is called with, and how often it is registered.
* `received_announced` — an announcement reaches it once for each of its registrations.
-/

namespace Concordance.Trace

open Collector

/-- The listener, the kind and the payload of a call. -/
def Emission.told? : Emission → Option (String × String × Value.Entries)
  | told listener kind payload => some (listener, kind, payload)
  | _ => none

/-- The entry that the program wrote. -/
def Emission.logged? : Emission → Option Log.Entry
  | logged entry => some entry
  | _ => none

/-- The calls of listeners, in order. -/
def toldAmong (es : List Emission) : List (String × String × Value.Entries) :=
  es.filterMap Emission.told?

/-- The entries of the program, in order. -/
def loggedAmong (es : List Emission) : List Log.Entry :=
  es.filterMap Emission.logged?

theorem toldAmong_append (es fs : List Emission) :
    toldAmong (es ++ fs) = toldAmong es ++ toldAmong fs :=
  List.filterMap_append

theorem loggedAmong_append (es fs : List Emission) :
    loggedAmong (es ++ fs) = loggedAmong es ++ loggedAmong fs :=
  List.filterMap_append

/-! ## From listener to listener -/

/-- Each of some listeners is called once, with one kind and one payload, and the program writes
nothing. -/
structure Announced (kind : String) (payload : Value.Entries) (ls : List Listener)
    (es : List Emission) : Prop where
  told_eq : toldAmong es = ls.map fun l => (l.name, kind, payload)
  logged_eq : loggedAmong es = []

namespace Round

variable {t : Round} {payload : Value.Entries}

theorem payload_copy (t : Round) (cell : Nat) :
    (t.copy cell).1.payload (t.copy cell).2 = t.payload cell := by
  simp [copy, Round.payload]

/-- A listener that was given a copy leaves the first cell as it is. -/
theorem first_call_copy (h : t.cells[0]? = some payload) (l : Listener) (kind : String) :
    ((t.copy 0).1.call l kind (t.copy 0).2).1.cells[0]? = some payload := by
  obtain ⟨hpos, -⟩ := List.getElem?_eq_some_iff.1 h
  have hne : t.cells.length ≠ 0 := Nat.ne_of_gt hpos
  simp only [copy, call]
  rw [List.getElem?_set_ne hne, List.getElem?_append_left hpos, h]

/-- A listener that was given a copy is called with the payload. -/
theorem announced_call_copy (h : t.cells[0]? = some payload) (l : Listener) (kind : String) :
    ∃ es, ((t.copy 0).1.call l kind (t.copy 0).2).1.outbox = t.outbox ++ es ∧
      Announced kind payload [l] es := by
  have hpayload : (t.copy 0).1.payload (t.copy 0).2 = payload := by
    rw [payload_copy, Round.payload, List.getD_eq_getElem?_getD, h, Option.getD_some]
  refine ⟨_, rfl, ?_, ?_⟩
  · rw [hpayload]
    simp [toldAmong, Emission.told?, Function.comp_def]
  · simp [loggedAmong, Emission.logged?]

/-- However a listener ends, the listeners after it are called. -/
theorem tellAll_cons (t : Round) (kind : String) (l : Listener) (rest : List Listener) :
    t.tellAll kind (l :: rest) = ((t.copy 0).1.call l kind (t.copy 0).2).1.tellAll kind rest := by
  simp only [tellAll]
  cases (t.copy 0).1.call l kind (t.copy 0).2 with
  | mk called result => cases result <;> rfl

theorem announced_tellAll (kind : String) (ls : List Listener) (h : t.cells[0]? = some payload) :
    ∃ es, (t.tellAll kind ls).outbox = t.outbox ++ es ∧ Announced kind payload ls es := by
  -- The first cell keeps the payload all the way, since listeners are only given copies of it.
  induction ls generalizing t with
  | nil => exact ⟨[], (List.append_nil _).symm, rfl, rfl⟩
  | cons l rest ih =>
    obtain ⟨es, hes, hfirst⟩ := announced_call_copy h l kind
    obtain ⟨fs, hfs, hrest⟩ := ih (first_call_copy h l kind)
    refine ⟨es ++ fs, ?_, ?_, ?_⟩
    · rw [tellAll_cons, hfs, hes, List.append_assoc]
    · rw [toldAmong_append, hfirst.told_eq, hrest.told_eq]
      rfl
    · rw [loggedAmong_append, hfirst.logged_eq, hrest.logged_eq]
      rfl

end Round

/-! ## Publishing -/

@[simp]
theorem publish_current (c : Collector) (e : Event) : (c.publish e).current = c.current := rfl

/-- What is published is announced to all listeners. -/
theorem outbox_publish (c : Collector) (e : Event) :
    ∃ es, (c.publish e).outbox = c.outbox ++ es ∧ Announced e.kind e.payload c.listeners es :=
  Round.announced_tellAll e.kind c.listeners rfl

/-! ## One listener -/

/-- The kinds and payloads that a listener is called with, in order. -/
def received (name : String) (es : List Emission) : List (String × Value.Entries) :=
  ((toldAmong es).filter fun call => call.1 = name).map Prod.snd

/-- How often a listener is registered. -/
def registrations (name : String) (ls : List Listener) : Nat :=
  ls.countP fun l => l.name = name

theorem received_append (name : String) (es fs : List Emission) :
    received name (es ++ fs) = received name es ++ received name fs := by
  rw [received, toldAmong_append, List.filter_append, List.map_append]
  rfl

/-- An announcement reaches a listener once for each of its registrations. -/
theorem received_announced {kind : String} {payload : Value.Entries} {ls : List Listener}
    {es : List Emission} (h : Announced kind payload ls es) (name : String) :
    received name es = List.replicate (registrations name ls) (kind, payload) := by
  rw [received, h.told_eq, List.filter_map, List.map_map, registrations,
    List.countP_eq_length_filter]
  exact List.map_const' ..

theorem received_publish (name : String) (c : Collector) (e : Event) :
    received name (c.publish e).outbox = received name c.outbox ++
      List.replicate (registrations name c.listeners) (e.kind, e.payload) := by
  obtain ⟨es, hes, hannounced⟩ := outbox_publish c e
  rw [hes, received_append, received_announced hannounced]

theorem registrations_add (name : String) (ls : List Listener) (l : Listener) :
    registrations name (ls ++ [l]) =
      if l.name = name then registrations name ls + 1 else registrations name ls := by
  by_cases h : l.name = name <;> simp [registrations, h]

/-- A listener that is removed has no registration left, and the others keep theirs. -/
theorem registrations_remove (name n : String) (ls : List Listener) :
    registrations name (ls.filter fun l => l.name ≠ n) =
      if n = name then 0 else registrations name ls := by
  by_cases h : n = name
  · simp [registrations, h, List.countP_eq_zero]
  · rw [if_neg h, registrations, List.countP_filter]
    refine List.countP_congr fun l _ => ?_
    simp only [ne_eq, decide_not, Bool.and_eq_true, decide_eq_true_eq, Bool.not_eq_true',
      decide_eq_false_iff_not, and_iff_left_iff_imp]
    rintro hl rfl
    exact h hl

end Concordance.Trace
