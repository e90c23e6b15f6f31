import Concordance.Metric.Law
import Concordance.Proofs.Decimal.Whole
import Concordance.Proofs.Metric.Labels

/-!
# Metrics that count

A metric with one label counts how often each value of the label was given.  Whatever lawful client
keeps it: a handle on it takes the label, its row is moved on by one, and nothing else is counted.

* `countOf`, `shown` — what is read of a value that was given some times; past `2 ^ 53` it stands
  still.
* `Handle.OnLabel` — a handle on a metric with one label.
* `Client.Counts` — from one registry to another one label of a metric was counted.
* `Client.Lawful.create` — a new metric with one label, on which the program gets a handle.
* `Client.Lawful.count` — a label is given to a handle and what it leads to is moved on.
-/

namespace Concordance.Metric

open Concordance.Decimal

/-! ## What is read -/

/-- The double that counting comes to. -/
def countOf (n : Nat) : Float :=
  ofQuotient false (min n (2 ^ 53)) 1

/-- What is read of a value that was given some times: nothing before the first time. -/
def shown (n : Nat) : List Float :=
  if n = 0 then [] else [countOf n]

/-- The next double after `2 ^ 53` is two away, so that a step of one leads back. -/
theorem ofQuotient_limit_add_one :
    ofQuotient false (2 ^ 53) 1 + 1 = ofQuotient false (2 ^ 53) 1 := by
  rfl

theorem countOf_succ (n : Nat) : countOf n + 1 = countOf (n + 1) := by
  rw [countOf, countOf]
  by_cases h : n + 1 ≤ 2 ^ 53
  · rw [Nat.min_eq_left h, Nat.min_eq_left (Nat.le_of_succ_le h), ← ofQuotient_add h]
    rfl
  · have hn : 2 ^ 53 ≤ n := Nat.le_of_lt_succ (Nat.lt_of_not_le h)
    rw [Nat.min_eq_right hn, Nat.min_eq_right (Nat.le_succ_of_le hn), ofQuotient_limit_add_one]

/-- A value that was given some times shows their number once its row is open. -/
theorem shown_opened (n : Nat) : (if shown n = [] then [0] else shown n) = [countOf n] := by
  cases n with
  | zero => rfl
  | succ n => exact if_neg (List.cons_ne_nil _ _)

/-! ## Handles on metrics with one label -/

variable {m : Client} {r : m.Registry} {ms : List m.Instrument} {kind : Kind} {base label : String}

/-- The handle is on a metric with one label that was got from the client. -/
def Handle.OnLabel (h : Handle m) (ms : List m.Instrument) (kind : Kind) (base label : String) :
    Prop :=
  ∃ metric ∈ ms, h = ⟨kind, some metric⟩ ∧ m.profile metric = ⟨kind, base, [label], none⟩

theorem Handle.OnLabel.cons {h : Handle m} (hh : h.OnLabel ms kind base label)
    (row : m.Instrument) : h.OnLabel (row :: ms) kind base label := by
  obtain ⟨metric, hmem, heq, hprofile⟩ := hh
  exact ⟨metric, List.mem_cons_of_mem row hmem, heq, hprofile⟩

/-- From one registry to another one value of the label of a metric was counted once. -/
structure Client.Counts (m : Client) (r r' : m.Registry) (kind : Kind) (base label v : String) :
    Prop where
  values_self : ∀ n, m.values r (kind.sampleName base) [(label, v)] = shown n →
    m.values r' (kind.sampleName base) [(label, v)] = shown (n + 1)
  values_ne : ∀ w ≠ v,
    m.values r' (kind.sampleName base) [(label, w)] = m.values r (kind.sampleName base) [(label, w)]
  values_eq : ∀ name ∉ kind.names base, ∀ row, m.values r' name row = m.values r name row

/-- One label is shown as it is given. -/
theorem labelSet_singleton (label v : String) :
    labelSet [label] [(label, .text v)] = [(label, v)] := by
  simp [labelSet, Value.display]

/-- A row that was opened and moved on by one was counted once. -/
theorem Client.Counts.of_steps {r1 r2 : m.Registry} {row : m.Instrument} {v : String} {y : Float}
    (hopens : m.Opens r r1 ⟨kind, base, [label], none⟩ [(label, v)] row)
    (hy : m.values r1 (kind.sampleName base) [(label, v)] = [y])
    (hmoves : m.Moves r1 r2 ⟨kind, base, [label], some [(label, v)]⟩ [(label, v)] (y + 1)) :
    m.Counts r r2 kind base label v where
  values_self n hn := by
    have hopened := hopens.values_self
    rw [Profile.sampleName, hn, shown_opened, hy] at hopened
    obtain rfl := List.singleton_inj.1 hopened
    rw [shown, if_neg (Nat.succ_ne_zero n), ← countOf_succ]
    exact hmoves.values_self
  values_ne w hw := by
    have hne : [(label, w)] ≠ [(label, v)] := by simpa using hw
    exact (hmoves.values_ne _ hne).trans (hopens.values_ne _ hne)
  values_eq name hname row' :=
    (hmoves.values_eq name hname row').trans (hopens.values_eq name hname row')

namespace Client.Lawful

/-- A metric with one label is created under names that are free, and nothing is read of it yet. -/
theorem create (hm : m.Lawful) (hr : m.Reached r ms) {name : String}
    (hbase : baseName kind name = base) (hname : isPlainName base = true)
    (hlabel : isPlainName label = true ∧ label ≠ "le")
    (hfree : ∀ n ∈ kind.names base, m.registered? r n = none) :
    ∃ r' metric, Handle.create m r kind name [label] = (r', ⟨kind, some metric⟩) ∧
      m.Reached r' (metric :: ms) ∧ m.Creates r r' ⟨kind, base, [label], none⟩ metric := by
  subst hbase
  have hnew : m.construct r kind name [label] ≠ none := fun hnone =>
    (hm.construct_eq_none_iff r ms hr kind name [label]).1 hnone
      ⟨hm.validName_plain _ hname,
        hm.validLabels_plain kind _ (List.forall_mem_singleton.2 hlabel), hfree⟩
  obtain ⟨⟨r', metric⟩, hnew⟩ := Option.ne_none_iff_exists'.1 hnew
  refine ⟨r', metric, ?_, hr.construct hnew, hm.creates r ms hr kind name [label] r' metric hnew⟩
  rw [Handle.create, hnew]

/-- A label is given to a handle, and the row that it leads to is moved on by one. -/
theorem count (hm : m.Lawful) (hr : m.Reached r ms) {h : Handle m}
    (hh : h.OnLabel ms kind base label) (hlabel : label ≠ Receiver.labels.taken) {value : Value}
    (hvalue : kind.growth? value = some 1) (v : String) :
    ∃ r1 row r2, h.labels r [(label, .text v)] = (r1, .ok ⟨kind, some row⟩) ∧
      (⟨kind, some row⟩ : Handle m).move kind r1 value = (r2, .ok ()) ∧
      m.Reached r2 (row :: ms) ∧ m.Counts r r2 kind base label v := by
  obtain ⟨metric, hmem, rfl, hprofile⟩ := hh
  have htaken : takesName [(label, Value.text v)] = false := by
    simpa [takesName] using hlabel
  have haccepted : Accepted (m.profile metric).labelNames [(label, .text v)] := by
    rw [hprofile]
    exact ⟨htaken, .refl _⟩
  obtain ⟨r1, row, hlabels, hopens⟩ := hm.opens r ms hr metric hmem _ (by rw [hprofile]) haccepted
  rw [hprofile, labelSet_singleton] at hopens
  have hreached := hr.labels hmem hlabels
  have hself : row ∈ row :: ms := List.mem_cons_self
  have hrow : m.profile row = ⟨kind, base, [label], some [(label, v)]⟩ := hopens.profile_eq
  obtain ⟨y, hy⟩ := hm.values_row r1 _ hreached row hself [(label, v)] (by rw [hrow])
  obtain ⟨r2, hmove, hmoves⟩ := hm.moves r1 _ hreached row hself [(label, v)] value 1 y
    (by rw [hrow]) (by rw [hrow]; exact hvalue) hy
  rw [hrow] at hmove hmoves hy
  refine ⟨r1, row, r2, ?_, ?_, hreached.move hself hmove, .of_steps hopens hy hmoves⟩
  · rw [Handle.labels_some, htaken, hlabels]
    rfl
  · rw [Handle.move, if_pos rfl]
    exact hmove

end Client.Lawful

end Concordance.Metric
