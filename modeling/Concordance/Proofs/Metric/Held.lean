import Concordance.Metric.Law
import Concordance.Proofs.Metric.Labels
import Concordance.Proofs.Metric.Naming
import Concordance.Proofs.Metric.Sum

/-!
# What is behind counters that are held

A counter is asked for with a name and label names, later also with labels.  These say with which
base and labels it is shown, whatever its metric does.  Behind it is the metric of its base, or
nothing.

* `Counter.Concerns` — the counter was asked for with a base and with labels.
* `Ledger.Opened`, `Ledger.given`, `Ledger.total` — such a counter is held; what was given to all
  such counters, and what that comes to.
* `Counter.Leads` — what is behind a counter.
* `Counter.Behind.labels_cases`, `Counter.Behind.increase_cases` — the labels and the amounts that a
  counter takes, and what comes of them.
-/

namespace Concordance.Metric

/-! ## What was asked for and what was given -/

namespace Counter

variable {m : Client}

/-- The base of the counter's name. -/
def base (c : Counter m) : String :=
  baseName .counter c.name

/-- The labels under which the counter is shown; it has none while labels are missing. -/
def labelSet? (c : Counter m) : Option LabelSet :=
  match c.labels with
  | some labels => some (labelSet c.labelNames labels)
  | none => if c.labelNames.isEmpty then some [] else none

/-- The counter was asked for with a base and with labels. -/
def Concerns (c : Counter m) (base : String) (labels : LabelSet) : Prop :=
  c.base = base ∧ c.labelSet? = some labels

instance (c : Counter m) (base : String) (labels : LabelSet) : Decidable (c.Concerns base labels) :=
  inferInstanceAs (Decidable (_ ∧ _))

theorem concerns_created {name : String} {names : List String} {handle : Handle m}
    {base : String} {labels : LabelSet} :
    ({ name, labelNames := names, handle } : Counter m).Concerns base labels ↔
      baseName .counter name = base ∧ names = [] ∧ labels = [] := by
  cases names <;> simp [Concerns, Counter.base, labelSet?]

/-- The counter with labels, for which it holds the row of these. -/
def onRow (c : Counter m) (labels : List (String × Value)) (row : m.Instrument) : Counter m :=
  { c with labels := some labels, handle := ⟨.counter, some row⟩ }

theorem concerns_onRow {c : Counter m} {given : List (String × Value)} {row : m.Instrument}
    {base : String} {labels : LabelSet} :
    (c.onRow given row).Concerns base labels ↔
      c.base = base ∧ labels = labelSet c.labelNames given := by
  rw [Concerns, eq_comm (a := labels)]
  exact and_congr_right fun _ => Option.some_inj

end Counter

namespace Ledger

variable {m : Client}

/-- Some counter is held that was asked for with a base and with labels. -/
def Opened (s : Ledger m) (base : String) (labels : LabelSet) : Prop :=
  ∃ c ∈ s.held, c.Concerns base labels

instance (s : Ledger m) (base : String) : DecidablePred (s.Opened base) :=
  fun labels => inferInstanceAs (Decidable (∃ c ∈ s.held, c.Concerns base labels))

/-- The amounts that were given to the counters of a base and of labels. -/
def given (s : Ledger m) (base : String) (labels : LabelSet) : List Value :=
  (s.amounts.filter fun e => e.1.Concerns base labels).map Prod.snd

/-- What was given to the counters of a base and of labels, added up. -/
def total (s : Ledger m) (base : String) (labels : LabelSet) : Float :=
  sum (s.given base labels)

variable {s : Ledger m} {r : m.Registry} {c : Counter m} {base : String} {labels : LabelSet}
  {amount : Value}

@[simp]
theorem hold_registry : (s.hold r c).registry = r := rfl

@[simp]
theorem book_registry : (s.book r c amount).registry = r := rfl

@[simp]
theorem hold_held : (s.hold r c).held = s.held ++ [c] := rfl

@[simp]
theorem book_amounts : (s.book r c amount).amounts = s.amounts ++ [(c, amount)] := rfl

@[simp]
theorem opened_hold :
    (s.hold r c).Opened base labels ↔ s.Opened base labels ∨ c.Concerns base labels := by
  simp [Opened, or_and_right, exists_or]

@[simp]
theorem total_hold : (s.hold r c).total base labels = s.total base labels := rfl

theorem given_book :
    (s.book r c amount).given base labels =
      s.given base labels ++ if c.Concerns base labels then [amount] else [] := by
  by_cases h : c.Concerns base labels <;> simp [given, List.filter_append, h]

theorem total_book_self (h : c.Concerns base labels) :
    (s.book r c amount).total base labels =
      (addend? amount).elim (s.total base labels) (s.total base labels + ·) := by
  rw [total, given_book, if_pos h, sum_concat]
  rfl

/-- An amount that adds nothing, or that went elsewhere, leaves the total as it is. -/
theorem total_book (h : c.Concerns base labels → addend? amount = none) :
    (s.book r c amount).total base labels = s.total base labels := by
  by_cases hc : c.Concerns base labels
  · rw [total_book_self hc, h hc]
    rfl
  · rw [total, given_book, if_neg hc, List.append_nil]
    rfl

end Ledger

/-! ## What is behind a counter -/

/-- Labels on nothing lead to nothing, or they are refused. -/
theorem Handle.labels_none {m : Client} (kind : Kind) (r : m.Registry)
    (labels : List (String × Value)) :
    (∃ fault, Handle.labels (m := m) ⟨kind, none⟩ r labels = (r, .error fault)) ∨
      Handle.labels (m := m) ⟨kind, none⟩ r labels = (r, .ok ⟨kind, none⟩) := by
  rw [Handle.labels]
  split
  · exact .inl ⟨_, rfl⟩
  · exact .inr rfl

/-- Amounts on nothing have no effect. -/
theorem Handle.increase_none {m : Client} (kind : Kind) (r : m.Registry) (amount : Value) :
    (Handle.increase (m := m) ⟨kind, none⟩ r amount).1 = r := by
  rw [Handle.increase, Handle.move]
  split <;> rfl

namespace Counter

variable {m : Client} {labelNames : String → List String}

/-- A metric is behind a counter: it has the base of the counter, and the labels that were given. -/
structure Behind (c : Counter m) (metric : m.Instrument) : Prop where
  kind_eq : (m.profile metric).kind = .counter
  base_eq : (m.profile metric).base = c.base
  labelNames_perm : c.labelNames.Perm (m.profile metric).labelNames
  row_eq : (m.profile metric).row = c.labelSet?

/-- What is behind a counter that is held: nothing where there can be none, and else a metric. -/
inductive Leads (labelNames : String → List String) (steps : List Ledger.Step) (c : Counter m) :
    Prop
  | void (hvoid : ¬Valid m labelNames c.base) (hhandle : c.handle = ⟨.counter, none⟩)
  | metric {metric : m.Instrument} (hcreated : Created m labelNames steps c.base)
    (hhandle : c.handle = ⟨.counter, some metric⟩) (hbehind : c.Behind metric)

variable {c : Counter m} {metric : m.Instrument}

theorem Behind.sampleName_eq (h : c.Behind metric) :
    (m.profile metric).sampleName = c.base ++ totalMark := by
  rw [Profile.sampleName, h.kind_eq, h.base_eq]
  rfl

theorem Behind.names_eq (h : c.Behind metric) :
    (m.profile metric).names = Kind.names .counter c.base := by
  rw [Profile.names, h.kind_eq, h.base_eq]

/-- The sample of another base is no sample of the metric. -/
theorem Behind.total_notMem {steps : List Ledger.Step} (h : c.Behind metric)
    (hsteps : Agreeing m labelNames steps) (hcreated : Created m labelNames steps c.base)
    {base : String} (hbase : base ≠ c.base) : base ++ totalMark ∉ (m.profile metric).names :=
  fun hmem => hbase (hcreated.eq_of_total_mem hsteps (h.names_eq ▸ hmem))

theorem Behind.labelSet_eq (h : c.Behind metric) (labels : List (String × Value)) :
    labelSet (m.profile metric).labelNames labels = labelSet c.labelNames labels :=
  (labelSet_perm h.labelNames_perm labels).symm

/-- The metric of the base is behind a counter that is created with that base. -/
theorem behind_created {name : String} {names : List String} {handle : Handle m}
    (hkind : (m.profile metric).kind = .counter)
    (hbase : (m.profile metric).base = baseName .counter name)
    (hnames : names.Perm (m.profile metric).labelNames)
    (hrow : (m.profile metric).row =
      if (m.profile metric).labelNames.isEmpty then some [] else none) :
    Behind { name, labelNames := names, handle } metric where
  kind_eq := hkind
  base_eq := hbase
  labelNames_perm := hnames
  row_eq := by
    rw [hrow]
    cases names with
    | nil =>
      rw [hnames.nil_eq.symm]
      rfl
    | cons name names =>
      have hne : (m.profile metric).labelNames ≠ [] := fun hnil => by
        rw [hnil] at hnames
        cases hnames.eq_nil
      rw [if_neg (by simpa using hne)]
      rfl

/-! ### Labels and amounts -/

section Lawful

variable {r : m.Registry} {ms : List m.Instrument}

/-- Labels are refused, or they were missing and lead to a row of the metric. -/
theorem Behind.labels_cases (h : c.Behind metric) (hm : m.Lawful) (hr : m.Reached r ms)
    (hmem : metric ∈ ms) (hhandle : c.handle = ⟨.counter, some metric⟩)
    (labels : List (String × Value)) :
    (∃ fault, c.handle.labels r labels = (r, .error fault) ∧
      ¬(c.labelSet? = none ∧ Accepted c.labelNames labels)) ∨
    ∃ r' row, c.labelSet? = none ∧ Accepted c.labelNames labels ∧
      m.labels r metric labels = (r', .ok row) ∧
      c.handle.labels r labels = (r', .ok ⟨.counter, some row⟩) ∧
      m.Opens r r' (m.profile metric) (labelSet c.labelNames labels) row := by
  have hnames : Accepted (m.profile metric).labelNames labels ↔ Accepted c.labelNames labels :=
    and_congr_right fun _ => ⟨(·.trans h.labelNames_perm.symm), (·.trans h.labelNames_perm)⟩
  rw [hhandle, Handle.labels_some]
  by_cases htaken : takesName labels = true
  · rw [if_pos htaken]
    exact .inl ⟨_, rfl, fun hyes => Bool.noConfusion (hyes.2.1.symm.trans htaken)⟩
  · rw [if_neg htaken]
    by_cases hyes : c.labelSet? = none ∧ Accepted c.labelNames labels
    · obtain ⟨r', row, hlabels, hopens⟩ := hm.opens r ms hr metric hmem labels
        (h.row_eq.trans hyes.1) (hnames.2 hyes.2)
      rw [h.labelSet_eq] at hopens
      rw [hlabels]
      exact .inr ⟨r', row, hyes.1, hyes.2, rfl, rfl, hopens⟩
    · obtain ⟨fault, hlabels⟩ := hm.labels_refused r ms hr metric hmem labels
        fun hno => hyes ⟨h.row_eq.symm.trans hno.1, hnames.1 hno.2⟩
      rw [hlabels]
      exact .inl ⟨fault, rfl, hyes⟩

/-- A row of a metric has the labels that were given to the counter. -/
theorem Behind.onRow {given : List (String × Value)} {row : m.Instrument} {r' : m.Registry}
    (h : c.Behind metric)
    (hopens : m.Opens r r' (m.profile metric) (labelSet c.labelNames given) row) :
    (c.onRow given row).Behind row where
  kind_eq := by rw [hopens.profile_eq]; exact h.kind_eq
  base_eq := by rw [hopens.profile_eq]; exact h.base_eq
  labelNames_perm := by rw [hopens.profile_eq]; exact h.labelNames_perm
  row_eq := by rw [hopens.profile_eq]; rfl

/-- An amount is refused, or no labels are missing and the row is moved on by what it adds. -/
theorem Behind.increase_cases (h : c.Behind metric) (hm : m.Lawful) (hr : m.Reached r ms)
    (hmem : metric ∈ ms) (hhandle : c.handle = ⟨.counter, some metric⟩) {y : LabelSet → Float}
    (hy : ∀ labels, c.labelSet? = some labels →
      m.values r (c.base ++ totalMark) labels = [y labels]) (amount : Value) :
    (∃ fault, c.handle.increase r amount = (r, .error fault) ∧
      (c.labelSet? = none ∨ addend? amount = none)) ∨
    ∃ r' labels x, c.labelSet? = some labels ∧ addend? amount = some x ∧
      m.move .counter r metric amount = (r', .ok ()) ∧
      c.handle.increase r amount = (r', .ok ()) ∧
      m.Moves r r' (m.profile metric) labels (y labels + x) := by
  have hmove : c.handle.increase r amount = m.move .counter r metric amount := by
    rw [hhandle]
    rfl
  rw [hmove]
  cases hlabels : c.labelSet? with
  | none =>
    obtain ⟨fault, hfault⟩ := hm.move_unlabelled r ms hr metric hmem .counter amount
      (h.row_eq.trans hlabels)
    exact .inl ⟨fault, hfault, .inl rfl⟩
  | some labels =>
    cases hx : addend? amount with
    | none =>
      obtain ⟨fault, hfault⟩ := hm.increase_refused r ms hr metric hmem amount h.kind_eq hx
      exact .inl ⟨fault, hfault, .inr rfl⟩
    | some x =>
      have hgrowth : (m.profile metric).kind.growth? amount = some x := by
        rw [h.kind_eq]
        exact hx
      obtain ⟨r', hr', hmoves⟩ := hm.moves r ms hr metric hmem labels amount x (y labels)
        (h.row_eq.trans hlabels) hgrowth (h.sampleName_eq ▸ hy labels hlabels)
      rw [h.kind_eq] at hr'
      exact .inr ⟨r', labels, x, rfl, rfl, hr', hr', hmoves⟩

end Lawful

end Counter

end Concordance.Metric
