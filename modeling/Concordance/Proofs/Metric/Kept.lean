import Concordance.Proofs.Metric.Filed
import Concordance.Proofs.Metric.Held
import Concordance.Proofs.Metric.Lawful

/-!
# Counters keep their counts

Counters are created again and again, under both spellings of their names.  What is read of them
depends on what they were asked for with and what they were given, and on nothing else.

* `Ledger.Kept` — each counter tells the sums of what was given, and what is held leads to it.
* `Ledger.Kept.label_cases`, `Ledger.Kept.increase_cases` — what a step on a counter can come to.
* `Ledger.Kept.perform`, `Ledger.Kept.after` — that stays so with a step, and with many.
* `Ledger.Faithful`, `created_again_counters_keep_counts` — nothing is lost and nothing split.
* `both_spellings_count_together` — hits that are counted through four handles of one counter.
* `agreeing_counters_may_lose_counts` — bases that clash, labels that are kept back, and totals that
  doubles cannot hold.
-/

namespace Concordance.Metric

variable {m : Client} {labelNames : String → List String} {steps : List Ledger.Step}

/-! ## What holds at every step -/

/-- What is behind some counters was got from the client. -/
def Got (ms : List m.Instrument) (cs : List (Counter m)) : Prop :=
  ∀ c ∈ cs, ∀ metric, c.handle.metric = some metric → metric ∈ ms

namespace Got

variable {ms : List m.Instrument} {cs : List (Counter m)} {c : Counter m}

theorem concat_some (h : Got ms cs) {metric : m.Instrument}
    (hhandle : c.handle = ⟨.counter, some metric⟩) : Got (metric :: ms) (cs ++ [c]) := by
  refine List.forall_mem_append.2 ⟨fun c' hc' metric' hmetric' => ?_, ?_⟩
  · exact List.mem_cons_of_mem _ (h c' hc' metric' hmetric')
  · refine List.forall_mem_singleton.2 fun metric' hmetric' => ?_
    rw [hhandle] at hmetric'
    exact List.mem_cons.2 (.inl (Option.some_inj.1 hmetric').symm)

theorem concat_none (h : Got ms cs) (hhandle : c.handle = ⟨.counter, none⟩) :
    Got ms (cs ++ [c]) := by
  refine List.forall_mem_append.2 ⟨h, List.forall_mem_singleton.2 fun metric hmetric => ?_⟩
  rw [hhandle] at hmetric
  cases hmetric

end Got

/-- Each base shows the sums of what was given to its counters, and each counter that is held leads
to the one of its base. -/
structure Ledger.Kept (labelNames : String → List String) (steps : List Ledger.Step)
    (s : Ledger m) : Prop where
  reached : ∃ ms, m.Reached s.registry ms ∧ Got ms s.held
  filed : m.Filed labelNames steps s.registry
  leads : ∀ c ∈ s.held, c.Leads labelNames steps
  registered : ∀ c ∈ s.held, Valid m labelNames c.base →
    ∃ metric, m.registered? s.registry c.base = some metric
  opened : ∀ name metric, m.registered? s.registry name = some metric →
    ∀ labels, (m.profile metric).row = some labels → s.Opened (m.profile metric).base labels
  values_eq : ∀ base labels, m.values s.registry (base ++ totalMark) labels =
    if Valid m labelNames base ∧ s.Opened base labels then [s.total base labels] else []
  held : ∀ e ∈ s.amounts, e.1 ∈ s.held

namespace Ledger.Kept

variable {s : Ledger m} {c : Counter m} {r : m.Registry} {metric : m.Instrument} {base : String}
  {labels : LabelSet}

theorem fresh (hm : m.Lawful) : Kept labelNames steps (.fresh m) where
  reached := ⟨[], .fresh, List.forall_mem_nil _⟩
  filed := .fresh hm
  leads := List.forall_mem_nil _
  registered := List.forall_mem_nil _
  opened name metric hname := by cases (hm.registered_fresh name).symm.trans hname
  values_eq base labels := by
    have hnot : ¬(Valid m labelNames base ∧ (Ledger.fresh m).Opened base labels) :=
      fun ⟨_, _, hc, _⟩ => List.not_mem_nil hc
    rw [if_neg hnot]
    exact hm.values_unregistered _ _ .fresh _ (hm.registered_fresh _) labels
  held := List.forall_mem_nil _

theorem total_eq_zero (h : s.Kept labelNames steps) (hclosed : ¬s.Opened base labels) :
    s.total base labels = 0 := by
  have hgiven : s.given base labels = [] := by
    refine List.map_eq_nil_iff.2 (List.filter_eq_nil_iff.2 fun e he => ?_)
    have hnot : ¬e.1.Concerns base labels := fun hconcerns => hclosed ⟨e.1, h.held e he, hconcerns⟩
    simpa using hnot
  rw [total, hgiven]
  rfl

theorem held_hold (h : s.Kept labelNames steps) (r : m.Registry) :
    ∀ e ∈ (s.hold r c).amounts, e.1 ∈ (s.hold r c).held :=
  fun e he => List.mem_append_left _ (h.held e he)

theorem held_book (h : s.Kept labelNames steps) (hc : c ∈ s.held) (r : m.Registry)
    (amount : Value) : ∀ e ∈ (s.book r c amount).amounts, e.1 ∈ (s.book r c amount).held := by
  intro e he
  rcases List.mem_append.1 he with he | he
  · exact h.held e he
  · obtain rfl := List.mem_singleton.1 he
    exact hc

theorem opened_of_registered (h : s.Kept labelNames steps) {name : String}
    (hname : m.registered? s.registry name = some metric)
    (hrow : (m.profile metric).row = some labels) :
    (s.hold r c).Opened (m.profile metric).base labels :=
  opened_hold.2 (.inl (h.opened name metric hname labels hrow))

/-- A counter is held that opens nothing new. -/
theorem hold (h : s.Kept labelNames steps) (hc : c.Leads labelNames steps)
    (hreached : ∃ ms, m.Reached s.registry ms ∧ Got ms (s.held ++ [c]))
    (hopened : Valid m labelNames c.base →
      (∃ metric, m.registered? s.registry c.base = some metric) ∧
        ∀ labels, c.labelSet? = some labels → s.Opened c.base labels) :
    (s.hold s.registry c).Kept labelNames steps where
  reached := hreached
  filed := h.filed
  leads := List.forall_mem_append.2 ⟨h.leads, List.forall_mem_singleton.2 hc⟩
  registered := List.forall_mem_append.2
    ⟨h.registered, List.forall_mem_singleton.2 fun hvalid => (hopened hvalid).1⟩
  opened name metric hname labels hrow := h.opened_of_registered hname hrow
  values_eq base labels := by
    have hiff : Valid m labelNames base ∧ (s.hold s.registry c).Opened base labels ↔
        Valid m labelNames base ∧ s.Opened base labels := by
      refine and_congr_right fun hvalid => ?_
      rw [opened_hold, or_iff_left_of_imp]
      rintro ⟨rfl, hlabels⟩
      exact (hopened hvalid).2 labels hlabels
    rw [total_hold, if_congr hiff rfl rfl]
    exact h.values_eq base labels
  held := h.held_hold _

/-- A counter is held whose row is opened. -/
theorem hold_opens (h : s.Kept labelNames steps) (hsteps : Agreeing m labelNames steps)
    (hc : c ∈ s.held) (hcreated : Created m labelNames steps c.base) (hbehind : c.Behind metric)
    {given : List (String × Value)} {row : m.Instrument}
    (hreached : ∃ ms, m.Reached r (row :: ms) ∧ Got ms s.held)
    (hopens : m.Opens s.registry r (m.profile metric) (labelSet c.labelNames given) row) :
    (s.hold r (c.onRow given row)).Kept labelNames steps where
  reached := by
    obtain ⟨ms, hr, hms⟩ := hreached
    exact ⟨row :: ms, hr, hms.concat_some rfl⟩
  filed := h.filed.congr hopens.registered_eq
  leads := List.forall_mem_append.2 ⟨h.leads, List.forall_mem_singleton.2
    (.metric hcreated rfl (hbehind.onRow hopens))⟩
  registered := by
    have hkept : ∀ c ∈ s.held, Valid m labelNames c.base →
        ∃ metric, m.registered? r c.base = some metric := by
      intro c hc hvalid
      obtain ⟨metric, hmetric⟩ := h.registered c hc hvalid
      exact ⟨metric, (hopens.registered_eq _).trans hmetric⟩
    exact List.forall_mem_append.2 ⟨hkept, List.forall_mem_singleton.2 (hkept c hc)⟩
  opened name metric' hname labels hrow :=
    h.opened_of_registered ((hopens.registered_eq name).symm.trans hname) hrow
  values_eq base labels := by
    rw [total_hold, hold_registry]
    simp only [opened_hold, Counter.concerns_onRow]
    -- The law of the client tells the row itself, the other rows of its counter and the other
    -- counters apart.
    by_cases hbase : base = c.base
    · subst hbase
      have hself (labels : LabelSet) := h.values_eq c.base labels
      rw [← hbehind.sampleName_eq] at hself ⊢
      by_cases hlabels : labels = labelSet c.labelNames given
      · subst hlabels
        have hopen : Valid m labelNames c.base ∧ (s.Opened c.base (labelSet c.labelNames given) ∨
            c.base = c.base ∧ labelSet c.labelNames given = labelSet c.labelNames given) :=
          ⟨hcreated.valid, .inr ⟨rfl, rfl⟩⟩
        have hbefore := hself (labelSet c.labelNames given)
        rw [if_pos hopen, hopens.values_self]
        by_cases hopened : s.Opened c.base (labelSet c.labelNames given)
        · rw [if_pos ⟨hcreated.valid, hopened⟩] at hbefore
          rw [hbefore, if_neg (List.cons_ne_nil _ _)]
        · rw [if_neg fun hyes => hopened hyes.2] at hbefore
          rw [if_pos hbefore, h.total_eq_zero hopened]
      · rw [hopens.values_ne labels hlabels, hself]
        simp only [hlabels, and_false, or_false]
    · rw [hopens.values_eq _ (hbehind.total_notMem hsteps hcreated hbase), h.values_eq]
      simp only [Ne.symm hbase, false_and, or_false]
  held := h.held_hold _

/-- An amount is given that adds nothing to what can be told. -/
theorem book (h : s.Kept labelNames steps) (hc : c ∈ s.held) {amount : Value}
    (hnone : Valid m labelNames c.base → c.labelSet? = none ∨ addend? amount = none) :
    (s.book s.registry c amount).Kept labelNames steps where
  reached := h.reached
  filed := h.filed
  leads := h.leads
  registered := h.registered
  opened := h.opened
  values_eq base labels := by
    refine (h.values_eq base labels).trans (ite_congr rfl (fun hopened => ?_) fun _ => rfl)
    rw [total_book fun hconcerns => ?_]
    refine (hnone (hconcerns.1 ▸ hopened.1)).resolve_left ?_
    rw [hconcerns.2]
    exact Option.some_ne_none labels
  held := h.held_book hc _ _

/-- An amount is given that moves a row on. -/
theorem book_moves (h : s.Kept labelNames steps) (hsteps : Agreeing m labelNames steps)
    (hc : c ∈ s.held) (hcreated : Created m labelNames steps c.base) (hbehind : c.Behind metric)
    (hlabels : c.labelSet? = some labels) {amount : Value} {x : Float}
    (hx : addend? amount = some x)
    (hreached : ∃ ms, m.Reached r ms ∧ Got ms s.held)
    (hmoves : m.Moves s.registry r (m.profile metric) labels (s.total c.base labels + x)) :
    (s.book r c amount).Kept labelNames steps where
  reached := hreached
  filed := h.filed.congr hmoves.registered_eq
  leads := h.leads
  registered := by
    intro c hc hvalid
    obtain ⟨metric, hmetric⟩ := h.registered c hc hvalid
    exact ⟨metric, (hmoves.registered_eq _).trans hmetric⟩
  opened name metric' hname := h.opened name metric' ((hmoves.registered_eq name).symm.trans hname)
  values_eq base other := by
    show m.values r (base ++ totalMark) other =
      if Valid m labelNames base ∧ s.Opened base other then
      [(s.book r c amount).total base other] else []
    by_cases hbase : base = c.base
    · subst hbase
      have hself := h.values_eq c.base other
      rw [← hbehind.sampleName_eq] at hself ⊢
      by_cases hother : other = labels
      · subst hother
        have hopen : Valid m labelNames c.base ∧ s.Opened c.base other :=
          ⟨hcreated.valid, c, hc, rfl, hlabels⟩
        rw [if_pos hopen, hmoves.values_self, total_book_self ⟨rfl, hlabels⟩, hx]
        rfl
      · rw [hmoves.values_ne other hother, hself, total_book fun hconcerns => ?_]
        exact absurd (Option.some_inj.1 (hconcerns.2.symm.trans hlabels)) hother
    · rw [hmoves.values_eq _ (hbehind.total_notMem hsteps hcreated hbase), h.values_eq,
        total_book fun hconcerns => ?_]
      exact absurd hconcerns.1.symm hbase
  held := h.held_book hc _ _

/-! ### How steps end -/

/-- What the counter of a base shows is what was given to it. -/
theorem values_of_labelSet? (h : s.Kept labelNames steps) (hc : c ∈ s.held)
    (hvalid : Valid m labelNames c.base) (labels : LabelSet) (hlabels : c.labelSet? = some labels) :
    m.values s.registry (c.base ++ totalMark) labels = [s.total c.base labels] := by
  rw [h.values_eq, if_pos ⟨hvalid, c, hc, rfl, hlabels⟩]

/-- Labels are refused, or they are given to nothing, or they lead to a row of a metric. -/
theorem label_cases (h : s.Kept labelNames steps) (hm : m.Lawful) (hc : c ∈ s.held)
    (labels : List (String × Value)) :
    (∃ fault, s.label c labels = (s, .error fault) ∧
      (Valid m labelNames c.base → ¬(c.labelSet? = none ∧ Accepted c.labelNames labels))) ∨
    (¬Valid m labelNames c.base ∧ s.label c labels =
      (s.hold s.registry { c with labels := some labels, handle := ⟨.counter, none⟩ }, .ok ())) ∨
    ∃ metric r row, Created m labelNames steps c.base ∧ c.Behind metric ∧
      (c.labelSet? = none ∧ Accepted c.labelNames labels) ∧
      (∃ ms, m.Reached r (row :: ms) ∧ Got ms s.held) ∧
      m.Opens s.registry r (m.profile metric) (labelSet c.labelNames labels) row ∧
      s.label c labels = (s.hold r (c.onRow labels row), .ok ()) := by
  obtain ⟨ms, hr, hms⟩ := h.reached
  rw [Ledger.label]
  cases h.leads c hc with
  | void hvoid hhandle =>
    rw [hhandle]
    rcases Handle.labels_none .counter s.registry labels with ⟨fault, hlabels⟩ | hlabels
    · rw [hlabels]
      exact .inl ⟨fault, rfl, fun hvalid => absurd hvalid hvoid⟩
    · rw [hlabels]
      exact .inr (.inl ⟨hvoid, rfl⟩)
  | metric hcreated hhandle hbehind =>
    have hmem := hms c hc _ (congrArg Handle.metric hhandle)
    rcases hbehind.labels_cases hm hr hmem hhandle labels with
      ⟨fault, hlabels, hnot⟩ | ⟨r, row, hnone, haccepted, hrow, hlabels, hopens⟩
    · rw [hlabels]
      exact .inl ⟨fault, rfl, fun _ => hnot⟩
    · rw [hlabels]
      exact .inr (.inr ⟨_, r, row, hcreated, hbehind, ⟨hnone, haccepted⟩,
        ⟨ms, .labels hr hmem hrow, hms⟩, hopens, rfl⟩)

/-- An amount changes no metric, and is refused if one is behind the counter; or it moves on the row
of the counter. -/
theorem increase_cases (h : s.Kept labelNames steps) (hm : m.Lawful) (hc : c ∈ s.held)
    (amount : Value) :
    (∃ result, s.increase c amount = (s.book s.registry c amount, result) ∧
      (Valid m labelNames c.base →
        (∃ fault, result = .error fault) ∧ (c.labelSet? = none ∨ addend? amount = none))) ∨
    ∃ metric r labels x, Created m labelNames steps c.base ∧ c.Behind metric ∧
      c.labelSet? = some labels ∧ addend? amount = some x ∧
      (∃ ms, m.Reached r ms ∧ Got ms s.held) ∧
      m.Moves s.registry r (m.profile metric) labels (s.total c.base labels + x) ∧
      s.increase c amount = (s.book r c amount, .ok ()) := by
  obtain ⟨ms, hr, hms⟩ := h.reached
  rw [Ledger.increase]
  cases h.leads c hc with
  | void hvoid hhandle =>
    rw [hhandle]
    exact .inl ⟨_, rfl, fun hvalid => absurd hvalid hvoid⟩
  | metric hcreated hhandle hbehind =>
    have hmem := hms c hc _ (congrArg Handle.metric hhandle)
    have hy := h.values_of_labelSet? hc hcreated.valid
    rcases hbehind.increase_cases hm hr hmem hhandle hy amount
      with ⟨fault, hincrease, hnone⟩ | ⟨r, labels, x, hlabels, hx, hmove, hincrease, hmoves⟩
    · rw [hincrease]
      exact .inl ⟨_, rfl, fun _ => ⟨⟨fault, rfl⟩, hnone⟩⟩
    · rw [hincrease]
      exact .inr ⟨_, r, labels, x, hcreated, hbehind, hlabels, hx, ⟨ms, .move hr hmem hmove, hms⟩,
        hmoves, rfl⟩

/-! ### Steps -/

/-- A counter is held that is new in the registry. -/
theorem hold_creates (h : s.Kept labelNames steps) (hsteps : Consistent m labelNames steps)
    {name : String} {names : List String} (hmem : .create name names ∈ steps)
    (hvalid : Valid m labelNames (baseName .counter name))
    (hfree : ∀ other ∈ Kind.names .counter (baseName .counter name),
      m.registered? s.registry other = none)
    (hreached : ∃ ms, m.Reached r (metric :: ms) ∧ Got ms s.held)
    (hcreates : m.Creates s.registry r (.new .counter name names) metric) :
    (s.hold r { name, labelNames := names, handle := ⟨.counter, some metric⟩ }).Kept labelNames
      steps := by
  have hprofile := hcreates.profile_eq
  have hstands : m.Stands labelNames steps metric :=
    .new hsteps.toAgreeing hmem hvalid hprofile
  have hcreated : Created m labelNames steps (baseName .counter name) :=
    ⟨hvalid, name, names, hmem, rfl⟩
  have hbehind : Counter.Behind { name, labelNames := names, handle := ⟨.counter, some metric⟩ }
      metric := by
    refine Counter.behind_created hstands.kind_eq ?_ ?_ hstands.row_eq
    · rw [hprofile]; rfl
    · rw [hprofile]; rfl
  have hregistered (other : String) : m.registered? r other =
      if other ∈ (m.profile metric).names then some metric
      else m.registered? s.registry other := by
    rw [hprofile]
    exact hcreates.registered_eq other
  have hkept {other : String} {metric' : m.Instrument}
      (hold : m.registered? s.registry other = some metric') :
      m.registered? r other = some metric' := by
    rw [hcreates.registered_eq, if_neg, hold]
    intro hother
    cases (hfree other hother).symm.trans hold
  have hself : m.registered? r (baseName .counter name) = some metric := by
    rw [hcreates.registered_eq]
    exact if_pos (mem_names_counter.2 (.inl rfl))
  -- To a base that is new nothing was given, since amounts are given to what is held.
  have hclosed (labels : LabelSet) : ¬s.Opened (baseName .counter name) labels := by
    rintro ⟨c, hc, hbase, -⟩
    obtain ⟨metric', hmetric'⟩ := h.registered c hc (hbase ▸ hvalid)
    cases (hfree _ (mem_names_counter.2 (.inl rfl))).symm.trans (hbase ▸ hmetric')
  exact {
    reached := by
      obtain ⟨ms, hr, hms⟩ := hreached
      exact ⟨metric :: ms, hr, hms.concat_some rfl⟩
    filed := h.filed.create hstands (by rw [hprofile]; exact hfree) hregistered
    leads := List.forall_mem_append.2
      ⟨h.leads, List.forall_mem_singleton.2 (.metric hcreated rfl hbehind)⟩
    registered := List.forall_mem_append.2
      ⟨fun c hc hvalid' => let ⟨metric', hold⟩ := h.registered c hc hvalid'; ⟨metric', hkept hold⟩,
        List.forall_mem_singleton.2 fun _ => ⟨metric, hself⟩⟩
    opened := by
      intro other metric' hother labels hrow
      rw [hold_registry, hregistered] at hother
      split at hother
      · obtain rfl := Option.some_inj.1 hother
        exact opened_hold.2 (.inr ⟨hbehind.base_eq.symm, hbehind.row_eq.symm.trans hrow⟩)
      · exact h.opened_of_registered hother hrow
    values_eq := by
      intro base labels
      rw [hold_registry, total_hold]
      by_cases hbase : base = baseName .counter name
      · subst hbase
        have hiff : (Profile.new .counter name names).row = some labels ↔
            Valid m labelNames (baseName .counter name) ∧ (s.hold r
              { name, labelNames := names, handle := ⟨.counter, some metric⟩ }).Opened
                (baseName .counter name) labels := by
          rw [opened_hold, or_iff_right (hclosed labels), and_iff_right hvalid, ← hprofile,
            hbehind.row_eq]
          exact (and_iff_right rfl).symm
        rw [h.total_eq_zero (hclosed labels), ← if_congr hiff rfl rfl]
        exact hcreates.values_self labels
      · have hname : base ++ totalMark ∉ (Profile.new .counter name names).names := fun hmem =>
          hbase (hcreated.eq_of_total_mem hsteps.toAgreeing hmem)
        rw [hcreates.values_eq _ hname, h.values_eq]
        simp only [opened_hold, Counter.concerns_created, Ne.symm hbase, false_and, or_false]
    held := h.held_hold _ }

theorem create (h : s.Kept labelNames steps) (hm : m.Lawful)
    (hsteps : Consistent m labelNames steps)
    {name : String} {names : List String} (hmem : .create name names ∈ steps) :
    (s.create name names).Kept labelNames steps := by
  have hend := (hsteps.ending name names hmem).1
  obtain ⟨ms, hr, hms⟩ := h.reached
  have hnew := hm.construct_eq_none_iff s.registry ms hr .counter name names
  rw [Ledger.create, Handle.create]
  by_cases hvalid : Valid m labelNames (baseName .counter name)
  · have hcreated : Created m labelNames steps (baseName .counter name) :=
      ⟨hvalid, name, names, hmem, rfl⟩
    have hnames := hsteps.labelNames_perm name names hmem hvalid.1
    cases hold : m.registered? s.registry (baseName .counter name) with
    | some metric =>
      have hnone : m.construct s.registry .counter name names = none := hnew.2 fun hyes => by
        cases hold.symm.trans (hyes.2.2 _ (mem_names_counter.2 (.inl rfl)))
      have hstands := h.filed.stands _ _ hold
      have hbase := h.filed.base_eq hsteps hcreated hold
      rw [hnone, h.filed.registeredAs?_eq hold hbase]
      have hbehind : Counter.Behind
          { name, labelNames := names, handle := ⟨.counter, some metric⟩ } metric :=
        Counter.behind_created hstands.kind_eq hbase
          (hnames.trans (hbase ▸ hstands.labelNames_perm.symm)) hstands.row_eq
      refine h.hold (.metric hcreated rfl hbehind)
        ⟨metric :: ms, .registered hr hold, hms.concat_some rfl⟩
        fun _ => ⟨⟨metric, hold⟩, fun labels hlabels => ?_⟩
      have hopened := h.opened _ _ hold labels (hbehind.row_eq.trans hlabels)
      rwa [hbase] at hopened
    | none =>
      have hfree : ∀ other ∈ Kind.names .counter (baseName .counter name),
          m.registered? s.registry other = none :=
        fun other => h.filed.registered?_eq_none hsteps hcreated hold
      cases hconstruct : m.construct s.registry .counter name names with
      | none =>
        refine absurd ⟨hvalid.1, ?_, hfree⟩ (hnew.1 hconstruct)
        rw [hm.validLabels_perm _ _ _ hnames]
        exact hvalid.2
      | some created =>
        obtain ⟨r, metric⟩ := created
        exact h.hold_creates hsteps hmem hvalid hfree ⟨ms, .construct hr hconstruct, hms⟩
          (hm.creates _ ms hr _ _ _ _ _ hconstruct)
  · have hnone : m.construct s.registry .counter name names = none := by
      refine hnew.2 fun hyes => hvalid ⟨hyes.1, ?_⟩
      rw [← hm.validLabels_perm _ _ _ (hsteps.labelNames_perm name names hmem hyes.1)]
      exact hyes.2.1
    rw [hnone, h.filed.registeredAs?_eq_none hsteps.toAgreeing hend hvalid]
    exact h.hold (.void hvalid rfl) ⟨ms, hr, hms.concat_none rfl⟩
      fun hvalid' => absurd hvalid' hvalid

theorem label (h : s.Kept labelNames steps) (hm : m.Lawful) (hsteps : Consistent m labelNames steps)
    (hc : c ∈ s.held) (labels : List (String × Value)) :
    (s.label c labels).1.Kept labelNames steps := by
  rcases h.label_cases hm hc labels with
    ⟨fault, hlabel, -⟩ | ⟨hvoid, hlabel⟩ |
      ⟨metric, r, row, hcreated, hbehind, -, hreached, hopens, hlabel⟩ <;> rw [hlabel]
  · exact h
  · obtain ⟨ms, hr, hms⟩ := h.reached
    exact h.hold (.void hvoid rfl) ⟨ms, hr, hms.concat_none rfl⟩ fun hvalid => absurd hvalid hvoid
  · exact h.hold_opens hsteps.toAgreeing hc hcreated hbehind hreached hopens

theorem increase (h : s.Kept labelNames steps) (hm : m.Lawful)
    (hsteps : Consistent m labelNames steps) (hc : c ∈ s.held) (amount : Value) :
    (s.increase c amount).1.Kept labelNames steps := by
  rcases h.increase_cases hm hc amount with
    ⟨result, hincrease, hnone⟩ |
      ⟨metric, r, labels, x, hcreated, hbehind, hlabels, hx, hreached, hmoves, hincrease⟩ <;>
    rw [hincrease]
  · exact h.book hc fun hvalid => (hnone hvalid).2
  · exact h.book_moves hsteps.toAgreeing hc hcreated hbehind hlabels hx hreached hmoves

theorem perform (h : s.Kept labelNames steps) (hm : m.Lawful)
    (hsteps : Consistent m labelNames steps) {step : Step} (hmem : step ∈ steps) :
    (s.perform step).1.Kept labelNames steps := by
  cases step with
  | create name names => exact h.create hm hsteps hmem
  | label place labels =>
    rw [Ledger.perform]
    cases hc : s.held[place]? with
    | none => exact h
    | some c => exact h.label hm hsteps (List.mem_of_getElem? hc) labels
  | increase place amount =>
    rw [Ledger.perform]
    cases hc : s.held[place]? with
    | none => exact h
    | some c => exact h.increase hm hsteps (List.mem_of_getElem? hc) amount

/-- What holds at every step, holds after any number of them. -/
theorem after (h : s.Kept labelNames steps) (hm : m.Lawful)
    (hsteps : Consistent m labelNames steps) {done : List Step} (hdone : done ⊆ steps) :
    (s.after done).Kept labelNames steps := by
  induction done generalizing s with
  | nil => exact h
  | cons step done ih =>
    obtain ⟨hstep, hdone⟩ := List.cons_subset.1 hdone
    exact ih (h.perform hm hsteps hstep) hdone

/-! ### Single steps -/

/-- Just the counters of bases that cannot be had have nothing behind them. -/
theorem metric_eq_none_iff (h : s.Kept labelNames steps) (hc : c ∈ s.held) :
    c.handle.metric = none ↔ ¬Valid m labelNames c.base := by
  cases h.leads c hc with
  | void hvoid hhandle =>
    rw [hhandle]
    exact iff_of_true rfl hvoid
  | metric hcreated hhandle _ =>
    rw [hhandle]
    exact iff_of_false nofun fun hvoid => hvoid hcreated.valid

/-- Labels are taken where they are missing, if they are the right ones. -/
theorem label_eq_ok_iff (h : s.Kept labelNames steps) (hm : m.Lawful) (hc : c ∈ s.held)
    (hvalid : Valid m labelNames c.base) (labels : List (String × Value)) :
    (s.label c labels).2 = .ok () ↔ c.labelSet? = none ∧ Accepted c.labelNames labels := by
  rcases h.label_cases hm hc labels with
    ⟨fault, hlabel, hnot⟩ | ⟨hvoid, -⟩ | ⟨metric, r, row, -, -, hyes, -, -, hlabel⟩
  · rw [hlabel]
    exact iff_of_false nofun (hnot hvalid)
  · exact absurd hvalid hvoid
  · rw [hlabel]
    exact iff_of_true rfl hyes

/-- A counter is moved on if no labels are missing and the amount adds something. -/
theorem increase_eq_ok_iff (h : s.Kept labelNames steps) (hm : m.Lawful) (hc : c ∈ s.held)
    (hvalid : Valid m labelNames c.base) (amount : Value) :
    (s.increase c amount).2 = .ok () ↔ c.labelSet? ≠ none ∧ addend? amount ≠ none := by
  rcases h.increase_cases hm hc amount with
    ⟨result, hincrease, hnone⟩ | ⟨metric, r, labels, x, -, -, hlabels, hx, -, -, hincrease⟩
  · obtain ⟨⟨fault, rfl⟩, hreason⟩ := hnone hvalid
    rw [hincrease]
    refine iff_of_false nofun fun hyes => ?_
    rcases hreason with hlabels | hx
    · exact hyes.1 hlabels
    · exact hyes.2 hx
  · rw [hincrease, hlabels, hx]
    exact iff_of_true rfl ⟨Option.some_ne_none _, Option.some_ne_none x⟩

/-- Labels that are refused change no metric. -/
theorem registry_label (h : s.Kept labelNames steps) (hm : m.Lawful) (hc : c ∈ s.held)
    {labels : List (String × Value)} {fault : Fault}
    (herror : (s.label c labels).2 = .error fault) :
    (s.label c labels).1.registry = s.registry := by
  rcases h.label_cases hm hc labels with
    ⟨fault', hlabel, -⟩ | ⟨-, hlabel⟩ | ⟨metric, r, row, -, -, -, -, -, hlabel⟩
  · rw [hlabel]
  · rw [hlabel]
    rfl
  · rw [hlabel] at herror
    cases herror

/-- An amount that is refused changes no metric. -/
theorem registry_increase (h : s.Kept labelNames steps) (hm : m.Lawful) (hc : c ∈ s.held)
    {amount : Value} {fault : Fault} (herror : (s.increase c amount).2 = .error fault) :
    (s.increase c amount).1.registry = s.registry := by
  rcases h.increase_cases hm hc amount with
    ⟨result, hincrease, -⟩ | ⟨metric, r, labels, x, -, -, -, -, -, -, hincrease⟩
  · rw [hincrease]
    rfl
  · rw [hincrease] at herror
    cases herror

/-- A step that fails changes no metric. -/
theorem registry_perform (h : s.Kept labelNames steps) (hm : m.Lawful) {step : Step} {fault : Fault}
    (herror : (s.perform step).2 = .error fault) : (s.perform step).1.registry = s.registry := by
  cases step with
  | create name names => cases herror
  | label place labels =>
    rw [Ledger.perform] at herror ⊢
    cases hplace : s.held[place]? with
    | none => rfl
    | some c =>
      rw [hplace] at herror
      exact h.registry_label hm (List.mem_of_getElem? hplace) herror
  | increase place amount =>
    rw [Ledger.perform] at herror ⊢
    cases hplace : s.held[place]? with
    | none => rfl
    | some c =>
      rw [hplace] at herror
      exact h.registry_increase hm (List.mem_of_getElem? hplace) herror

/-- Labels change no sample, and there is at most a new one, with zero. -/
theorem values_label (h : s.Kept labelNames steps) (hm : m.Lawful)
    (hsteps : Consistent m labelNames steps) (hc : c ∈ s.held) (labels : List (String × Value)) :
    (∀ name row, m.values s.registry name row ≠ [] →
      m.values (s.label c labels).1.registry name row = m.values s.registry name row) ∧
    ∀ base row, m.values s.registry (base ++ totalMark) row = [] →
      m.values (s.label c labels).1.registry (base ++ totalMark) row = [] ∨
        m.values (s.label c labels).1.registry (base ++ totalMark) row = [0] := by
  rcases h.label_cases hm hc labels with
    ⟨fault, hlabel, -⟩ | ⟨-, hlabel⟩ |
      ⟨metric, r, row, hcreated, hbehind, -, -, hopens, hlabel⟩ <;> rw [hlabel]
  · exact ⟨fun _ _ _ => rfl, fun _ _ hnil => .inl hnil⟩
  · exact ⟨fun _ _ _ => rfl, fun _ _ hnil => .inl hnil⟩
  · refine ⟨hopens.values_kept, fun base other hnil => ?_⟩
    by_cases hbase : base = c.base
    · subst hbase
      rw [← hbehind.sampleName_eq] at hnil ⊢
      by_cases hother : other = labelSet c.labelNames labels
      · subst hother
        exact .inr (hopens.values_self.trans (if_pos hnil))
      · exact .inl ((hopens.values_ne other hother).trans hnil)
    · have hname := hbehind.total_notMem hsteps.toAgreeing hcreated hbase
      exact .inl ((hopens.values_eq _ hname other).trans hnil)

end Ledger.Kept

/-- Where nothing is behind a counter, no step on it changes a metric. -/
theorem Ledger.registry_of_void (s : Ledger m) {c : Counter m} (hnone : c.handle.metric = none)
    (labels : List (String × Value)) (amount : Value) :
    (s.label c labels).1.registry = s.registry ∧ (s.increase c amount).1.registry = s.registry := by
  have hhandle : c.handle = ⟨c.handle.kind, none⟩ := by rw [← hnone]
  rw [Ledger.label, Ledger.increase, hhandle]
  constructor
  · rcases Handle.labels_none c.handle.kind s.registry labels with ⟨fault, hlabels⟩ | hlabels <;>
      rw [hlabels]
    rfl
  · exact Handle.increase_none c.handle.kind s.registry amount

/-! ## The main theorem -/

/-- What is read of counters is what was given to them: nothing is lost, nothing counted twice. -/
structure Ledger.Faithful (labelNames : String → List String) (s : Ledger m) : Prop where
  /-- For each base and label set that counters were asked for with, there is one sample, and its
  value is what these counters were given, added up. -/
  sample : ∀ base labels, m.values s.registry (base ++ totalMark) labels =
    if Valid m labelNames base ∧ s.Opened base labels then [sum (s.given base labels)] else []
  /-- Whole amounts come to the exact sum of those that are not negative, up to `2 ^ 53`. -/
  whole : ∀ base labels ns, List.Forall₂ IsNumber (s.given base labels) ns →
    (ns.map Int.toNat).sum ≤ 2 ^ 53 →
      Decimal.IsWhole (sum (s.given base labels)) (ns.map Int.toNat).sum
  /-- Labels are taken where they are missing, if they are the right ones. -/
  label_iff : ∀ c ∈ s.held, Valid m labelNames c.base → ∀ labels,
    (s.label c labels).2 = .ok () ↔ c.labelSet? = none ∧ Accepted c.labelNames labels
  /-- A counter is moved on where no labels are missing, if the amount adds something. -/
  increase_iff : ∀ c ∈ s.held, Valid m labelNames c.base → ∀ amount,
    (s.increase c amount).2 = .ok () ↔ c.labelSet? ≠ none ∧ addend? amount ≠ none
  /-- A step that fails changes no sample. -/
  failed : ∀ step fault, (s.perform step).2 = .error fault →
    (s.perform step).1.registry = s.registry
  /-- Labels change no sample. -/
  labelled : ∀ c ∈ s.held, ∀ labels name row, m.values s.registry name row ≠ [] →
    m.values (s.label c labels).1.registry name row = m.values s.registry name row
  /-- A sample that comes with labels shows zero. -/
  labelled_new : ∀ c ∈ s.held, ∀ labels base row, m.values s.registry (base ++ totalMark) row = [] →
    m.values (s.label c labels).1.registry (base ++ totalMark) row = [] ∨
      m.values (s.label c labels).1.registry (base ++ totalMark) row = [0]
  /-- Just the counters that cannot be created have nothing behind them. -/
  void_iff : ∀ c ∈ s.held, c.handle.metric = none ↔ ¬Valid m labelNames c.base
  /-- Where nothing is behind a counter, no step on it changes a sample. -/
  void : ∀ c ∈ s.held, c.handle.metric = none → ∀ labels amount,
    (s.label c labels).1.registry = s.registry ∧ (s.increase c amount).1.registry = s.registry

/-- With any client that does what it says, counters keep their counts and do not split them,
however often they are created again under both spellings of their names. -/
theorem created_again_counters_keep_counts (m : Client) (hm : m.Lawful)
    (labelNames : String → List String) (steps : List Ledger.Step)
    (h : Consistent m labelNames steps) :
    ((Ledger.fresh m).after steps).Faithful labelNames := by
  have hkept := (Ledger.Kept.fresh hm).after hm h (List.Subset.refl steps)
  exact {
    sample := hkept.values_eq
    whole := fun base labels ns hns hsum => by
      rw [sum_eq hns hsum]
      exact (Decimal.isWhole_ofQuotient_iff hsum).2 rfl
    label_iff := fun c hc hvalid labels => hkept.label_eq_ok_iff hm hc hvalid labels
    increase_iff := fun c hc hvalid amount => hkept.increase_eq_ok_iff hm hc hvalid amount
    failed := fun step fault herror => hkept.registry_perform hm herror
    labelled := fun c hc labels => (hkept.values_label hm h hc labels).1
    labelled_new := fun c hc labels => (hkept.values_label hm h hc labels).2
    void_iff := fun c hc => hkept.metric_eq_none_iff hc
    void := fun c _ hnone => Ledger.registry_of_void _ hnone }

/-- The ledger of counters in memory after steps. -/
def inMemory (steps : List Ledger.Step) : Ledger Store.client :=
  (Ledger.fresh Store.client).after steps

/-- Hits are counted under both spellings of a name, with the label names in either order, and again
after the counter was created once more.  In between there are a step back, a step without labels
and a step on a counter that has no name. -/
def hitSteps : List Ledger.Step :=
  [.create "hits" ["code", "path"], .create "hits_total" ["path", "code"],
    .label 0 [("path", .text "/"), ("code", .int 200)],
    .label 1 [("code", .int 200), ("path", .text "/")],
    .increase 2 (.int 3), .increase 3 (.int 4), .increase 3 (.int (-1)), .increase 0 (.int 5),
    .create "_total" [], .increase 4 (.int 9),
    .create "hits" ["code", "path"], .label 5 [("code", .text "200"), ("path", .text "/")],
    .increase 6 (.bool true)]

theorem both_spellings_count_together :
    Store.client.Lawful ∧ Consistent Store.client (fun _ => ["code", "path"]) hitSteps ∧
      Store.client.values (inMemory hitSteps).registry "hits_total"
        [("code", "200"), ("path", "/")] = [Decimal.ofQuotient false 8 1] := by
  have hconsistent : Consistent Store.client (fun _ => ["code", "path"]) hitSteps :=
    Agreeing.consistent (by decide) (by decide)
  have hfaithful : (inMemory hitSteps).Faithful fun _ => ["code", "path"] :=
    created_again_counters_keep_counts Store.client Store.lawful _ hitSteps hconsistent
  have hsample := hfaithful.sample "hits" [("code", "200"), ("path", "/")]
  -- The three ways to give the labels lead to one label set.
  have hfirst : labelSet ["code", "path"] [("path", .text "/"), ("code", .int 200)] =
      [("code", "200"), ("path", "/")] := labelSet_eq (by decide) (by decide)
  have hsecond : labelSet ["path", "code"] [("code", .int 200), ("path", .text "/")] =
      [("code", "200"), ("path", "/")] := labelSet_eq (by decide) (by decide)
  have hthird : labelSet ["code", "path"] [("code", .text "200"), ("path", .text "/")] =
      [("code", "200"), ("path", "/")] := labelSet_eq (by decide) (by decide)
  have hbase : baseName .counter "hits" = "hits" := by decide
  have htotal : baseName .counter "hits_total" = "hits" := baseName_append_total "hits"
  let parent : Item := ⟨.counter, "hits", ["code", "path"], none⟩
  let row : Item := { parent with given := some [("code", "200"), ("path", "/")] }
  have hamounts : (inMemory hitSteps).amounts =
      [(⟨"hits", ["code", "path"], some [("path", .text "/"), ("code", .int 200)],
          ⟨.counter, some row⟩⟩, .int 3),
        (⟨"hits_total", ["path", "code"], some [("code", .int 200), ("path", .text "/")],
          ⟨.counter, some row⟩⟩, .int 4),
        (⟨"hits_total", ["path", "code"], some [("code", .int 200), ("path", .text "/")],
          ⟨.counter, some row⟩⟩, .int (-1)),
        (⟨"hits", ["code", "path"], none, ⟨.counter, some parent⟩⟩, .int 5),
        (⟨"_total", [], none, ⟨.counter, none⟩⟩, .int 9),
        (⟨"hits", ["code", "path"], some [("code", .text "200"), ("path", .text "/")],
          ⟨.counter, some row⟩⟩, .bool true)] := rfl
  have hgiven : (inMemory hitSteps).given "hits" [("code", "200"), ("path", "/")] =
      [.int 3, .int 4, .int (-1), .bool true] := by
    rw [Ledger.given, hamounts]
    simp [Counter.Concerns, Counter.base, Counter.labelSet?, hfirst, hsecond, hthird, hbase, htotal]
  have hopened : (inMemory hitSteps).Opened "hits" [("code", "200"), ("path", "/")] := by
    have hheld : (inMemory hitSteps).held[2]? =
        some ⟨"hits", ["code", "path"], some [("path", .text "/"), ("code", .int 200)],
          ⟨.counter, some row⟩⟩ := rfl
    exact ⟨_, List.mem_of_getElem? hheld, hbase, congrArg some hfirst⟩
  have hnumbers : List.Forall₂ IsNumber [.int 3, .int 4, .int (-1), .bool true] [3, 4, -1, 1] :=
    .cons (.int 3) (.cons (.int 4) (.cons (.int (-1)) (.cons (.bool true) .nil)))
  rw [if_pos ⟨by decide, hopened⟩, hgiven, sum_eq hnumbers (by decide)] at hsample
  exact ⟨Store.lawful, hconsistent, hsample⟩

/-! ## Where counts are lost -/

/-- A counter whose base is another one with `_created` at its end. -/
def clashingSteps : List Ledger.Step :=
  [.create "a" [], .create "a_created_total" [], .increase 1 (.int 1)]

/-- A counter with a label whose name is kept back. -/
def reservedSteps : List Ledger.Step :=
  [.create "a" ["__x"], .label 0 [("__x", .text "v")], .increase 1 (.int 1)]

/-- A counter that is moved on to where doubles are two apart, and from there by ones. -/
def roundedSteps : List Ledger.Step :=
  [.create "a" [], .increase 0 (.int 9007199254740992), .increase 0 (.int 1), .increase 0 (.int 1)]

/-- That names agree is not enough: what is given to a counter whose name is taken, or whose label
is kept back, goes nowhere, and doubles round. -/
theorem agreeing_counters_may_lose_counts :
    (Agreeing Store.client (fun _ => []) clashingSteps ∧
      (inMemory clashingSteps).given "a_created" [] = [.int 1] ∧
      Store.client.values (inMemory clashingSteps).registry "a_created_total" [] = []) ∧
    (Agreeing Store.client (fun _ => ["__x"]) reservedSteps ∧
      (inMemory reservedSteps).given "a" [("__x", "v")] = [.int 1] ∧
      Store.client.values (inMemory reservedSteps).registry "a_total" [("__x", "v")] = []) ∧
    (Agreeing Store.client (fun _ => []) roundedSteps ∧
      (inMemory roundedSteps).given "a" [] = [.int 9007199254740992, .int 1, .int 1] ∧
      ∃ x, Store.client.values (inMemory roundedSteps).registry "a_total" [] = [x] ∧
        ¬Decimal.IsWhole x 9007199254740994) := by
  have hbase : baseName .counter "a" = "a" := by decide
  refine ⟨⟨by decide, rfl, ?_⟩, ⟨by decide, ?_, rfl⟩, ⟨by decide, rfl, ?_⟩⟩
  · have hrows : (inMemory clashingSteps).registry.rows =
        [{ place := Store.placeOf (.new .counter "a" []) [] }] := rfl
    rw [Store.client_values (inMemory clashingSteps).registry]
    show (inMemory clashingSteps).registry.rows.flatMap _ = []
    rw [hrows, List.flatMap_singleton]
    exact Row.valuesAt_of_name_notMem (by decide) []
  · have hamounts : (inMemory reservedSteps).amounts =
        [(⟨"a", ["__x"], some [("__x", .text "v")], ⟨.counter, none⟩⟩, .int 1)] := rfl
    have hlabels : labelSet ["__x"] [("__x", .text "v")] = [("__x", "v")] :=
      labelSet_eq (by decide) (by decide)
    rw [Ledger.given, hamounts]
    simp [Counter.Concerns, Counter.base, Counter.labelSet?, hlabels, hbase]
  · have hagreeing : Agreeing Store.client (fun _ => []) roundedSteps := by decide
    have hkept := (Ledger.Kept.fresh Store.lawful).after Store.lawful
      (hagreeing.consistent (by decide)) (List.Subset.refl roundedSteps)
    have hopened : (inMemory roundedSteps).Opened "a" [] := by
      have hheld : (inMemory roundedSteps).held[0]? =
          some ⟨"a", [], none, ⟨.counter, some (.new .counter "a" [])⟩⟩ := rfl
      exact ⟨_, List.mem_of_getElem? hheld, hbase, rfl⟩
    have hsample := hkept.values_eq "a" []
    rw [if_pos ⟨by decide, hopened⟩] at hsample
    have htotal : (inMemory roundedSteps).total "a" [] = Decimal.ofQuotient false (2 ^ 53) 1 := rfl
    refine ⟨_, hsample, ?_⟩
    show ¬Decimal.IsWhole ((inMemory roundedSteps).total "a" []) _
    rw [htotal, Decimal.isWhole_ofQuotient_iff (Nat.le_refl _)]
    decide

end Concordance.Metric
