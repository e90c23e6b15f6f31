import Concordance.Metric.Law
import Concordance.Proofs.Metric.Naming

/-!
# Registered counters

Where the names of all counters agree, a name leads to the counter of its base and to no other one.

* `Client.Stands` — a counter that some step creates.
* `Client.Filed` — a registry in which each name leads to the counter of its base.
* `Filed.registeredAs?_eq`, `Filed.registeredAs?_eq_none` — whoever asks for a name gets the counter
  of its base, if there can be one.
* `Filed.create` — that stays so with a counter that is created.
-/

namespace Concordance.Metric

variable {m : Client} {labelNames : String → List String} {steps : List Ledger.Step}

/-- A counter that some step creates, without labels. -/
structure Client.Stands (m : Client) (labelNames : String → List String) (steps : List Ledger.Step)
    (metric : m.Instrument) : Prop where
  kind_eq : (m.profile metric).kind = .counter
  created : Created m labelNames steps (m.profile metric).base
  labelNames_perm : (m.profile metric).labelNames.Perm (labelNames (m.profile metric).base)
  row_eq : (m.profile metric).row = if (m.profile metric).labelNames.isEmpty then some [] else none

/-- Names lead to counters that steps create, and all names of a counter lead to it. -/
structure Client.Filed (m : Client) (labelNames : String → List String) (steps : List Ledger.Step)
    (r : m.Registry) : Prop where
  stands : ∀ name metric, m.registered? r name = some metric → m.Stands labelNames steps metric
  mem_names : ∀ name metric, m.registered? r name = some metric → name ∈ (m.profile metric).names
  registered : ∀ name metric, m.registered? r name = some metric →
    ∀ other ∈ (m.profile metric).names, m.registered? r other = some metric

theorem Client.Stands.new {metric : m.Instrument} {name : String} {names : List String}
    (hsteps : Agreeing m labelNames steps) (hmem : .create name names ∈ steps)
    (hvalid : Valid m labelNames (baseName .counter name))
    (hprofile : m.profile metric = .new .counter name names) :
    m.Stands labelNames steps metric where
  kind_eq := by rw [hprofile]; rfl
  created := by
    rw [hprofile]
    exact ⟨hvalid, name, names, hmem, rfl⟩
  labelNames_perm := by
    rw [hprofile]
    exact hsteps.labelNames_perm name names hmem hvalid.1
  row_eq := by rw [hprofile]; rfl

namespace Client.Filed

variable {r r' : m.Registry} {metric : m.Instrument} {name base : String} {names : List String}

theorem fresh (hm : m.Lawful) : m.Filed labelNames steps m.fresh where
  stands name metric h := by cases (hm.registered_fresh name).symm.trans h
  mem_names name metric h := by cases (hm.registered_fresh name).symm.trans h
  registered name metric h := by cases (hm.registered_fresh name).symm.trans h

theorem congr (h : m.Filed labelNames steps r)
    (heq : ∀ name, m.registered? r' name = m.registered? r name) :
    m.Filed labelNames steps r' where
  stands name metric hname := h.stands name metric (heq name ▸ hname)
  mem_names name metric hname := h.mem_names name metric (heq name ▸ hname)
  registered name metric hname other hother :=
    (heq other).trans (h.registered name metric (heq name ▸ hname) other hother)

theorem mem_names_counter (h : m.Filed labelNames steps r)
    (hname : m.registered? r name = some metric) :
    name ∈ Kind.names .counter (m.profile metric).base := by
  have hmem := h.mem_names name metric hname
  rwa [Profile.names, (h.stands name metric hname).kind_eq] at hmem

/-- What is behind a name is behind its base. -/
theorem registered_base (h : m.Filed labelNames steps r) (hsteps : Agreeing m labelNames steps)
    (hend : ¬EndsIn name "_created") (hname : m.registered? r name = some metric) :
    (m.profile metric).base = baseName .counter name :=
  (((h.stands name metric hname).created.mem_names_iff hsteps hend).1
    (h.mem_names_counter hname)).symm

theorem base_eq (h : m.Filed labelNames steps r) (hsteps : Consistent m labelNames steps)
    (hbase : Created m labelNames steps base) (hmetric : m.registered? r base = some metric) :
    (m.profile metric).base = base :=
  (h.stands base metric hmetric).created.eq_of_mem hbase hsteps (h.mem_names_counter hmetric)
    (Metric.mem_names_counter.2 (.inl rfl))

/-- The names of a base that is not there are free. -/
theorem registered?_eq_none (h : m.Filed labelNames steps r)
    (hsteps : Consistent m labelNames steps) (hbase : Created m labelNames steps base)
    (hnone : m.registered? r base = none)
    (hname : name ∈ Kind.names .counter base) : m.registered? r name = none := by
  by_contra hne
  obtain ⟨metric, hmetric⟩ := Option.ne_none_iff_exists'.1 hne
  have hstands := h.stands name metric hmetric
  have heq := hstands.created.eq_of_mem hbase hsteps (h.mem_names_counter hmetric) hname
  have hself : base ∈ (m.profile metric).names := by
    rw [Profile.names, hstands.kind_eq, heq]
    exact Metric.mem_names_counter.2 (.inl rfl)
  cases hnone.symm.trans (h.registered name metric hmetric base hself)

/-- Whoever asks for a base that is there gets the counter that has it. -/
theorem registeredAs?_eq (h : m.Filed labelNames steps r)
    (hbase : m.registered? r (baseName .counter name) = some metric)
    (hmetric : (m.profile metric).base = baseName .counter name) :
    Handle.registeredAs? m r name = some metric := by
  have hmem : name ∈ (m.profile metric).names := by
    rw [Profile.names, (h.stands _ _ hbase).kind_eq, hmetric]
    rcases eq_base_or name with ⟨-, heq⟩ | heq
    · exact Metric.mem_names_counter.2 (.inl heq)
    · exact Metric.mem_names_counter.2 (.inr (.inl heq))
  rw [Handle.registeredAs?, h.registered _ _ hbase name hmem, Option.some_or]

/-- Where no counter can be created with a base, nothing is behind its names. -/
theorem registeredAs?_eq_none (h : m.Filed labelNames steps r)
    (hsteps : Agreeing m labelNames steps) (hend : ¬EndsIn name "_created")
    (hvoid : ¬Valid m labelNames (baseName .counter name)) :
    Handle.registeredAs? m r name = none := by
  have hown : m.registered? r name = none := by
    by_contra hne
    obtain ⟨metric, hmetric⟩ := Option.ne_none_iff_exists'.1 hne
    exact hvoid (h.registered_base hsteps hend hmetric ▸ (h.stands _ _ hmetric).created.valid)
  have htotal : m.registered? r (name ++ totalMark) = none := by
    by_contra hne
    obtain ⟨metric, hmetric⟩ := Option.ne_none_iff_exists'.1 hne
    have hstands := h.stands _ _ hmetric
    have heq := hstands.created.eq_of_total_mem hsteps (h.mem_names_counter hmetric)
    have hself : baseName .counter name = name :=
      baseName_of_not_endsIn (heq ▸ hstands.created.not_endsIn hsteps)
    rw [hself, heq] at hvoid
    exact hvoid hstands.created.valid
  rw [Handle.registeredAs?, hown, htotal]
  rfl

/-- A counter with a new base takes the names of that base. -/
theorem create (h : m.Filed labelNames steps r) (hstands : m.Stands labelNames steps metric)
    (hfree : ∀ name ∈ (m.profile metric).names, m.registered? r name = none)
    (heq : ∀ name, m.registered? r' name =
      if name ∈ (m.profile metric).names then some metric else m.registered? r name) :
    m.Filed labelNames steps r' := by
  -- A name is one of the new names, which were free, or it leads where it led before.
  have hcases {name : String} {metric' : m.Instrument}
      (hname : m.registered? r' name = some metric') :
      name ∈ (m.profile metric).names ∧ metric' = metric ∨
        m.registered? r name = some metric' := by
    rw [heq] at hname
    split at hname
    · exact .inl ⟨‹_›, (Option.some_inj.1 hname).symm⟩
    · exact .inr hname
  refine ⟨fun name metric' hname => ?_, fun name metric' hname => ?_,
    fun name metric' hname other hother => ?_⟩
  · rcases hcases hname with ⟨-, rfl⟩ | hold
    · exact hstands
    · exact h.stands name metric' hold
  · rcases hcases hname with ⟨hmem, rfl⟩ | hold
    · exact hmem
    · exact h.mem_names name metric' hold
  · rw [heq]
    rcases hcases hname with ⟨-, rfl⟩ | hold
    · rw [if_pos hother]
    · have hregistered := h.registered name metric' hold other hother
      have hnot : other ∉ (m.profile metric).names := fun hmem => by
        cases (hfree other hmem).symm.trans hregistered
      rw [if_neg hnot, hregistered]

end Client.Filed

end Concordance.Metric
