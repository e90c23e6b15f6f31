import Concordance.Metric.Ledger
import Mathlib.Data.List.Infix

/-!
# Names of counters

A name is its base, or its base with `_total`.  Where the names of all counters agree, a name leads
to the counter of its base and to no other one.

* `EndsIn`, `eq_base_or` — the end of a name, and the two spellings of a base.
* `Valid` — a counter can be created with a base.
* `Agreeing`, `Consistent` — steps whose names agree, and whose bases are apart.
* `Created` — a base with which some step creates a counter.
* `Created.mem_names_iff`, `Created.eq_of_mem` — the counter has the names of its base alone, and
  counters of different bases share no name.
-/

namespace Concordance.Metric

/-! ## Names and bases -/

/-- A name ends in a mark. -/
def EndsIn (name mark : String) : Prop :=
  mark.toList <:+ name.toList

instance (name mark : String) : Decidable (EndsIn name mark) :=
  inferInstanceAs (Decidable (_ <:+ _))

theorem endsIn_append (s mark : String) : EndsIn (s ++ mark) mark := by
  rw [EndsIn, String.toList_append]
  exact List.suffix_append _ _

theorem EndsIn.exists_eq {name mark : String} (h : EndsIn name mark) : ∃ s, name = s ++ mark := by
  obtain ⟨cs, hcs⟩ := h
  refine ⟨String.ofList cs, String.toList_inj.1 ?_⟩
  rw [String.toList_append, String.toList_ofList, hcs]

theorem append_right_inj {s t mark : String} : s ++ mark = t ++ mark ↔ s = t := by
  rw [← String.toList_inj, String.toList_append, String.toList_append, List.append_left_inj,
    String.toList_inj]

@[simp]
theorem baseName_append_total (s : String) : baseName .counter (s ++ totalMark) = s := by
  have hsuffix : totalMark.toList.isSuffixOf (s ++ totalMark).toList = true :=
    List.isSuffixOf_iff_suffix.2 (endsIn_append s totalMark)
  rw [baseName, if_pos hsuffix, String.toList_append, List.length_append, Nat.add_sub_cancel,
    List.take_left, String.ofList_toList]

theorem baseName_of_not_endsIn {name : String} (h : ¬EndsIn name totalMark) :
    baseName .counter name = name := by
  have hsuffix : ¬totalMark.toList.isSuffixOf name.toList = true :=
    fun htrue => h (List.isSuffixOf_iff_suffix.1 htrue)
  rw [baseName, if_neg hsuffix]

/-- A name is its base, or its base with the mark of totals. -/
theorem eq_base_or (name : String) :
    ¬EndsIn name totalMark ∧ name = baseName .counter name ∨
      name = baseName .counter name ++ totalMark := by
  by_cases h : EndsIn name totalMark
  · obtain ⟨s, rfl⟩ := h.exists_eq
    rw [baseName_append_total]
    exact .inr rfl
  · exact .inl ⟨h, (baseName_of_not_endsIn h).symm⟩

theorem not_endsIn_base {name : String} (h : ¬EndsIn name "_total_total") :
    ¬EndsIn (baseName .counter name) totalMark := by
  intro hbase
  rcases eq_base_or name with ⟨hname, heq⟩ | heq
  · exact hname (heq ▸ hbase)
  · obtain ⟨s, hs⟩ := hbase.exists_eq
    refine h ?_
    have htwice : totalMark ++ totalMark = "_total_total" := by decide
    rw [heq, hs, String.append_assoc, htwice]
    exact endsIn_append _ _

theorem append_total_ne_append_created (s t : String) : s ++ totalMark ≠ t ++ "_created" := by
  intro h
  have hlast := congrArg (fun name : String => name.toList.getLast?) h
  simp [totalMark, String.toList_append, List.getLast?_append] at hlast

/-! ## Rows of steps whose names agree -/

variable {m : Client} {labelNames : String → List String} {steps : List Ledger.Step}

/-- A counter can be created with a base, whose counters have given label names. -/
def Valid (m : Client) (labelNames : String → List String) (base : String) : Prop :=
  m.validName base = true ∧ m.validLabels .counter (labelNames base) = true

instance (m : Client) (labelNames : String → List String) (base : String) :
    Decidable (Valid m labelNames base) :=
  inferInstanceAs (Decidable (_ ∧ _))

/-- Steps create counters of one base with the same label names, and none of their names ends in
`_created` or in `_total` twice. -/
structure Agreeing (m : Client) (labelNames : String → List String) (steps : List Ledger.Step) :
    Prop where
  ending : ∀ name names, .create name names ∈ steps →
    ¬EndsIn name "_created" ∧ ¬EndsIn name "_total_total"
  labelNames_perm : ∀ name names, .create name names ∈ steps →
    m.validName (baseName .counter name) = true →
      names.Perm (labelNames (baseName .counter name))

/-- The names and label names of the counters that steps create. -/
def created (steps : List Ledger.Step) : List (String × List String) :=
  steps.filterMap fun
    | .create name names => some (name, names)
    | _ => none

theorem mem_created {steps : List Ledger.Step} {e : String × List String} :
    e ∈ created steps ↔ .create e.1 e.2 ∈ steps := by
  rw [created, List.mem_filterMap]
  constructor
  · rintro ⟨step, hmem, heq⟩
    cases step <;> cases heq
    exact hmem
  · exact fun hmem => ⟨_, hmem, rfl⟩

theorem agreeing_iff :
    Agreeing m labelNames steps ↔ ∀ e ∈ created steps,
      (¬EndsIn e.1 "_created" ∧ ¬EndsIn e.1 "_total_total") ∧
        (m.validName (baseName .counter e.1) = true →
          e.2.Perm (labelNames (baseName .counter e.1))) := by
  constructor
  · exact fun h e he => ⟨h.ending _ _ (mem_created.1 he), h.labelNames_perm _ _ (mem_created.1 he)⟩
  · intro h
    exact ⟨fun name names hmem => (h (name, names) (mem_created.2 hmem)).1,
      fun name names hmem => (h (name, names) (mem_created.2 hmem)).2⟩

instance (m : Client) (labelNames : String → List String) (steps : List Ledger.Step) :
    Decidable (Agreeing m labelNames steps) :=
  decidable_of_iff' _ agreeing_iff

/-- Steps that agree, and no base is another one with `_created` at its end. -/
structure Consistent (m : Client) (labelNames : String → List String) (steps : List Ledger.Step) :
    Prop extends Agreeing m labelNames steps where
  apart : ∀ name names other others, .create name names ∈ steps → .create other others ∈ steps →
    Valid m labelNames (baseName .counter name) → Valid m labelNames (baseName .counter other) →
    baseName .counter other ≠ baseName .counter name ++ "_created"

/-- No base is another one with `_created` at its end if no name ends in `_created_total`. -/
theorem Agreeing.consistent (h : Agreeing m labelNames steps)
    (hnames : ∀ e ∈ created steps, ¬EndsIn e.1 "_created_total") :
    Consistent m labelNames steps where
  toAgreeing := h
  apart := by
    intro name names other others _ hother _ _ hbase
    rcases eq_base_or other with ⟨-, heq⟩ | heq
    · refine (h.ending other others hother).1 ?_
      rw [heq, hbase]
      exact endsIn_append _ _
    · refine hnames (other, others) (mem_created.2 hother) ?_
      have hmark : "_created" ++ totalMark = "_created_total" := by decide
      rw [heq, hbase, String.append_assoc, hmark]
      exact endsIn_append _ _

/-! ## Names of a counter -/

/-- A base with which some step creates a counter. -/
structure Created (m : Client) (labelNames : String → List String) (steps : List Ledger.Step)
    (base : String) : Prop where
  valid : Valid m labelNames base
  exists_create : ∃ name names, .create name names ∈ steps ∧ baseName .counter name = base

theorem mem_names_counter {name base : String} :
    name ∈ Kind.names .counter base ↔
      name = base ∨ name = base ++ totalMark ∨ name = base ++ "_created" := by
  simp [Kind.names]

namespace Created

variable {name base base' : String}

theorem not_endsIn (hbase : Created m labelNames steps base) (h : Agreeing m labelNames steps) :
    ¬EndsIn base totalMark := by
  obtain ⟨name, names, hmem, rfl⟩ := hbase.exists_create
  exact not_endsIn_base (h.ending name names hmem).2

/-- A counter has the names of its base alone. -/
theorem mem_names_iff (hbase : Created m labelNames steps base) (h : Agreeing m labelNames steps)
    (hname : ¬EndsIn name "_created") :
    name ∈ Kind.names .counter base ↔ baseName .counter name = base := by
  rw [mem_names_counter]
  constructor
  · rintro (rfl | rfl | rfl)
    · exact baseName_of_not_endsIn (hbase.not_endsIn h)
    · exact baseName_append_total base
    · exact absurd (endsIn_append _ _) hname
  · rintro rfl
    rcases eq_base_or name with ⟨-, heq⟩ | heq
    · exact .inl heq
    · exact .inr (.inl heq)

theorem eq_of_total_mem (hbase : Created m labelNames steps base) (h : Agreeing m labelNames steps)
    (hmem : name ++ totalMark ∈ Kind.names .counter base) : name = base := by
  have hend := hbase.not_endsIn h
  rcases mem_names_counter.1 hmem with heq | heq | heq
  · exact absurd (heq ▸ endsIn_append name totalMark) hend
  · exact append_right_inj.1 heq
  · exact absurd heq (append_total_ne_append_created _ _)

theorem ne_append_created (hbase : Created m labelNames steps base)
    (hbase' : Created m labelNames steps base') (h : Consistent m labelNames steps) :
    base' ≠ base ++ "_created" := by
  obtain ⟨name, names, hmem, rfl⟩ := hbase.exists_create
  obtain ⟨name', names', hmem', rfl⟩ := hbase'.exists_create
  exact h.apart name names name' names' hmem hmem' hbase.valid hbase'.valid

/-- Counters that share a name have one base. -/
theorem eq_of_mem (hbase : Created m labelNames steps base)
    (hbase' : Created m labelNames steps base') (h : Consistent m labelNames steps)
    (hmem : name ∈ Kind.names .counter base) (hmem' : name ∈ Kind.names .counter base') :
    base = base' := by
  have hend := hbase.not_endsIn h.toAgreeing
  have hend' := hbase'.not_endsIn h.toAgreeing
  rcases mem_names_counter.1 hmem with rfl | rfl | rfl <;>
    rcases mem_names_counter.1 hmem' with heq | heq | heq
  · exact heq
  · exact absurd (heq ▸ endsIn_append base' totalMark) hend
  · exact absurd heq (hbase'.ne_append_created hbase h)
  · exact absurd (heq ▸ endsIn_append base totalMark) hend'
  · exact append_right_inj.1 heq
  · exact absurd heq (append_total_ne_append_created _ _)
  · exact absurd heq.symm (hbase.ne_append_created hbase' h)
  · exact absurd heq.symm (append_total_ne_append_created _ _)
  · exact append_right_inj.1 heq

end Created

end Concordance.Metric
