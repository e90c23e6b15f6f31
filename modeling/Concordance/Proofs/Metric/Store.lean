import Concordance.Metric.Law
import Concordance.Metric.Store
import Mathlib.Data.List.Basic
import Mathlib.Data.List.Nodup

/-!
# Metrics in memory, and what is read of them

* `Row.valuesAt_sampleName` — what is read of one row.
* `Store.values_sampleName` — what is read of a store is what its rows have counted.
* `Store.Has`, `Store.Sound` — a metric that a store has; one row at each place, and each row
  belongs to a metric.
* `Sound.touch`, `Sound.append`, `Sound.change` — that stays so with a row that is touched, with a
  metric that is registered, and with a row that is moved on.
* `values_touch_self`, `Sound.values_touch_of_ne_nil`, `values_change` — what is read then.
-/

namespace Concordance.Metric

/-- Only one item counts where the others with their different keys give nothing. -/
theorem flatMap_eq_of_nodup_map {α β γ : Type} {xs : List α} {key : α → β} {g : α → List γ} {x : α}
    (hnodup : (xs.map key).Nodup) (hx : x ∈ xs) (hnil : ∀ y ∈ xs, key y ≠ key x → g y = []) :
    xs.flatMap g = g x := by
  obtain ⟨front, back, rfl⟩ := List.append_of_mem hx
  rw [List.map_append, List.map_cons, List.nodup_middle, List.nodup_cons, List.mem_append] at hnodup
  have hfront : ∀ y ∈ front, g y = [] := fun y hy =>
    hnil y (List.mem_append_left _ hy) fun heq =>
      hnodup.1 (.inl (heq ▸ List.mem_map_of_mem hy))
  have hback : ∀ y ∈ back, g y = [] := fun y hy =>
    hnil y (List.mem_append_right _ (List.mem_cons_of_mem _ hy)) fun heq =>
      hnodup.1 (.inr (heq ▸ List.mem_map_of_mem hy))
  rw [List.flatMap_append, List.flatMap_cons, List.flatMap_eq_nil_iff.2 hfront,
    List.flatMap_eq_nil_iff.2 hback, List.nil_append, List.append_nil]

/-! ## What is read of one row -/

namespace Row

/-- What is read of a row. -/
def valuesAt (row : Row) (name : String) (labels : LabelSet) : List Float :=
  Metric.valuesAt row.samples name labels

theorem valuesAt_of_labels_ne {row : Row} {labels : LabelSet} (h : row.place.labels ≠ labels)
    (name : String) : row.valuesAt name labels = [] := by
  rw [valuesAt, Metric.valuesAt, samples]
  cases row.place.kind <;> simp [h]

theorem valuesAt_of_name_notMem {row : Row} {name : String}
    (h : name ∉ row.place.kind.names row.place.base) (labels : LabelSet) :
    row.valuesAt name labels = [] := by
  rw [valuesAt, Metric.valuesAt, samples]
  cases hkind : row.place.kind with
  | counter =>
    rw [hkind] at h
    simp only [Kind.names, List.mem_cons, not_or] at h
    simp [Ne.symm h.2.1]
  | histogram =>
    rw [hkind] at h
    simp only [Kind.names, List.mem_cons, not_or] at h
    simp [Ne.symm h.2.2.1, Ne.symm h.2.2.2.1]

/-- Names that end differently are different. -/
theorem append_ne_append {mark mark' : String} (h : mark.toList.getLast? ≠ mark'.toList.getLast?)
    (hne : mark ≠ "") (hne' : mark' ≠ "") (s t : String) : s ++ mark ≠ t ++ mark' := by
  intro heq
  have hlast := congrArg (fun u : String => u.toList.getLast?) heq
  have hsome : mark.toList.getLast?.isSome = true := by simpa using hne
  have hsome' : mark'.toList.getLast?.isSome = true := by simpa using hne'
  simp only [String.toList_append, List.getLast?_append, Option.or_of_isSome hsome,
    Option.or_of_isSome hsome'] at hlast
  exact h hlast

/-- The sample name tells the metric. -/
theorem sampleName_inj {kind kind' : Kind} {base base' : String} :
    kind'.sampleName base' = kind.sampleName base ↔ kind' = kind ∧ base' = base := by
  cases kind' <;> cases kind
  · simp [Kind.sampleName]
  · simpa [Kind.sampleName] using append_ne_append (by decide) (by decide) (by decide) _ _
  · simpa [Kind.sampleName] using append_ne_append (by decide) (by decide) (by decide) _ _
  · simp [Kind.sampleName]

/-- A row shows its count under the sample name of its own metric alone. -/
theorem valuesAt_sampleName (row : Row) (kind : Kind) (base : String) (labels : LabelSet) :
    row.valuesAt (kind.sampleName base) labels =
      if row.place = ⟨kind, base, labels⟩ then [row.count] else [] := by
  obtain ⟨⟨kind', base', labels'⟩, count, sum⟩ := row
  have hsum : base' ++ "_sum" ≠ kind.sampleName base := by
    cases kind
    · exact append_ne_append (by decide) (by decide) (by decide) _ _
    · exact append_ne_append (by decide) (by decide) (by decide) _ _
  have hsamples : ∃ more : List Sample, (∀ x ∈ more, x.name = base' ++ "_sum") ∧
      samples ⟨⟨kind', base', labels'⟩, count, sum⟩ =
        ⟨kind'.sampleName base', labels', count⟩ :: more := by
    cases kind'
    · exact ⟨[], List.forall_mem_nil _, rfl⟩
    · exact ⟨_, List.forall_mem_singleton.2 rfl, rfl⟩
  obtain ⟨more, hmore, hsamples⟩ := hsamples
  have hnone : more.filter (fun s => s.name = kind.sampleName base ∧ s.labels = labels) = [] :=
    List.filter_eq_nil_iff.2 fun x hx => by simp [hmore x hx, hsum]
  rw [valuesAt, Metric.valuesAt, hsamples, List.filter_cons, hnone]
  by_cases h : kind' = kind ∧ base' = base ∧ labels' = labels
  · simp [h]
  · have hnot : ¬((kind' = kind ∧ base' = base) ∧ labels' = labels) := and_assoc.not.2 h
    simp [sampleName_inj, hnot, h]

/-- A row that is moved on stays where it is. -/
theorem place_of_advance {kind : Kind} {value : Value} {f : Row → Row}
    (h : advance kind value = .ok f) (row : Row) : (f row).place = row.place := by
  cases kind with
  | counter =>
    rw [advance] at h
    cases hx : addition value <;> rw [hx] at h <;> cases h
    rfl
  | histogram =>
    rw [advance] at h
    cases hx : observation value <;> rw [hx] at h <;> cases h
    rfl

/-- What a value counts is added to the count of a row. -/
theorem exists_advance_eq_ok {kind : Kind} {value : Value} {x : Float}
    (h : kind.growth? value = some x) :
    ∃ f, advance kind value = .ok f ∧ ∀ row, (f row).count = row.count + x := by
  cases kind with
  | counter =>
    cases hx : addition value with
    | error fault => simp [Kind.growth?, addend?, hx, Except.toOption] at h
    | ok y =>
      obtain rfl : y = x := by simpa [Kind.growth?, addend?, hx, Except.toOption] using h
      exact ⟨_, by rw [advance, hx]; rfl, fun _ => rfl⟩
  | histogram =>
    by_cases hnan : value.magnitude? = some .nan
    · simp [Kind.growth?, hnan] at h
    · cases hx : observation value with
      | error fault => simp [Kind.growth?, hnan, hx, Except.toOption] at h
      | ok y =>
        obtain rfl : 1 = x := by simpa [Kind.growth?, hnan, hx, Except.toOption] using h
        exact ⟨_, by rw [advance, hx]; rfl, fun _ => if_neg hnan⟩

end Row

/-! ## What is read of a store -/

namespace Store

/-- What is read of a store. -/
def values (s : Store) (name : String) (labels : LabelSet) : List Float :=
  s.rows.flatMap (·.valuesAt name labels)

theorem client_values (s : Store) : client.values s = s.values := by
  funext name labels
  show Metric.valuesAt (s.rows.flatMap Row.samples) name labels = _
  rw [Metric.valuesAt, List.filter_flatMap, List.map_flatMap]
  rfl

variable {s : Store} {place : Place}

/-- What is read under a sample name is what the rows at one place have counted. -/
theorem values_sampleName (s : Store) (kind : Kind) (base : String) (labels : LabelSet) :
    s.values (kind.sampleName base) labels =
      (s.rows.filter (·.place = ⟨kind, base, labels⟩)).map (·.count) := by
  rw [values]
  induction s.rows with
  | nil => rfl
  | cons row rows ih =>
    rw [List.flatMap_cons, ih, Row.valuesAt_sampleName, List.filter_cons]
    by_cases h : row.place = ⟨kind, base, labels⟩ <;> simp [h]

/-! ## Stores that are reached -/

/-- A metric is registered, and it has a row if its labels are known. -/
structure Has (s : Store) (i : Item) : Prop where
  registered : ∃ j ∈ s.items, j.kind = i.kind ∧ j.base = i.base
  row : ∀ given, i.given = some given → placeOf i given ∈ s.rows.map (·.place)

/-- Each name leads to the metric that has it, there is one row at each place, and each row belongs
to a metric. -/
structure Sound (s : Store) : Prop where
  named : ∀ i ∈ s.items, ∀ name ∈ i.kind.names i.base, s.registered? name = some i
  places_nodup : (s.rows.map (·.place)).Nodup
  registered : ∀ row ∈ s.rows, ∃ i ∈ s.items, i.kind = row.place.kind ∧ i.base = row.place.base

/-- What a store has, a store has with more metrics and more rows. -/
theorem Has.mono {s' : Store} {i : Item} (h : s.Has i) (hitems : s.items ⊆ s'.items)
    (hplaces : s.rows.map (·.place) ⊆ s'.rows.map (·.place)) : s'.Has i where
  registered := let ⟨j, hj, heq⟩ := h.registered; ⟨j, hitems hj, heq⟩
  row given hgiven := hplaces (h.row given hgiven)

theorem places_touch (s : Store) (place : Place) :
    (s.touch place).rows.map (·.place) =
      if place ∈ s.rows.map (·.place) then s.rows.map (·.place)
      else s.rows.map (·.place) ++ [place] := by
  rw [touch]
  by_cases h : s.rows.any (·.place = place)
  · rw [if_pos h, if_pos]
    simpa using h
  · rw [if_neg h, if_neg]
    · simp
    · simpa using h

@[simp]
theorem items_touch (s : Store) (place : Place) : (s.touch place).items = s.items := rfl

theorem mem_rows_touch {row : Row} (h : row ∈ (s.touch place).rows) :
    row ∈ s.rows ∨ row = { place } := by
  rw [touch] at h
  split at h
  · exact .inl h
  · simpa using h

theorem mem_places_touch (s : Store) (place : Place) :
    place ∈ (s.touch place).rows.map (·.place) := by
  rw [places_touch]
  split
  · assumption
  · simp

theorem Has.touch {i : Item} (h : s.Has i) (place : Place) : (s.touch place).Has i := by
  refine h.mono (by simp) ?_
  rw [places_touch]
  split
  · exact List.Subset.refl _
  · exact List.subset_append_left ..

theorem Sound.touch (h : s.Sound)
    (hplace : ∃ i ∈ s.items, i.kind = place.kind ∧ i.base = place.base) :
    (s.touch place).Sound where
  named := by
    rw [items_touch]
    intro i hi name hname
    rw [registered?, items_touch]
    exact h.named i hi name hname
  places_nodup := by
    rw [places_touch]
    split
    · exact h.places_nodup
    · rename_i hnew
      exact List.nodup_append.2 ⟨h.places_nodup, List.nodup_singleton _, by simpa using hnew⟩
  registered := by
    rw [items_touch]
    intro row hrow
    rcases mem_rows_touch hrow with hrow | rfl
    · exact h.registered row hrow
    · exact hplace

/-- A row that is touched shows a zero, unless it was there before. -/
theorem values_touch (s : Store) (place : Place) (name : String) (labels : LabelSet) :
    (s.touch place).values name labels =
      s.values name labels ++
        if place ∈ s.rows.map (·.place) then [] else ({ place } : Row).valuesAt name labels := by
  rw [touch]
  by_cases h : s.rows.any (·.place = place)
  · rw [if_pos h, if_pos (by simpa using h), List.append_nil]
  · rw [if_neg h, if_neg (by simpa using h)]
    simp [values]

/-- A row shows just one value. -/
theorem Sound.values_of_mem (h : s.Sound) {row : Row} (hrow : row ∈ s.rows) :
    s.values (row.place.kind.sampleName row.place.base) row.place.labels = [row.count] := by
  have hother : ∀ other ∈ s.rows, other.place ≠ row.place →
      other.valuesAt (row.place.kind.sampleName row.place.base) row.place.labels = [] :=
    fun other _ hne => by rw [Row.valuesAt_sampleName, if_neg hne]
  rw [values, flatMap_eq_of_nodup_map h.places_nodup hrow hother, Row.valuesAt_sampleName,
    if_pos rfl]

theorem values_eq_nil_iff (s : Store) (kind : Kind) (base : String) (labels : LabelSet) :
    s.values (kind.sampleName base) labels = [] ↔
      (⟨kind, base, labels⟩ : Place) ∉ s.rows.map (·.place) := by
  rw [values_sampleName, List.map_eq_nil_iff, List.filter_eq_nil_iff]
  simp

/-- A name shows nothing unless it belongs to a metric. -/
theorem Sound.values_eq_nil (h : s.Sound) {name : String}
    (hname : ∀ i ∈ s.items, name ∉ i.kind.names i.base) (labels : LabelSet) :
    s.values name labels = [] := by
  refine List.flatMap_eq_nil_iff.2 fun row hrow => Row.valuesAt_of_name_notMem ?_ labels
  obtain ⟨i, hi, hkind, hbase⟩ := h.registered row hrow
  rw [← hkind, ← hbase]
  exact hname i hi

/-- A name shows nothing under the labels of a place that is new, if it belongs to its metric. -/
theorem Sound.values_of_new (h : s.Sound) {name : String}
    (hplace : ∃ i ∈ s.items, i.kind = place.kind ∧ i.base = place.base)
    (hnew : place ∉ s.rows.map (·.place)) (hname : name ∈ place.kind.names place.base) :
    s.values name place.labels = [] := by
  obtain ⟨i, hi, hkind, hbase⟩ := hplace
  refine List.flatMap_eq_nil_iff.2 fun row hrow => ?_
  by_contra hne
  obtain ⟨j, hj, hkind', hbase'⟩ := h.registered row hrow
  have hlabels : row.place.labels = place.labels :=
    not_not.1 fun hlabels => hne (Row.valuesAt_of_labels_ne hlabels name)
  have hmem : name ∈ row.place.kind.names row.place.base :=
    not_not.1 fun hnot => hne (Row.valuesAt_of_name_notMem hnot place.labels)
  obtain rfl : i = j := by
    rw [← hkind, ← hbase] at hname
    rw [← hkind', ← hbase'] at hmem
    exact Option.some_inj.1 ((h.named i hi name hname).symm.trans (h.named j hj name hmem))
  refine hnew (List.mem_map.2 ⟨row, hrow, ?_⟩)
  obtain ⟨kind, base, labels⟩ := place
  obtain ⟨⟨kind', base', labels'⟩, count, sum⟩ := row
  exact Place.mk.injEq .. ▸ ⟨hkind'.symm.trans hkind, hbase'.symm.trans hbase, hlabels⟩

/-- The place of a row that is shown under labels. -/
def rowPlace (i : Item) (labels : LabelSet) : Place :=
  ⟨i.kind, i.base, labels⟩

theorem values_touch_self (s : Store) (i : Item) (labels : LabelSet) :
    (s.touch (rowPlace i labels)).values i.profile.sampleName labels =
      if s.values i.profile.sampleName labels = [] then [0]
      else s.values i.profile.sampleName labels := by
  have hnil : s.values i.profile.sampleName labels = [] ↔
      rowPlace i labels ∉ s.rows.map (·.place) := s.values_eq_nil_iff i.kind i.base labels
  have hzero : ({ place := rowPlace i labels } : Row).valuesAt i.profile.sampleName labels = [0] :=
    (Row.valuesAt_sampleName _ i.kind i.base labels).trans (if_pos rfl)
  rw [values_touch]
  by_cases h : rowPlace i labels ∈ s.rows.map (·.place)
  · rw [if_pos h, if_neg fun hvalues => hnil.1 hvalues h, List.append_nil]
  · rw [if_neg h, if_pos (hnil.2 h), hnil.2 h, hzero, List.nil_append]

theorem values_touch_of_name_notMem (s : Store) {i : Item} {name : String}
    (hname : name ∉ i.profile.names) (shown labels : LabelSet) :
    (s.touch (rowPlace i shown)).values name labels = s.values name labels := by
  have hnone : ({ place := rowPlace i shown } : Row).valuesAt name labels = [] :=
    Row.valuesAt_of_name_notMem hname labels
  rw [values_touch, hnone]
  split <;> exact List.append_nil _

theorem values_touch_of_labels_ne (s : Store) {i : Item} {shown labels : LabelSet}
    (hlabels : labels ≠ shown) (name : String) :
    (s.touch (rowPlace i shown)).values name labels = s.values name labels := by
  have hnone : ({ place := rowPlace i shown } : Row).valuesAt name labels = [] :=
    Row.valuesAt_of_labels_ne hlabels.symm name
  rw [values_touch, hnone]
  split <;> exact List.append_nil _

/-- What was shown is not touched. -/
theorem Sound.values_touch_of_ne_nil (h : s.Sound) {i : Item}
    (hi : ∃ j ∈ s.items, j.kind = i.kind ∧ j.base = i.base) {name : String} {labels : LabelSet}
    (hvalues : s.values name labels ≠ []) (shown : LabelSet) :
    (s.touch (rowPlace i shown)).values name labels = s.values name labels := by
  by_cases hname : name ∈ i.profile.names
  · by_cases hlabels : labels = shown
    · subst hlabels
      have hold : rowPlace i labels ∈ s.rows.map (·.place) :=
        not_not.1 fun hnew => hvalues (h.values_of_new hi hnew hname)
      rw [values_touch, if_pos hold, List.append_nil]
    · exact values_touch_of_labels_ne s hlabels name
  · exact values_touch_of_name_notMem s hname shown labels

/-! ### A row for a metric -/

theorem Sound.openRow (h : s.Sound) {i : Item}
    (hi : ∃ j ∈ s.items, j.kind = i.kind ∧ j.base = i.base) : (s.openRow i).Sound := by
  rw [Store.openRow]
  split
  · exact h
  · exact h.touch hi

theorem items_openRow (s : Store) (i : Item) : (s.openRow i).items = s.items := by
  rw [openRow]
  split
  · rfl
  · exact items_touch ..

theorem Has.openRow {j : Item} (h : s.Has j) (i : Item) : (s.openRow i).Has j := by
  rw [Store.openRow]
  split
  · exact h
  · exact h.touch _

theorem has_openRow {i : Item} (hi : ∃ j ∈ s.items, j.kind = i.kind ∧ j.base = i.base) :
    (s.openRow i).Has i where
  registered := by rwa [items_openRow]
  row given hgiven := by
    rw [Store.openRow, hgiven]
    exact mem_places_touch ..

/-! ### A metric that is created -/

/-- The store with one more metric that is registered. -/
def append (s : Store) (i : Item) : Store :=
  { s with items := s.items ++ [i] }

theorem Has.append {j : Item} (h : s.Has j) (i : Item) : (s.append i).Has j :=
  h.mono (List.subset_append_left ..) (List.Subset.refl _)

theorem construct_eq (s : Store) (kind : Kind) (name : String) (labelNames : List String) :
    s.construct kind name labelNames =
      if s.admits (Item.new kind name labelNames) then
        some ((s.append (Item.new kind name labelNames)).openRow (Item.new kind name labelNames),
          Item.new kind name labelNames)
      else none :=
  rfl

theorem construct_eq_none_iff (s : Store) (kind : Kind) (name : String)
    (labelNames : List String) : s.construct kind name labelNames = none ↔
      ¬s.admits (Item.new kind name labelNames) = true := by
  rw [construct_eq]
  split <;> simp_all

theorem admits_iff (s : Store) (i : Item) :
    s.admits i = true ↔ (i.base != "") = true ∧ labelsAllowed i.kind i.labelNames = true ∧
      ∀ name ∈ i.kind.names i.base, s.registered? name = none := by
  simp [admits, and_assoc]

theorem admits_free {i : Item} (h : s.admits i = true) :
    ∀ name ∈ i.kind.names i.base, s.registered? name = none :=
  ((s.admits_iff i).1 h).2.2

theorem registered?_append {i : Item} (h : s.admits i = true) (name : String) :
    (s.append i).registered? name =
      if name ∈ i.kind.names i.base then some i else s.registered? name := by
  rw [registered?, append, List.find?_append]
  by_cases hname : name ∈ i.kind.names i.base
  · have hnone := admits_free h name hname
    rw [registered?] at hnone
    rw [if_pos hname, hnone, Option.none_or]
    simpa using hname
  · have hnone : [i].find? (fun i => (i.kind.names i.base).contains name) = none := by
      simpa using hname
    rw [if_neg hname, hnone, Option.or_none, registered?]

theorem Sound.append (h : s.Sound) {i : Item} (hi : s.admits i = true) : (s.append i).Sound where
  named := by
    intro j hj name hname
    rw [registered?_append hi]
    rcases List.mem_append.1 hj with hj | hj
    · have hnone := h.named j hj name hname
      have hnot : name ∉ i.kind.names i.base := fun hmem => by
        rw [admits_free hi name hmem] at hnone
        cases hnone
      rw [if_neg hnot, hnone]
    · obtain rfl := List.mem_singleton.1 hj
      rw [if_pos hname]
  places_nodup := h.places_nodup
  registered row hrow :=
    let ⟨j, hj, heq⟩ := h.registered row hrow
    ⟨j, List.mem_append_left _ hj, heq⟩

/-! ### A row that is moved on -/

theorem places_change {f : Row → Row} (hf : ∀ row, (f row).place = row.place) (s : Store)
    (place : Place) : (s.change (some (place, f))).rows.map (·.place) = s.rows.map (·.place) := by
  rw [change, List.map_map]
  refine List.map_congr_left fun row _ => ?_
  by_cases h : row.place = place <;> simp [h, hf]

theorem Sound.change (h : s.Sound) {f : Row → Row} (hf : ∀ row, (f row).place = row.place)
    (place : Place) : (s.change (some (place, f))).Sound where
  named := h.named
  places_nodup := by
    rw [places_change hf]
    exact h.places_nodup
  registered row hrow := by
    obtain ⟨old, hold, rfl⟩ := List.mem_map.1 hrow
    by_cases hplace : old.place = place
    · rw [if_pos hplace, hf]
      exact h.registered old hold
    · rw [if_neg hplace]
      exact h.registered old hold

/-- Where the place shows nothing, nothing changes. -/
theorem values_change {f : Row → Row} (hf : ∀ row, (f row).place = row.place) (s : Store)
    {name : String} {labels : LabelSet}
    (h : place.labels ≠ labels ∨ name ∉ place.kind.names place.base) :
    (s.change (some (place, f))).values name labels = s.values name labels := by
  have hnil {row : Row} (hrow : row.place = place) : row.valuesAt name labels = [] := by
    subst hrow
    rcases h with h | h
    · exact Row.valuesAt_of_labels_ne h name
    · exact Row.valuesAt_of_name_notMem h labels
  rw [values, values, change, List.flatMap_map]
  refine List.flatMap_congr fun row _ => ?_
  by_cases hplace : row.place = place
  · rw [if_pos hplace, hnil hplace, hnil ((hf row).trans hplace)]
  · rw [if_neg hplace]

end Store

end Concordance.Metric
