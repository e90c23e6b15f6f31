import Concordance.Proofs.Metric.Store

/-!
# The client in memory does what clients do

* `Store.labels_cases`, `Store.move_cases` — how a step of the client can end.
* `Store.Holds`, `Store.holds_of_reached` — what holds of every store that is reached.
* `Holds.opens`, `Holds.moves`, `Sound.creates` — what a step does and what it leaves alone.
* `Store.lawful` — the client is lawful.
-/

namespace Concordance.Metric.Store

variable {s : Store}

/-! ## How steps end -/

/-- What is registered under a name is there, and has the name. -/
theorem exists_of_registered? {name : String} {i : Item} (h : s.registered? name = some i) :
    i ∈ s.items ∧ name ∈ i.kind.names i.base :=
  ⟨List.mem_of_find?_eq_some h, by simpa using List.find?_some h⟩

theorem labels_cases (s : Store) (i : Item) (labels : List (String × Value)) :
    (i.given = none ∧ Accepted i.labelNames labels ∧
      s.labels i labels = (s.openRow (i.row labels), .ok (i.row labels))) ∨
    ¬(i.given = none ∧ Accepted i.labelNames labels) ∧
      ∃ fault, s.labels i labels = (s, .error fault) := by
  rw [Store.labels]
  cases hgiven : i.given with
  | some given =>
    refine .inr ⟨by simp, ?_⟩
    dsimp only
    split <;> exact ⟨_, rfl⟩
  | none =>
    by_cases htaken : takesName labels = true
    · exact .inr ⟨by simp [Accepted, htaken], _, by simp only [if_pos htaken]; rfl⟩
    · by_cases hperm : (labels.map Prod.fst).isPerm i.labelNames = true
      · refine .inl ⟨rfl, ⟨by simpa using htaken, List.isPerm_iff.1 hperm⟩, ?_⟩
        simp only [if_neg htaken, if_pos hperm]
      · refine .inr ⟨fun h => hperm (List.isPerm_iff.2 h.2.2), ?_⟩
        simp only [if_neg htaken, if_neg hperm]
        split <;> exact ⟨_, rfl⟩

theorem move_eq {i : Item} {value : Value} {given : List (String × String)} {f : Row → Row}
    (hgiven : i.given = some given) (hf : Row.advance i.kind value = .ok f) :
    s.move i.kind i value = (s.change (some (placeOf i given, f)), .ok ()) := by
  rw [move, advance, if_pos rfl, hgiven, hf]
  rfl

theorem move_cases (kind : Kind) (s : Store) (i : Item) (value : Value) :
    (∃ given f, i.kind = kind ∧ i.given = some given ∧ Row.advance kind value = .ok f ∧
      s.move kind i value = (s.change (some (placeOf i given, f)), .ok ())) ∨
    ∃ fault, s.move kind i value = (s, .error fault) := by
  have herror {fault : Fault} (hfault : advance kind i value = .error fault) :
      s.move kind i value = (s, .error fault) := by
    rw [move, hfault]
    rfl
  by_cases hkind : i.kind = kind
  · subst hkind
    cases hgiven : i.given with
    | none => exact .inr ⟨_, herror (by rw [advance, if_pos rfl, hgiven])⟩
    | some given =>
      cases hf : Row.advance i.kind value with
      | error fault => exact .inr ⟨_, herror (by rw [advance, if_pos rfl, hgiven, hf]; rfl)⟩
      | ok f => exact .inl ⟨given, f, rfl, rfl, rfl, move_eq hgiven hf⟩
  · exact .inr ⟨_, herror (if_neg hkind)⟩

/-! ## Stores that are reached -/

/-- The store is sound, and it has its metrics and those that were got from it. -/
structure Holds (s : Store) (ms : List Item) : Prop extends Sound s where
  has : ∀ i ∈ s.items, s.Has i
  has_got : ∀ i ∈ ms, s.Has i

section Holds

variable {ms : List Item} {i : Item}

theorem Holds.openRow (h : s.Holds ms) (hi : ∃ j ∈ s.items, j.kind = i.kind ∧ j.base = i.base) :
    (s.openRow i).Holds (i :: ms) where
  toSound := h.toSound.openRow hi
  has := by
    rw [items_openRow]
    exact fun j hj => (h.has j hj).openRow i
  has_got := List.forall_mem_cons.2 ⟨has_openRow hi, fun j hj => (h.has_got j hj).openRow i⟩

theorem Holds.construct (h : s.Holds ms) (hi : s.admits i = true) :
    ((s.append i).openRow i).Holds (i :: ms) where
  toSound := (h.toSound.append hi).openRow ⟨i, List.mem_concat_self, rfl, rfl⟩
  has := by
    have hself : ∃ j ∈ (s.append i).items, j.kind = i.kind ∧ j.base = i.base :=
      ⟨i, List.mem_concat_self, rfl, rfl⟩
    rw [items_openRow]
    refine List.forall_mem_append.2 ⟨fun j hj => ?_, List.forall_mem_singleton.2 ?_⟩
    · exact ((h.has j hj).append i).openRow i
    · exact has_openRow hself
  has_got := by
    refine List.forall_mem_cons.2 ⟨has_openRow ⟨i, List.mem_concat_self, rfl, rfl⟩, fun j hj => ?_⟩
    exact ((h.has_got j hj).append i).openRow i

theorem Holds.change (h : s.Holds ms) {f : Row → Row} (hf : ∀ row, (f row).place = row.place)
    (place : Place) : (s.change (some (place, f))).Holds ms where
  toSound := h.toSound.change hf place
  has j hj := (h.has j hj).mono (List.Subset.refl _) (by rw [places_change hf]; exact fun _ => id)
  has_got j hj :=
    (h.has_got j hj).mono (List.Subset.refl _) (by rw [places_change hf]; exact fun _ => id)

/-- What holds of every store that is reached. -/
theorem holds_of_reached {s : client.Registry} {ms : List client.Instrument}
    (h : client.Reached s ms) : Holds s ms := by
  induction h with
  | fresh => exact ⟨⟨List.forall_mem_nil _, List.nodup_nil, List.forall_mem_nil _⟩,
      List.forall_mem_nil _, List.forall_mem_nil _⟩
  | construct _ hnew ih =>
    rename_i kind name labelNames i _
    have hnew := (construct_eq _ kind name labelNames).symm.trans hnew
    split at hnew
    · cases hnew
      exact ih.construct ‹_›
    · cases hnew
  | registered _ hfound ih =>
    exact ⟨ih.toSound, ih.has,
      List.forall_mem_cons.2 ⟨ih.has _ (exists_of_registered? hfound).1, ih.has_got⟩⟩
  | labels _ hmem hrow ih =>
    rename_i s s' ms i row labels _
    rcases labels_cases s i labels with ⟨-, -, heq⟩ | ⟨-, fault, heq⟩
    · cases heq.symm.trans hrow
      exact ih.openRow (ih.has_got i hmem).registered
    · cases heq.symm.trans hrow
  | move _ hmem hmove ih =>
    rename_i s s' ms kind i value _
    rcases move_cases kind s i value with ⟨given, f, -, -, hf, heq⟩ | ⟨fault, heq⟩
    · cases heq.symm.trans hmove
      exact ih.change (Row.place_of_advance hf) _
    · cases heq.symm.trans hmove

theorem Holds.exists_row (h : s.Holds ms) (hi : i ∈ ms) {given : List (String × String)}
    (hgiven : i.given = some given) : ∃ row ∈ s.rows, row.place = placeOf i given :=
  List.mem_map.1 ((h.has_got i hi).row given hgiven)

/-- A metric that needs no more labels shows just one value under those that it has. -/
theorem Holds.values_self (h : s.Holds ms) {row : Row} (hrow : row ∈ s.rows)
    {given : List (String × String)} (hplace : row.place = placeOf i given) :
    s.values i.profile.sampleName (given.mergeSort labelLe) = [row.count] := by
  have hvalues := h.values_of_mem hrow
  rwa [hplace] at hvalues

theorem Holds.moves (h : s.Holds ms) (hi : i ∈ ms) {given : List (String × String)}
    (hgiven : i.given = some given) {f : Row → Row} (hf : ∀ row, (f row).place = row.place)
    {x y : Float} (hx : ∀ row, (f row).count = row.count + x)
    (hy : s.values i.profile.sampleName (given.mergeSort labelLe) = [y]) :
    client.Moves s (s.change (some (placeOf i given, f))) i.profile (given.mergeSort labelLe)
      (y + x) where
  registered_eq _ := rfl
  values_self := by
    obtain ⟨row, hrow, hplace⟩ := h.exists_row hi hgiven
    obtain rfl : row.count = y := by
      rw [h.values_self hrow hplace] at hy
      exact List.singleton_inj.1 hy
    have hmem : f row ∈ (s.change (some (placeOf i given, f))).rows :=
      List.mem_map.2 ⟨row, hrow, if_pos hplace⟩
    rw [client_values, (h.change hf _).values_self hmem ((hf row).trans hplace), hx]
  values_ne other hne := by
    rw [client_values, client_values]
    exact values_change hf s (.inl hne.symm)
  values_eq name hname row := by
    rw [client_values, client_values]
    exact values_change hf s (.inr hname)

theorem Holds.opens (h : s.Holds ms) (hi : i ∈ ms)
    (labels : List (String × Value)) :
    client.Opens s (s.openRow (i.row labels)) i.profile (labelSet i.labelNames labels)
      (i.row labels) where
  profile_eq := rfl
  registered_eq name := by
    show (s.openRow (i.row labels)).registered? name = s.registered? name
    rw [registered?, items_openRow, registered?]
  values_self := by
    rw [client_values, client_values]
    exact values_touch_self s i _
  values_ne other hne := by
    rw [client_values, client_values]
    exact values_touch_of_labels_ne s hne _
  values_eq name hname row := by
    rw [client_values, client_values]
    exact values_touch_of_name_notMem s hname _ row
  values_kept name row hvalues := by
    rw [client_values] at hvalues
    rw [client_values, client_values]
    exact h.values_touch_of_ne_nil (h.has_got i hi).registered hvalues _

end Holds

theorem profile_new (kind : Kind) (name : String) (labelNames : List String) :
    (Item.new kind name labelNames).profile = .new kind name labelNames := by
  cases labelNames
  · rw [Item.profile, Item.new, List.isEmpty_nil, if_pos rfl, Option.map_some, List.mergeSort_nil]
    rfl
  · rfl

/-- A metric without label names gets its row at once. -/
theorem openRow_new (s : Store) (kind : Kind) (name : String) :
    s.openRow (Item.new kind name []) = s.touch (rowPlace (Item.new kind name []) []) := by
  show s.touch (placeOf _ []) = _
  rw [placeOf, List.mergeSort_nil]
  rfl

theorem Sound.creates (h : s.Sound) {kind : Kind} {name : String} {labelNames : List String}
    (hi : s.admits (Item.new kind name labelNames) = true) :
    client.Creates s ((s.append (Item.new kind name labelNames)).openRow
      (Item.new kind name labelNames)) (.new kind name labelNames)
      (Item.new kind name labelNames) where
  profile_eq := profile_new kind name labelNames
  registered_eq name' := by
    show ((s.append _).openRow _).registered? name' = _
    rw [registered?, items_openRow, ← registered?]
    exact registered?_append hi name'
  values_self row := by
    have hnone : s.values (Item.new kind name labelNames).profile.sampleName row = [] := by
      refine h.values_eq_nil (fun j hj hmem => ?_) row
      have hfree := admits_free hi _ (Kind.sampleName_mem_names kind (baseName kind name))
      cases hfree.symm.trans (h.named j hj _ hmem)
    rw [client_values]
    cases labelNames with
    | nil =>
      by_cases hrow : row = []
      · subst hrow
        have hrow : (Profile.new kind name []).row = some [] := rfl
        rw [openRow_new, if_pos hrow]
        exact (values_touch_self (s.append _) (Item.new kind name []) []).trans (if_pos hnone)
      · have hother := values_touch_of_labels_ne (s.append (Item.new kind name []))
          (i := Item.new kind name []) hrow (Item.new kind name []).profile.sampleName
        have hrow : (Profile.new kind name []).row ≠ some row :=
          fun heq => hrow (Option.some_inj.1 heq).symm
        rw [openRow_new, if_neg hrow]
        exact hother.trans hnone
    | cons => exact hnone.trans (if_neg fun heq => Option.some_ne_none row heq.symm).symm
  values_eq name' hname row := by
    rw [client_values, client_values]
    cases labelNames with
    | nil =>
      rw [openRow_new]
      exact values_touch_of_name_notMem (s.append _) (i := Item.new kind name []) hname [] row
    | cons => rfl

/-! ## The laws -/

theorem isReservedLabel_eq_false {name : String} (h : isPlainName name = true) :
    isReservedLabel name = false := by
  rw [isPlainName] at h
  rw [isReservedLabel]
  split at h
  · cases h
  · rename_i c rest hlist
    rw [hlist]
    have halpha : c.isAlpha = true := (Bool.and_eq_true_iff.1 h).1
    have hne : c ≠ '_' := by
      rintro rfl
      cases halpha
    split
    · rename_i heq
      exact absurd (List.cons.inj heq).1 hne
    · rfl

/-- The client in memory does what clients do. -/
theorem lawful : client.Lawful where
  validName_plain name h := by
    have hne : name ≠ "" := by
      rintro rfl
      cases h
    exact bne_iff_ne.2 hne
  validLabels_plain kind labelNames h := by
    have hreserved : labelNames.any isReservedLabel = false :=
      List.any_eq_false.2 fun name hname => by
        simp [isReservedLabel_eq_false (h name hname).1]
    have hbound : labelNames.contains boundLabel = false := by
      simpa using fun hmem => (h boundLabel hmem).2 rfl
    show labelsAllowed kind labelNames = true
    rw [labelsAllowed, hreserved, hbound, Bool.and_false]
    rfl
  validLabels_perm kind names names' h := by
    show labelsAllowed kind names = labelsAllowed kind names'
    rw [labelsAllowed, labelsAllowed, h.any_eq, h.contains_eq]
  registered_fresh _ := rfl
  construct_eq_none_iff s ms h kind name labelNames := by
    refine Iff.trans ?_ (not_congr (admits_iff s (Item.new kind name labelNames)))
    exact construct_eq_none_iff s kind name labelNames
  creates s ms h kind name labelNames s' i hnew := by
    have hnew := (construct_eq s kind name labelNames).symm.trans hnew
    split at hnew
    · cases hnew
      exact (holds_of_reached h).creates ‹_›
    · cases hnew
  values_unregistered s ms h name hname row := by
    rw [client_values s]
    refine (holds_of_reached h).values_eq_nil (fun i hi hmem => ?_) row
    cases hname.symm.trans ((holds_of_reached h).named i hi name hmem)
  values_row s ms h i hi row hrow := by
    obtain ⟨given, hgiven, rfl⟩ := Option.map_eq_some_iff.1 hrow
    obtain ⟨row, hmem, hplace⟩ := (holds_of_reached h).exists_row hi hgiven
    rw [client_values s]
    exact ⟨row.count, (holds_of_reached h).values_self hmem hplace⟩
  opens s ms h i hi labels hrow haccepted := by
    rcases labels_cases s i labels with ⟨-, -, heq⟩ | ⟨hnot, -⟩
    · exact ⟨_, _, heq, (holds_of_reached h).opens hi labels⟩
    · exact absurd ⟨Option.map_eq_none_iff.1 hrow, haccepted⟩ hnot
  labels_refused s ms h i hi labels hnot := by
    rcases labels_cases s i labels with ⟨hgiven, haccepted, -⟩ | ⟨-, hfault⟩
    · exact absurd ⟨Option.map_eq_none_iff.2 hgiven, haccepted⟩ hnot
    · exact hfault
  moves s ms h i hi row value x y hrow hgrowth hy := by
    obtain ⟨given, hgiven, rfl⟩ := Option.map_eq_some_iff.1 hrow
    obtain ⟨f, hf, hx⟩ := Row.exists_advance_eq_ok hgrowth
    rw [client_values s] at hy
    refine ⟨_, ?_, (holds_of_reached h).moves hi hgiven (Row.place_of_advance hf) hx hy⟩
    exact move_eq hgiven hf
  move_unlabelled s ms h i hi kind value hrow := by
    rcases move_cases kind s i value with ⟨given, f, -, hgiven, -, -⟩ | hfault
    · cases (Option.map_eq_none_iff.1 hrow).symm.trans hgiven
    · exact hfault
  increase_refused s ms h i hi amount hkind hnone := by
    rcases move_cases .counter s i amount with ⟨given, f, -, -, hf, -⟩ | hfault
    · rw [Row.advance] at hf
      cases hx : addition amount with
      | error fault => rw [hx] at hf; cases hf
      | ok x => rw [addend?, hx] at hnone; cases hnone
    · exact hfault

end Concordance.Metric.Store
