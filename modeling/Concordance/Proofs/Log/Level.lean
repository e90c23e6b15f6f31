import Concordance.Log.Level
import Concordance.Proofs.Decimal.Integer
import Concordance.Proofs.Value.Mapping

/-!
# The number that a text means as a level

A text means the whole number that it denotes, or else the level of its name, or else 20.  It also
resolves to that number, unless something else than a level stands behind its name.

* `levelNumbers`, `reservedNames` — the names of levels, and those of something else.
* `Means`, `Reserved` — the number that a text means, and the texts with a name of the second kind.
* `existsUnique_means` — every text means one number.
* `resolve_of_means`, `resolve_of_reserved` — what texts resolve to.
-/

namespace Concordance.Log

open Concordance.Decimal Concordance.Text

/-- The levels by their names. -/
def levelNumbers : List (String × Int) :=
  [("CRITICAL", 50), ("FATAL", 50), ("ERROR", 40), ("WARNING", 30), ("WARN", 30), ("INFO", 20),
    ("DEBUG", 10), ("NOTSET", 0)]

/-- The names behind which something else than a level stands. -/
def reservedNames : List (String × String) :=
  [("BASIC_FORMAT", basicFormat), ("_STYLES", styleTable)]

/-- The number that a text means as a level. -/
inductive Means (s : String) : Int → Prop
  | number {n : Int} (h : Denotes s.toList n) : Means s n
  | name {n : Int} (hno : ¬∃ m, Denotes s.toList m) (h : (upperName s, n) ∈ levelNumbers) :
    Means s n
  | other (hno : ¬∃ m, Denotes s.toList m) (h : upperName s ∉ levelNumbers.map Prod.fst) :
    Means s 20

/-- The text is no number, and something else than a level stands behind its name. -/
def Reserved (s : String) : Prop :=
  (¬∃ m, Denotes s.toList m) ∧ upperName s ∈ reservedNames.map Prod.fst

section Texts

variable {s : String} {n : Int}

theorem levelNumbers_unique {name : String} {m : Int} (h : (name, n) ∈ levelNumbers)
    (h' : (name, m) ∈ levelNumbers) : n = m := by
  have hall : ∀ e ∈ levelNumbers, ∀ e' ∈ levelNumbers, e.1 = e'.1 → e.2 = e'.2 := by decide
  exact hall _ h _ h' rfl

/-- Every text means one number. -/
theorem existsUnique_means (s : String) : ∃! n, Means s n := by
  by_cases hno : ∃ m, Denotes s.toList m
  · obtain ⟨n, hn⟩ := hno
    refine ⟨n, .number hn, fun m hm => ?_⟩
    cases hm with
    | number h => exact h.unique hn
    | name h _ | other h _ => exact absurd ⟨n, hn⟩ h
  · by_cases hname : upperName s ∈ levelNumbers.map Prod.fst
    · obtain ⟨⟨name, n⟩, hmem, rfl⟩ := List.mem_map.1 hname
      refine ⟨n, .name hno hmem, fun m hm => ?_⟩
      cases hm with
      | number h => exact absurd ⟨m, h⟩ hno
      | name _ h => exact levelNumbers_unique h hmem
      | other _ h => exact absurd hname h
    · refine ⟨20, .other hno hname, fun m hm => ?_⟩
      cases hm with
      | number h => exact absurd ⟨m, h⟩ hno
      | name _ h => exact absurd (List.mem_map_of_mem h) hname
      | other _ _ => rfl

theorem resolve_of_denotes (h : Denotes s.toList n) :
    Level.resolve (.text s) = .ok (.number n) := by
  simp only [Level.resolve, Value.toInt, Value.integerIn, readInt_eq_number_iff.2 h]

/-- A text that is no number resolves to what stands behind its name. -/
theorem resolve_of_no_number (h : ¬∃ m, Denotes s.toList m) :
    Level.resolve (.text s) = .ok (Level.ofName s) := by
  cases hread : readInt s.toList with
  | number n => exact absurd ⟨n, readInt_eq_number_iff.1 hread⟩ h
  | malformed | tooLong => simp [Level.resolve, Value.toInt, Value.integerIn, hread]

theorem levelNames_eq : levelNames =
    levelNumbers.map (fun e => (e.1, .number e.2)) ++
      reservedNames.map fun e => (e.1, .words e.2) :=
  rfl

theorem nodup_levelNames : (levelNames.map Prod.fst).Nodup := by
  decide

theorem ofName_of_mem {level : Level} (h : (upperName s, level) ∈ levelNames) :
    Level.ofName s = level := by
  rw [Level.ofName, (Value.lookup_eq_some_iff_mem nodup_levelNames).2 h]
  rfl

theorem number_mem_levelNames {name : String} (h : (name, n) ∈ levelNumbers) :
    (name, Level.number n) ∈ levelNames := by
  rw [levelNames_eq, List.mem_append]
  exact .inl (List.mem_map_of_mem h)

theorem words_mem_levelNames {name w : String} (h : (name, w) ∈ reservedNames) :
    (name, Level.words w) ∈ levelNames := by
  rw [levelNames_eq, List.mem_append]
  exact .inr (List.mem_map_of_mem h)

theorem ofName_of_notMem (hlevel : upperName s ∉ levelNumbers.map Prod.fst)
    (hreserved : upperName s ∉ reservedNames.map Prod.fst) : Level.ofName s = .number 20 := by
  have hnone : levelNames.lookup (upperName s) = none := by
    rw [List.lookup_eq_none_iff]
    intro e he
    rw [levelNames_eq, List.mem_append, List.mem_map, List.mem_map] at he
    rw [bne_iff_ne]
    rintro heq
    rcases he with ⟨e', he', rfl⟩ | ⟨e', he', rfl⟩
    · exact hlevel (heq ▸ List.mem_map_of_mem he')
    · exact hreserved (heq ▸ List.mem_map_of_mem he')
  rw [Level.ofName, hnone]
  rfl

/-- A text resolves to the number that it means, unless its name is reserved. -/
theorem resolve_of_means (h : Means s n) (hfree : ¬Reserved s) :
    Level.resolve (.text s) = .ok (.number n) := by
  cases h with
  | number h => exact resolve_of_denotes h
  | name hno h => rw [resolve_of_no_number hno, ofName_of_mem (number_mem_levelNames h)]
  | other hno h =>
    have hname : upperName s ∉ reservedNames.map Prod.fst := fun hmem => hfree ⟨hno, hmem⟩
    rw [resolve_of_no_number hno, ofName_of_notMem h hname]

theorem resolve_of_reserved (h : Reserved s) :
    ∃ w, (upperName s, w) ∈ reservedNames ∧ Level.resolve (.text s) = .ok (.words w) := by
  obtain ⟨hno, hname⟩ := h
  obtain ⟨⟨name, w⟩, hmem, rfl⟩ := List.mem_map.1 hname
  exact ⟨w, hmem, by rw [resolve_of_no_number hno, ofName_of_mem (words_mem_levelNames hmem)]⟩

end Texts

end Concordance.Log
