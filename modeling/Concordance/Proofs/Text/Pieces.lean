import Concordance.Text.Pieces
import Mathlib.Data.List.Basic

/-!
# Cutting at a mark what was put together

* `pieces_append_mark` — a text is cut at a mark in its middle, and both sides are cut on their own.
* `pieces_joined` — of texts put together with the mark, the parts of each one follow each other.
* `pieces_intercalate` — so parts without the mark are found again.
* `forall_mem_intercalate` — where the characters of the whole come from.
* `infix_of_mem_pieces` — a part stands in its text in one run.
-/

namespace Concordance.Text

theorem extendFirst_append (c : Char) {ps : List (List Char)} (hne : ps ≠ [])
    (qs : List (List Char)) : extendFirst c (ps ++ qs) = extendFirst c ps ++ qs := by
  cases ps with
  | nil => exact absurd rfl hne
  | cons p rest => rfl

theorem pieces_append_mark (mark : Char) (p rest : List Char) :
    pieces mark (p ++ mark :: rest) = pieces mark p ++ pieces mark rest := by
  induction p with
  | nil => simp [pieces]
  | cons c p ih =>
    rw [List.cons_append, pieces, pieces, ih]
    split
    · rfl
    · exact extendFirst_append c (pieces_ne_nil mark p) _

theorem pieces_joined (mark : Char) {ps : List (List Char)} (hne : ps ≠ []) :
    pieces mark (List.intercalate [mark] ps) = ps.flatMap (pieces mark) := by
  induction ps with
  | nil => exact absurd rfl hne
  | cons p rest ih =>
    cases rest with
    | nil => rw [List.intercalate_singleton, List.flatMap_singleton]
    | cons q more =>
      rw [List.intercalate_cons_cons, List.append_assoc, List.singleton_append, pieces_append_mark,
        ih (List.cons_ne_nil _ _)]
      rfl

theorem pieces_intercalate {mark : Char} {ps : List (List Char)} (hne : ps ≠ [])
    (h : ∀ p ∈ ps, mark ∉ p) : pieces mark (List.intercalate [mark] ps) = ps := by
  rw [pieces_joined mark hne, List.flatMap_def,
    List.map_congr_left fun p hp => pieces_eq_singleton (h p hp)]
  simp [← List.flatMap_def]

theorem infix_intercalate {α : Type} (mark : List α) {p : List α} {ps : List (List α)}
    (h : p ∈ ps) : p <:+: mark.intercalate ps := by
  induction ps with
  | nil => cases h
  | cons q rest ih =>
    cases rest with
    | nil =>
      obtain rfl := List.mem_singleton.1 h
      simp [List.intercalate_singleton]
    | cons r more =>
      rw [List.intercalate_cons_cons, List.append_assoc]
      rcases List.mem_cons.1 h with rfl | h
      · exact (List.prefix_append _ _).isInfix
      · have hrest := ih h
        exact (hrest.trans (List.suffix_append _ _).isInfix).trans (List.suffix_append _ _).isInfix

/-- What holds of the characters of the mark and of all parts holds of those of the whole. -/
theorem forall_mem_intercalate {P : Char → Prop} {mark : List Char} (hmark : ∀ c ∈ mark, P c)
    {ps : List (List Char)} (h : ∀ p ∈ ps, ∀ c ∈ p, P c) : ∀ c ∈ mark.intercalate ps, P c := by
  induction ps with
  | nil => exact List.forall_mem_nil _
  | cons p rest ih =>
    rw [List.forall_mem_cons] at h
    cases rest with
    | nil => simpa [List.intercalate_singleton] using h.1
    | cons q more =>
      rw [List.intercalate_cons_cons]
      exact List.forall_mem_append.2 ⟨List.forall_mem_append.2 ⟨h.1, hmark⟩, ih h.2⟩

theorem infix_of_mem_pieces {mark : Char} {cs p : List Char} (h : p ∈ pieces mark cs) :
    p <:+: cs := by
  have hinfix := infix_intercalate [mark] h
  rwa [intercalate_pieces] at hinfix

end Concordance.Text
