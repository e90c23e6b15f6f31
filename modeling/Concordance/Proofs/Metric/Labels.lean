import Concordance.Metric.Sample
import Concordance.Proofs.Value.Mapping
import Mathlib.Data.Prod.Lex

/-!
# Labels in order

A sample shows its labels in order, so that it does not matter in which order they are named.

* `labelLe_iff`, `mergeSort_labelLe_eq` — labels are ordered, and sorted alike however they come.
* `labelSet_perm`, `labelSet_eq` — labels as a sample shows them.
-/

namespace Concordance.Metric

theorem textLe_iff (s t : String) : textLe s t = true ↔ s ≤ t :=
  Value.charsLe_iff s.toList t.toList

theorem labelLe_iff (a b : String × String) : labelLe a b = true ↔ toLex a ≤ toLex b := by
  rw [labelLe, Prod.Lex.toLex_le_toLex]
  by_cases h : a.1 = b.1
  · simp [h, textLe_iff]
  · simp [h, textLe_iff, le_iff_lt_or_eq]

/-- Labels are sorted alike in whatever order they are given. -/
theorem mergeSort_labelLe_eq {xs ys : List (String × String)} (h : xs.Perm ys) :
    xs.mergeSort labelLe = ys.mergeSort labelLe := by
  have htrans (a b c : String × String) (hab : labelLe a b = true) (hbc : labelLe b c = true) :
      labelLe a c = true :=
    (labelLe_iff a c).2 (((labelLe_iff a b).1 hab).trans ((labelLe_iff b c).1 hbc))
  have htotal (a b : String × String) : (labelLe a b || labelLe b a) = true := by
    rw [Bool.or_eq_true, labelLe_iff, labelLe_iff]
    exact le_total _ _
  have hperm : (xs.mergeSort labelLe).Perm (ys.mergeSort labelLe) :=
    (List.mergeSort_perm xs labelLe).trans (h.trans (List.mergeSort_perm ys labelLe).symm)
  refine hperm.eq_of_pairwise (fun a b _ _ hab hba => ?_) (List.pairwise_mergeSort htrans htotal xs)
    (List.pairwise_mergeSort htrans htotal ys)
  exact toLex_inj.1 (le_antisymm ((labelLe_iff a b).1 hab) ((labelLe_iff b a).1 hba))

theorem labelSet_perm {names names' : List String} (h : names.Perm names')
    (labels : List (String × Value)) : labelSet names labels = labelSet names' labels :=
  mergeSort_labelLe_eq (h.map _)

/-- Labels that are sorted already are shown as they are. -/
theorem labelSet_eq {names : List String} {labels : List (String × Value)} {row : LabelSet}
    (h : (names.map fun name => (name, ((labels.lookup name).getD .null).display)).Perm row)
    (hsorted : row.Pairwise fun a b => labelLe a b = true) : labelSet names labels = row :=
  (mergeSort_labelLe_eq h).trans (List.mergeSort_of_pairwise hsorted)

end Concordance.Metric
