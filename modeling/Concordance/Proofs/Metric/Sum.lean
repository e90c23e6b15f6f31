import Concordance.Metric.Amount
import Concordance.Proofs.Decimal.Whole

/-!
# Sums of amounts

A counter is moved on by adding doubles.  What an amount adds does not depend on the total, so that
the total is the sum of what the amounts add, one after the other.

* `floatOfInt_whole` — whole numbers that doubles hold.
* `sum`, `sum_concat` — amounts added up.
* `IsNumber`, `sum_eq` — whole amounts come to their exact sum, as long as doubles hold it.
-/

namespace Concordance.Metric

open Concordance.Decimal

/-- A whole number that doubles hold has a double. -/
theorem floatOfInt_whole {k : Nat} (h : k ≤ 2 ^ 53) :
    Value.floatOfInt k = .ok (ofQuotient false k 1) := by
  have hnot : ¬((k : Int) < 0) := by omega
  have hfinite : ∃ s m q, magnitude (ofQuotient false k 1) = .finite s m q := by
    rcases Nat.eq_zero_or_pos k with rfl | hk
    · exact ⟨_, _, _, magnitude_ofQuotient_zero⟩
    · exact ⟨_, _, _, magnitude_ofQuotient hk.ne' h⟩
  obtain ⟨s, m, q, hfinite⟩ := hfinite
  simp only [Value.floatOfInt, ofWhole?, decide_eq_false hnot, Int.natAbs_natCast, hfinite]

/-! ## Sums -/

/-- Amounts added up as doubles, one after the other; what adds nothing is left out. -/
def sum (amounts : List Value) : Float :=
  (amounts.filterMap addend?).foldl (· + ·) 0

theorem sum_concat (amounts : List Value) (amount : Value) :
    sum (amounts ++ [amount]) = (addend? amount).elim (sum amounts) (sum amounts + ·) := by
  rw [sum, List.filterMap_append, List.foldl_append, ← sum]
  cases h : addend? amount with
  | none => rw [List.filterMap_cons_none h]; rfl
  | some x => rw [List.filterMap_cons_some h]; rfl

/-- An amount is a whole number, given as such or as a double. -/
inductive IsNumber : Value → Int → Prop where
  | int (n : Int) : IsNumber (.int n) n
  | bool (b : Bool) : IsNumber (.bool b) b.toNat
  | float {n : Nat} (h : n ≤ 2 ^ 53) : IsNumber (.float (ofQuotient false n 1)) n

theorem addend?_of_isNumber {amount : Value} {n : Int} (h : IsNumber amount n)
    (hn : n.toNat ≤ 2 ^ 53) :
    addend? amount = if n < 0 then none else some (ofQuotient false n.toNat 1) := by
  cases h with
  | int n =>
    simp only [addend?, addition, Value.magnitude?, compareMagnitude_wholeMagnitude,
      Option.some_inj, Int.compare_eq_lt]
    by_cases hneg : n < 0
    · rw [if_pos hneg, if_pos hneg]
      rfl
    · have hfloat := floatOfInt_whole (k := n.toNat) hn
      rw [Int.toNat_of_nonneg (Int.not_lt.1 hneg)] at hfloat
      rw [if_neg hneg, if_neg hneg, Value.toFloat, hfloat]
      rfl
  | bool b =>
    have hnot : ¬((b.toNat : Int) < 0) := by omega
    have hfloat := floatOfInt_whole (k := b.toNat) hn
    simp only [addend?, addition, Value.magnitude?, compareMagnitude_wholeMagnitude,
      Option.some_inj, Int.compare_eq_lt, if_neg hnot, Value.toFloat, hfloat]
    rfl
  | float hle =>
    rename_i k
    have hnot : ¬((k : Int) < 0) := by omega
    simp only [addend?, addition, Value.magnitude?, compareMagnitude_ofQuotient hle,
      Option.some_inj, Int.compare_eq_lt, if_neg hnot]
    rfl

/-- Whole amounts come to their exact sum as long as doubles hold it; negative ones do not count. -/
theorem sum_eq {amounts : List Value} {ns : List Int} (h : List.Forall₂ IsNumber amounts ns)
    (hsum : (ns.map Int.toNat).sum ≤ 2 ^ 53) :
    sum amounts = ofQuotient false (ns.map Int.toNat).sum 1 := by
  have hfrom (m : Nat) (hm : m + (ns.map Int.toNat).sum ≤ 2 ^ 53) :
      (amounts.filterMap addend?).foldl (· + ·) (ofQuotient false m 1) =
        ofQuotient false (m + (ns.map Int.toNat).sum) 1 := by
    clear hsum
    induction h generalizing m with
    | nil => rfl
    | cons hamount _ ih =>
      rename_i amount n amounts ns _
      rw [List.map_cons, List.sum_cons] at hm ⊢
      have hadd := addend?_of_isNumber hamount (by omega)
      by_cases hneg : n < 0
      · have hzero : n.toNat = 0 := Int.toNat_of_nonpos (Int.le_of_lt hneg)
        rw [if_pos hneg] at hadd
        rw [List.filterMap_cons_none hadd, ih m (by omega), hzero, Nat.zero_add]
      · rw [if_neg hneg] at hadd
        rw [List.filterMap_cons_some hadd, List.foldl_cons, ofQuotient_add (by omega),
          ih (m + n.toNat) (by omega), Nat.add_assoc]
  have hzero := hfrom 0 (by omega)
  rwa [Nat.zero_add] at hzero

end Concordance.Metric
