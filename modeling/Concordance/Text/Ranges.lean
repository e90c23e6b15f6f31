/-!
# Tables of code points

* `inRanges` — membership of a code point in a table of closed ranges.
* `isAlphanum_iff` — the letters and digits of ASCII as ranges.
-/

namespace Concordance.Text

/-- A table of closed ranges of code points. -/
abbrev Ranges := List (Nat × Nat)

/-- Some range of the table contains the code point. -/
def inRanges (table : Ranges) (code : Nat) : Bool :=
  table.any fun r => r.1 ≤ code && code ≤ r.2

theorem isAlphanum_iff {c : Char} : c.isAlphanum = true ↔
    'a' ≤ c ∧ c ≤ 'z' ∨ 'A' ≤ c ∧ c ≤ 'Z' ∨ '0' ≤ c ∧ c ≤ '9' := by
  change (decide ('A'.val ≤ c.val ∧ c.val ≤ 'Z'.val) || ('a'.val ≤ c.val && c.val ≤ 'z'.val) ||
    ('0'.val ≤ c.val && c.val ≤ '9'.val)) = true ↔ _
  simp only [Bool.or_eq_true, Bool.and_eq_true, decide_eq_true_eq, Char.le_def]
  rw [or_assoc, or_left_comm]

end Concordance.Text
