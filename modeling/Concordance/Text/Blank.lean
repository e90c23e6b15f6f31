import Concordance.Text.Ranges

/-!
# White space and trimming

* `isBlank` — the white space of Unicode, together with the four ASCII information separators.
* `trim` — a text without the white space at its two ends.
* `trimChars_eq_nil_iff` — trimming leaves nothing exactly when every character is blank.
-/

namespace Concordance.Text

/-- The code points that count as white space. -/
def blanks : Ranges :=
  [(0x09, 0x0D), (0x1C, 0x20), (0x85, 0x85), (0xA0, 0xA0), (0x1680, 0x1680), (0x2000, 0x200A),
    (0x2028, 0x2029), (0x202F, 0x202F), (0x205F, 0x205F), (0x3000, 0x3000)]

/-- White space. -/
def isBlank (c : Char) : Bool :=
  inRanges blanks c.toNat

/-- The characters without the white space before them. -/
def trimStart (cs : List Char) : List Char :=
  cs.dropWhile isBlank

/-- The characters without the white space after them. -/
def trimEnd (cs : List Char) : List Char :=
  (trimStart cs.reverse).reverse

/-- The characters without the white space around them. -/
def trimChars (cs : List Char) : List Char :=
  trimEnd (trimStart cs)

/-- The text without the white space around it. -/
def trim (s : String) : String :=
  String.ofList (trimChars s.toList)

@[simp]
theorem toList_trim (s : String) : (trim s).toList = trimChars s.toList := by
  simp [trim]

theorem trimStart_eq_nil_iff {cs : List Char} : trimStart cs = [] ↔ ∀ c ∈ cs, isBlank c = true := by
  induction cs with
  | nil => simp [trimStart]
  | cons c rest ih =>
    by_cases h : isBlank c
    · simp only [trimStart, List.dropWhile_cons, h, if_true, List.forall_mem_cons, true_and]
      exact ih
    · simp [trimStart, h]

theorem trimStart_eq_self {c : Char} {rest : List Char} (h : isBlank c = false) :
    trimStart (c :: rest) = c :: rest := by
  simp [trimStart, h]

theorem trimChars_eq_nil_iff {cs : List Char} : trimChars cs = [] ↔ ∀ c ∈ cs, isBlank c = true := by
  induction cs with
  | nil => simp [trimChars, trimEnd, trimStart]
  | cons c rest ih =>
    by_cases h : isBlank c
    · simpa [trimChars, trimStart, List.dropWhile_cons, h] using ih
    · simp only [trimChars, trimStart_eq_self (by simpa using h)]
      simp only [trimEnd, List.reverse_eq_nil_iff, trimStart_eq_nil_iff, List.mem_reverse]

end Concordance.Text
