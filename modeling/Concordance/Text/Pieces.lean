/-!
# Cutting a text at a mark

* `pieces` — the parts of a text between the occurrences of a mark.
* `pieces_ne_nil` — there is at least one part.
* `intercalate_pieces` — the parts with the mark between them are the text.
* `pieces_eq_singleton` — a text without the mark is its only part.
-/

namespace Concordance.Text

/-- Puts a character before the first part. -/
def extendFirst (c : Char) : List (List Char) → List (List Char)
  | [] => [[c]]
  | p :: ps => (c :: p) :: ps

/-- The parts of a text between the occurrences of a mark. -/
def pieces (mark : Char) : List Char → List (List Char)
  | [] => [[]]
  | c :: rest => if c = mark then [] :: pieces mark rest else extendFirst c (pieces mark rest)

theorem pieces_ne_nil (mark : Char) (cs : List Char) : pieces mark cs ≠ [] := by
  induction cs with
  | nil => simp [pieces]
  | cons c rest ih =>
    by_cases h : c = mark
    · simp [pieces, h]
    · cases hp : pieces mark rest with
      | nil => exact absurd hp ih
      | cons p ps => simp [pieces, h, hp, extendFirst]

theorem intercalate_pieces (mark : Char) (cs : List Char) :
    List.intercalate [mark] (pieces mark cs) = cs := by
  induction cs with
  | nil => simp [pieces, List.intercalate]
  | cons c rest ih =>
    have hne := pieces_ne_nil mark rest
    cases hp : pieces mark rest with
    | nil => exact absurd hp hne
    | cons p ps =>
      rw [hp] at ih
      by_cases h : c = mark
      · subst h
        simpa [pieces, hp, List.intercalate, List.intersperse] using ih
      · cases ps with
        | nil => simpa [pieces, h, hp, extendFirst, List.intercalate, List.intersperse] using ih
        | cons q qs =>
          simpa [pieces, h, hp, extendFirst, List.intercalate, List.intersperse] using ih

theorem pieces_eq_singleton {mark : Char} {cs : List Char} (h : mark ∉ cs) :
    pieces mark cs = [cs] := by
  induction cs with
  | nil => rfl
  | cons c rest ih =>
    simp only [List.mem_cons, not_or] at h
    simp [pieces, Ne.symm h.1, ih h.2, extendFirst]

end Concordance.Text
