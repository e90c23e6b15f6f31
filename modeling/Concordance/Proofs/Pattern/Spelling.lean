import Concordance.Proofs.Pattern.Alphabet
import Mathlib.Computability.Language

/-!
# The spellings of a pattern

A pattern is read over all the characters of a word: ordinary characters stand for themselves,
`[A-z]` stands for one letter, and what a `?` or a `*` follows may be missing or, for `*`, be
repeated.  A value with bars accepts what one of its parts does.

* `symbols` — the parts of a pattern's text.
* `spellings`, `language` — the words that a pattern accepts.
* `Accepts` — the words that a value accepts.
* `accepts_iff_of_isTerm` — a term accepts itself and nothing else.
-/

namespace Concordance.Pattern

open Concordance.Term Concordance.Text

/-- What stands for one character of a word. -/
inductive Atom where
  | literal (c : Char)
  /-- Any code point from `A` to `z`. -/
  | letter
  deriving DecidableEq, Repr

/-- A part of a pattern's text. -/
inductive Symbol where
  | atom (a : Atom)
  /-- What comes before may be missing. -/
  | optional
  /-- What comes before may be missing or repeated. -/
  | any
  deriving DecidableEq, Repr

/-- The parts of a pattern's text. -/
def symbols : List Char → List Symbol
  | '[' :: 'A' :: '-' :: 'z' :: ']' :: rest => .atom .letter :: symbols rest
  | '?' :: rest => .optional :: symbols rest
  | '*' :: rest => .any :: symbols rest
  | c :: rest => .atom (.literal c) :: symbols rest
  | [] => []

example : symbols ("r".toList ++ optionalLetter ++ "o".toList) =
    [.atom (.literal 'r'), .atom .letter, .optional, .atom (.literal 'o')] := by decide

/-- The letters that `[A-z]` stands for, with the signs between `Z` and `a`. -/
def isLetter (c : Char) : Bool :=
  'A' ≤ c && c ≤ 'z'

/-- The words of one character that an atom accepts. -/
def Atom.language : Atom → Language Char
  | .literal c => {[c]}
  | .letter => {w | ∃ c, isLetter c = true ∧ w = [c]}

/-- The words that the parts of a pattern accept; a mark without an atom accepts none. -/
def spellings : List Symbol → Language Char
  | [] => 1
  | .atom a :: .optional :: rest => (1 + a.language) * spellings rest
  | .atom a :: .any :: rest => KStar.kstar a.language * spellings rest
  | .atom a :: rest => a.language * spellings rest
  | .optional :: _ => 0
  | .any :: _ => 0

/-- The words that a pattern accepts. -/
def language (p : String) : Language Char :=
  spellings (symbols p.toList)

/-- The value accepts the word: one of the patterns between its bars does. -/
def Accepts (value word : String) : Prop :=
  ∃ p ∈ alternatives value, word.toList ∈ language p

/-! ## Words without marks -/

/-- A character that stands for itself. -/
def isLiteral (c : Char) : Bool :=
  c ≠ '[' && c ≠ '?' && c ≠ '*'

theorem symbols_literal {c : Char} (h : isLiteral c = true) (rest : List Char) :
    symbols (c :: rest) = .atom (.literal c) :: symbols rest := by
  simp only [isLiteral, ne_eq, decide_not, Bool.and_eq_true, Bool.not_eq_true',
    decide_eq_false_iff_not] at h
  rw [symbols] <;> simp [h]

theorem symbols_word {w : List Char} (h : ∀ c ∈ w, isLiteral c = true) :
    symbols w = w.map fun c => .atom (.literal c) := by
  induction w with
  | nil => rfl
  | cons c rest ih =>
    rw [List.forall_mem_cons] at h
    rw [symbols_literal h.1, ih h.2]
    rfl

/-- A word whose characters stand for themselves is spelled in one way. -/
theorem spellings_word (w : List Char) :
    spellings (w.map fun c => .atom (.literal c)) = {w} := by
  induction w with
  | nil => rfl
  | cons c rest ih =>
    have hstep : spellings ((c :: rest).map fun c => .atom (.literal c)) =
        {[c]} * spellings (rest.map fun c => .atom (.literal c)) := by
      cases rest <;> rfl
    rw [hstep, ih]
    exact Set.image2_singleton

theorem isLiteral_of_isTermChar {c : Char} (h : isTermChar c = true) : isLiteral c = true := by
  have hne : ∀ d, isTermChar d = false → c ≠ d := by
    rintro d hd rfl
    rw [hd] at h
    cases h
  simp [isLiteral, hne '[' (by decide), hne '?' (by decide), hne '*' (by decide)]

theorem isLiteral_of_isTerm {v : String} (h : IsTerm v) : ∀ c ∈ v.toList, isLiteral c = true :=
  fun c hc => isLiteral_of_isTermChar (isTermChar_of_isTerm h c hc)

theorem language_of_isTerm {v : String} (h : IsTerm v) : language v = {v.toList} := by
  rw [language, symbols_word (isLiteral_of_isTerm h), spellings_word]

/-- A value without bars is one pattern. -/
theorem accepts_iff_of_noBar {v word : String} (h : '|' ∉ v.toList) :
    Accepts v word ↔ word.toList ∈ language v := by
  have halone : alternatives v = [v] := by
    rw [alternatives, pieces_eq_singleton h]
    simp
  simp only [Accepts, halone, List.mem_singleton, exists_eq_left]

/-- **A term accepts itself and nothing else.** -/
theorem accepts_iff_of_isTerm {v word : String} (h : IsTerm v) : Accepts v word ↔ word = v := by
  rw [accepts_iff_of_noBar (notMem_of_isTerm h (by decide)), language_of_isTerm h]
  exact String.toList_inj

end Concordance.Pattern
