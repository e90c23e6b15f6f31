import Concordance.Proofs.Pattern.Alphabet

/-!
# Patterns and their ending

An ending keeps different patterns apart, so it makes no difference whether repeats are dropped
before the ending is put or after it: there are as many patterns with it as without it, in the same
order, and those of all strategies together are those of the named ones side by side.

* `patterns_eq_map` — the patterns are what a strategy derives, each once and with the ending.
* `length_patterns`, `nodup_patterns`, `head?_patterns` — their number, and the first of them.
* `patterns_map_ending` — those with the ending are those without it, each with the ending.
* `patterns_combined` — all patterns together are those of the named strategies, each once.
* `termPatterns_eq` — a term has them under a known strategy.
-/

namespace Concordance.Pattern

variable {o : Orthography} {t : Strategy} {word : String} {suffixed : Bool}

theorem suffixed_injective (tail p q : List Char)
    (h : String.ofList (p ++ tail) = String.ofList (q ++ tail)) : p = q :=
  List.append_cancel_right (String.ofList_injective h)

/-- Patterns without repeats have none with an ending either. -/
theorem variants_eq_map (o : Orthography) (t : Strategy) (word tail : List Char) :
    variants o t word tail =
      (firstSeen (derive o word t)).map fun p => String.ofList (p ++ tail) :=
  firstSeen_map fun p _ q _ h => suffixed_injective tail p q h

theorem patterns_eq_map (hword : word ≠ "") :
    patterns o t word suffixed =
      (firstSeen (derive o word.toList t)).map fun p => String.ofList (p ++ ending suffixed) := by
  rw [patterns, if_neg hword, variants_eq_map]

theorem length_patterns (hword : word ≠ "") :
    (patterns o t word suffixed).length = (firstSeen (derive o word.toList t)).length := by
  rw [patterns_eq_map hword, List.length_map]

theorem length_patterns_le :
    (patterns o t word suffixed).length ≤ (derive o word.toList t).length := by
  by_cases hword : word = ""
  · simp [patterns, hword]
  · rw [length_patterns hword]
    exact length_firstSeen_le _

theorem nodup_patterns : (patterns o t word suffixed).Nodup := by
  unfold patterns
  split
  · exact List.nodup_nil
  · exact nodup_firstSeen _

/-- The word itself, with the ending, is the first pattern. -/
theorem head?_patterns (hword : word ≠ "") :
    (patterns o t word suffixed).head? = some (word ++ String.ofList (ending suffixed)) := by
  obtain ⟨others, hothers⟩ : ∃ others, derive o word.toList t = word.toList :: others := by
    cases t <;> exact ⟨_, rfl⟩
  rw [patterns_eq_map hword, hothers, firstSeen, List.map_cons, List.head?_cons,
    String.ofList_append, String.ofList_toList]

theorem patterns_map_ending (o : Orthography) (t : Strategy) (word : String) (suffixed : Bool) :
    (patterns o t word false).map (· ++ String.ofList (ending suffixed)) =
      patterns o t word suffixed := by
  by_cases hword : word = ""
  · simp [patterns, hword]
  · rw [patterns_eq_map hword, patterns_eq_map hword, List.map_map]
    simp [Function.comp_def]

theorem patterns_combined (o : Orthography) (word : String) (suffixed : Bool) :
    patterns o .combined word suffixed =
      firstSeen (Strategy.named.flatMap fun t => patterns o t word suffixed) := by
  by_cases hword : word = ""
  · simp [patterns, hword, Strategy.named, firstSeen]
  · simp only [patterns, hword, if_false, variants, derive_combined, List.map_flatMap,
      firstSeen_flatMap]

theorem termPatterns_eq {given : Value} (h : Strategy.ofValue? given = some t) (term : String)
    (suffixed : Bool) : termPatterns term given suffixed = patterns medieval t term suffixed := by
  by_cases hterm : term = ""
  · simp [termPatterns, patterns, hterm]
  · simp only [termPatterns, hterm, if_false, h]

end Concordance.Pattern
