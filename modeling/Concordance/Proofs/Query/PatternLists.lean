import Concordance.Proofs.Pattern.Ending
import Concordance.Proofs.Query.Compiled

/-!
# One list of patterns

The patterns of a term under a strategy come to a caller on several ways: from the generator, from
the strategy itself with an ending as a text, from what was typed, in a bundle and in a search for
spellings.  On all of them the list is the same.

* `BundleRequest.patterns_of_short`, `Variation.patterns_of_short` — a term within the ceiling is
  compiled with its patterns.
* `generation_paths_agree` — the main statement.
-/

namespace Concordance

namespace Query

variable {o : Orthography} {ceilings : Limits}

/-- A word within the ceiling has a bundle with its patterns. -/
theorem BundleRequest.patterns_of_short {r : BundleRequest} {attr : Attribute}
    (hword : Term.clean r.word ≠ "") (hattr : Attribute.ofValue? r.attr = some attr)
    (hshort : ((Term.clean r.word).length : Int) ≤ ceilings.wordLength) :
    ∃ b, r.compile (.ofOrthography o) ceilings = .ok (.ok b) ∧
      ∀ s ∈ Strategy.named,
        b.patterns.lookup s.name =
          some (Pattern.patterns o s (Term.clean r.word) r.suffixed.truthy) := by
  have hlong : exceeds (Term.clean r.word) ceilings.wordLength = false := by
    simpa [exceeds] using hshort
  refine ⟨r.compiled attr _, BundleRequest.compile_eq_ok_iff.2 ⟨hword, hlong, attr, _, hattr,
    patternsUnder_ofOrthography o _ _ _, rfl⟩, ?_⟩
  intro s hs
  exact lookup_named (fun t => Pattern.patterns o t (Term.clean r.word) r.suffixed.truthy) hs

/-- A search for the spellings of two terms within the ceiling has the patterns of each. -/
theorem Variation.patterns_of_short {r : Variation} {limits : Distance.Limits} {attr : Attribute}
    {s : Strategy} (h1 : Term.clean r.term1 ≠ "") (h2 : Term.clean r.term2 ≠ "")
    (hattr : Attribute.ofValue? r.attr = some attr)
    (hstrategy : Strategy.ofValue? r.strategy = some s)
    (hshort1 : ((Term.clean r.term1).length : Int) ≤ ceilings.wordLength)
    (hshort2 : ((Term.clean r.term2).length : Int) ≤ ceilings.wordLength) :
    ∃ q, r.compile (.ofOrthography o) limits ceilings = .ok (.ok q) ∧
      q.patterns = [Pattern.patterns o s (Term.clean r.term1) false,
        Pattern.patterns o s (Term.clean r.term2) false] := by
  have hlong1 : exceeds (Term.clean r.term1) ceilings.wordLength = false := by
    simpa [exceeds] using hshort1
  have hlong2 : exceeds (Term.clean r.term2) ceilings.wordLength = false := by
    simpa [exceeds] using hshort2
  have haccepted : r.Accepted (.ofOrthography o) ceilings attr s
      (Pattern.patterns o s (Term.clean r.term1) false)
      (Pattern.patterns o s (Term.clean r.term2) false) :=
    ⟨h1, h2, hattr, hstrategy, by simp [hlong1, hlong2], rfl, rfl, Pattern.patterns_ne_nil h1,
      Pattern.patterns_ne_nil h2⟩
  exact ⟨_, Variation.compile_eq_ok_iff.2 ⟨attr, s, _, _, haccepted, rfl⟩, rfl⟩

end Query

open Pattern Query in
/-- **On all ways the patterns are the same.**  Whatever was typed, if a term is left of it, each
named strategy gives one list for it, with an ending or without: from the generator, from what was
typed, from the strategy with the ending as a text, in a bundle of a word within the ceiling, and by
putting the ending to each pattern of the list without one.  All patterns together are the four
lists one after the other, each pattern once; a search for the spellings of two terms within the
ceiling has the lists of both without endings; and without a known strategy there is the term alone,
with its ending. -/
theorem generation_paths_agree (typed : Value) (hterm : Term.clean typed ≠ "") :
    let word := Term.clean typed
    let generator := Generator.ofOrthography medieval
    let found (s : Strategy) (suffixed : Bool) := patterns medieval s word suffixed
    (∀ s ∈ Strategy.named, ∀ suffixed,
      (∀ given, Strategy.ofValue? given = some s →
        generator.patternSet word given suffixed = .ok ⟨word, s, found s suffixed, suffixed⟩ ∧
        termPatterns word given suffixed = found s suffixed) ∧
      variants medieval s word.toList (ending suffixed) = found s suffixed ∧
      (found s false).map (· ++ String.ofList (ending suffixed)) = found s suffixed ∧
      ∀ (attrGiven : Value) (attr : Attribute) (ceilings : Limits),
        Attribute.ofValue? attrGiven = some attr → (word.length : Int) ≤ ceilings.wordLength →
        ∃ b, BundleRequest.compile ⟨typed, .bool suffixed, attrGiven⟩ generator ceilings =
            .ok (.ok b) ∧ b.patterns.lookup s.name = some (found s suffixed)) ∧
    (∀ given suffixed, Strategy.ofValue? given = some .combined →
      generator.patternSet word given suffixed =
        .ok ⟨word, .combined, firstSeen (Strategy.named.flatMap (found · suffixed)), suffixed⟩) ∧
    (∀ given suffixed, Strategy.ofValue? given = none →
      termPatterns word given suffixed = [word ++ String.ofList (ending suffixed)]) ∧
    ∀ (r : Variation) (s : Strategy) (attr : Attribute) (limits : Distance.Limits)
      (ceilings : Limits), r.term1 = typed → Term.clean r.term2 ≠ "" →
      Attribute.ofValue? r.attr = some attr → Strategy.ofValue? r.strategy = some s →
      (word.length : Int) ≤ ceilings.wordLength →
      ((Term.clean r.term2).length : Int) ≤ ceilings.wordLength →
      ∃ q, r.compile generator limits ceilings = .ok (.ok q) ∧
        q.patterns = [found s false, patterns medieval s (Term.clean r.term2) false] := by
  intro word generator found
  refine ⟨fun s hs suffixed => ⟨?_, ?_, ?_, ?_⟩, ?_, ?_, ?_⟩
  · intro given h
    exact ⟨Generator.patternSet_ofOrthography h medieval word suffixed,
      termPatterns_eq h word suffixed⟩
  · exact (if_neg hterm).symm
  · exact patterns_map_ending medieval s word suffixed
  · intro attrGiven attr ceilings hattr hshort
    obtain ⟨b, hb, hfound⟩ := BundleRequest.patterns_of_short (o := medieval)
      (r := ⟨typed, .bool suffixed, attrGiven⟩) hterm hattr hshort
    exact ⟨b, hb, hfound s hs⟩
  · intro given suffixed h
    rw [Generator.patternSet_ofOrthography h medieval word suffixed, patterns_combined]
  · intro given suffixed h
    have hword : word ≠ "" := hterm
    simp only [termPatterns, hword, if_false, h]
  · rintro r s attr limits ceilings rfl h2 hattr hstrategy hshort1 hshort2
    exact Variation.patterns_of_short hterm h2 hattr hstrategy hshort1 hshort2

open Pattern Query in
/-- Of `Ab`, with an ending, the bundle has the list of simple patterns that the other ways give,
and a search for the spellings of `Ab` and `io` has the lists of both. -/
theorem bundled_patterns_are_generated :
    let typed : Value := .text " A@b "
    let ceilings : Limits := { wordLength := 2 }
    let bundled : BundleRequest := { word := typed }
    let spelled : Variation := { term1 := typed, term2 := .text "io", strategy := .text "ALL" }
    let simple := ["Ab[A-z]*", "[A-z]?b[A-z]*", "A[A-z]?[A-z]*"]
    Term.clean typed ≠ "" ∧
    (∃ b, bundled.compile (.ofOrthography medieval) ceilings = .ok (.ok b) ∧
      b.patterns.lookup "simple" = some simple) ∧
    termPatterns (Term.clean typed) (.text " Simple ") true = simple ∧
    termPatterns (Term.clean typed) (.text "phonetic") true = ["Ab[A-z]*"] ∧
    ∃ q, spelled.compile (.ofOrthography medieval) {} ceilings = .ok (.ok q) ∧
      q.patterns = [patterns medieval .combined "Ab" false, patterns medieval .combined "io" false]
    := by
  intro typed ceilings bundled spelled simple
  have hclean : Term.clean typed = "Ab" := by decide +kernel
  have hterm : Term.clean typed ≠ "" := by rw [hclean]; decide
  have hother : Term.clean (.text "io") = "io" := by decide +kernel
  have hsimple : patterns medieval .simple (Term.clean typed) true = simple := by
    rw [hclean]
    decide +kernel
  have hattr : Attribute.ofValue? (.choice (.ofAttribute .wordForm)) = some .wordForm := rfl
  have hshort : ((Term.clean typed).length : Int) ≤ ceilings.wordLength := by
    rw [hclean]
    decide
  obtain ⟨hnamed, -, hunknown, hpair⟩ := generation_paths_agree typed hterm
  obtain ⟨hread, -, -, hbundle⟩ := hnamed .simple (by decide) true
  obtain ⟨b, hb, hfound⟩ := hbundle _ _ ceilings hattr hshort
  obtain ⟨q, hq, hpatterns⟩ := hpair spelled .combined .wordForm {} ceilings rfl
    (by rw [show spelled.term2 = .text "io" from rfl, hother]; decide) hattr (by decide +kernel)
    hshort (by rw [show spelled.term2 = .text "io" from rfl, hother]; decide)
  refine ⟨hterm, ⟨b, hb, hfound.trans (congrArg some hsimple)⟩, ?_, ?_, q, hq, ?_⟩
  · exact (hread (.text " Simple ") (by decide +kernel)).2.trans hsimple
  · rw [hunknown (.text "phonetic") true (by decide +kernel), hclean]
    decide
  · rw [hpatterns, hclean, show spelled.term2 = .text "io" from rfl, hother]

end Concordance
