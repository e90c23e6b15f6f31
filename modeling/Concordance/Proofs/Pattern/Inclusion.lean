import Concordance.Proofs.Pattern.Ending
import Concordance.Proofs.Pattern.Matched
import Concordance.Proofs.Pattern.Respelled

/-!
# Which strategies match what others match

A run of letters takes in the letter or nothing that the simple patterns allow, so the medium
patterns match whatever the simple ones do.  Two holes take in what one hole does as soon as some
other character of the word is itself a letter, which its own hole lets stand, and they take in a
respelling in letters because the medieval keys are one or two characters long.

* `HasEnding` — a stem with what the ending of the patterns allows behind it.
* `accepts_patterns_iff_matched`, `accepts_respelled_iff` — the words that patterns match are the
  stems that are meant, with an ending.
* `OneRunApart.twoRunsApart` — with two letters in the word, one hole is a case of two.
* `Respelled.twoRunsApart` — and so is a respelling in letters.
* `wider_strategies_match_more` — the main statement.
-/

namespace Concordance

namespace Pattern

open Concordance.Term

/-! ## Stems and endings -/

/-- The word is a stem, with a run of letters behind it if endings are matched. -/
def HasEnding (suffixed : Bool) (stem word : String) : Prop :=
  ∃ tail : String, word = stem ++ tail ∧ if suffixed then IsRun tail.toList else tail = ""

theorem hasEnding_self (suffixed : Bool) (stem : String) : HasEnding suffixed stem stem := by
  refine ⟨"", String.append_empty.symm, ?_⟩
  cases suffixed with
  | false => rfl
  | true => exact List.forall_mem_nil _

theorem hasEnding_false {stem word : String} : HasEnding false stem word ↔ word = stem := by
  simp [HasEnding]

section Endings

variable {word token : String}

/-- The patterns of a term match the words that are meant, each with an ending. -/
theorem accepts_patterns_iff_matched (hword : IsTerm word) (s : Strategy) (suffixed : Bool) :
    Accepts (Cql.alternation (patterns medieval s word suffixed)) token ↔
      ∃ stem, Matched s word stem ∧ HasEnding suffixed stem token := by
  have hw := isLiteral_of_isTerm hword
  rw [accepts_patterns_iff hword]
  cases suffixed with
  | false =>
    simp only [ending_false, List.append_nil, hasEnding_false, exists_eq_right']
    exact exists_derived_iff hword.ne_empty hw s
  | true =>
    simp only [ending_true, exists_suffixed_iff hw, exists_derived_iff hword.ne_empty hw, HasEnding,
      if_true]
    constructor
    · rintro ⟨stem, tail, htoken, htail, hstem⟩
      exact ⟨stem, hstem, tail, htoken, htail⟩
    · rintro ⟨stem, hstem, tail, htoken, htail⟩
      exact ⟨stem, tail, htoken, htail, hstem⟩

/-- A text without marks, as a pattern with an ending, matches itself with an ending. -/
theorem mem_language_suffixed {stem : String} (h : ∀ c ∈ stem.toList, isLiteral c = true)
    (suffixed : Bool) :
    token.toList ∈ language (stem ++ String.ofList (ending suffixed)) ↔
      HasEnding suffixed stem token := by
  rw [language, String.toList_append, String.toList_ofList]
  cases suffixed with
  | false =>
    rw [ending_false, List.append_nil, (spells_word h).spellings_eq,
      hasEnding_false, ← String.toList_inj]
    rfl
  | true =>
    rw [ending_true, ((spells_word h).append spells_anyLetters).spellings_eq, mem_word_mul]
    simp only [mem_run_iff, HasEnding, if_true]
    constructor
    · rintro ⟨r, hr, htoken⟩
      refine ⟨String.ofList r, ?_, by rwa [String.toList_ofList]⟩
      rw [← String.toList_inj, htoken]
      simp
    · rintro ⟨tail, rfl, htail⟩
      exact ⟨tail.toList, htail, String.toList_append⟩

theorem isLiteral_of_mem_historical (hword : IsTerm word) {p : String}
    (hp : p ∈ patterns medieval .historical word false) : ∀ c ∈ p.toList, isLiteral c = true := by
  obtain ⟨-, q, hq, rfl⟩ := mem_patterns.1 hp
  rw [String.toList_ofList, ending_false, List.append_nil]
  exact isLiteral_of_respelling (isLiteral_of_isTerm hword) hq

/-- A respelling of a term, as a pattern with an ending, is one of its patterns and matches itself
with an ending. -/
theorem accepts_respelled_iff (hword : IsTerm word) {spelling variant : String}
    (h : Respelled medieval spelling word variant) (suffixed : Bool) :
    Accepts (variant ++ String.ofList (ending suffixed)) token ↔
      HasEnding suffixed variant token := by
  have hlisted : variant ∈ patterns medieval .historical word false :=
    (mem_patterns_historical hword.ne_empty).2 (.inr ⟨spelling, h⟩)
  have hpattern : variant ++ String.ofList (ending suffixed) ∈
      patterns medieval .historical word suffixed := by
    rw [← patterns_map_ending]
    exact List.mem_map_of_mem hlisted
  rw [accepts_iff_of_noBar (notMem_of_mem_patterns hword hpattern (by decide))]
  exact mem_language_suffixed (isLiteral_of_mem_historical hword hlisted) suffixed

end Endings

/-! ## One hole and two -/

section Holes

variable {w t : List Char}

theorem isLetter_of_isAlpha {c : Char} (h : c.isAlpha = true) : isLetter c = true := by
  have hbounds : 'A' ≤ c ∧ c ≤ 'z' := by
    rcases Bool.or_eq_true_iff.1 (show (c.isUpper || c.isLower) = true from h) with hcase | hcase
    · obtain ⟨hfirst, hlast⟩ : 'A' ≤ c ∧ c ≤ 'Z' := of_decide_eq_true hcase
      exact ⟨hfirst, Char.le_trans hlast (by decide)⟩
    · obtain ⟨hfirst, hlast⟩ := Bool.and_eq_true_iff.1 hcase
      exact ⟨Char.le_trans (by decide) (of_decide_eq_true hfirst), of_decide_eq_true hlast⟩
  simpa only [isLetter, Bool.and_eq_true, decide_eq_true_eq] using hbounds

theorem isRun_of_isAlpha {r : List Char} (h : ∀ c ∈ r, c.isAlpha = true) : IsRun r :=
  fun c hc => isLetter_of_isAlpha (h c hc)

/-- At most one letter is a run of letters. -/
theorem OneLetterApart.oneRunApart (h : OneLetterApart w t) : OneRunApart w t := by
  obtain ⟨u, c, v, hsplit, rfl | ⟨d, hd, rfl⟩⟩ := h
  · exact ⟨u, c, v, [], hsplit, List.forall_mem_nil _, by simp⟩
  · exact ⟨u, c, v, [d], hsplit, List.forall_mem_singleton.2 hd, by simp⟩

/-- Of two letters one stands outside the hole, and a hole of its own lets it stand. -/
theorem OneRunApart.twoRunsApart (h : OneRunApart w t) (hw : 2 ≤ w.countP Char.isAlpha) :
    TwoRunsApart w t := by
  obtain ⟨u, c, v, r, rfl, hr, rfl⟩ := h
  have hother : 0 < u.countP Char.isAlpha ∨ 0 < v.countP Char.isAlpha := by
    rw [List.countP_append, List.countP_cons] at hw
    split at hw <;> omega
  rcases hother with hu | hv
  · obtain ⟨e, he, hletter⟩ := List.countP_pos_iff.1 hu
    obtain ⟨before, after, rfl⟩ := List.append_of_mem he
    have hrun : IsRun [e] := List.forall_mem_singleton.2 (isLetter_of_isAlpha hletter)
    exact ⟨before, e, after, c, v, [e], r, by simp, hrun, hr, by simp⟩
  · obtain ⟨e, he, hletter⟩ := List.countP_pos_iff.1 hv
    obtain ⟨before, after, rfl⟩ := List.append_of_mem he
    have hrun : IsRun [e] := List.forall_mem_singleton.2 (isLetter_of_isAlpha hletter)
    exact ⟨u, c, before, e, after, r, [e], by simp, hr, hrun, by simp⟩

end Holes

/-! ## Respellings -/

/-- Every key of the medieval orthography is one character or two. -/
theorem length_key_medieval :
    ∀ e ∈ medieval.substitutions ++ medieval.vowels,
      e.1.toList.length = 1 ∨ e.1.toList.length = 2 := by
  decide +kernel

/-- The spellings of the medieval orthography are in letters or have a ligature. -/
theorem letters_or_ligature_medieval :
    ∀ e ∈ medieval.substitutions ++ medieval.vowels, ∀ spelling ∈ e.2,
      (∀ c ∈ spelling.toList, c.isAlpha = true) ∨
        'æ' ∈ spelling.toList ∨ 'œ' ∈ spelling.toList := by
  have hall : ((medieval.substitutions ++ medieval.vowels).all fun e => e.2.all fun s =>
      s.toList.all Char.isAlpha || (s.toList.elem 'æ' || s.toList.elem 'œ')) = true := by
    decide +kernel
  intro e he spelling hspelling
  have hone := List.all_eq_true.1 (List.all_eq_true.1 hall e he) spelling hspelling
  rwa [Bool.or_eq_true, Bool.or_eq_true, List.all_eq_true, List.elem_iff, List.elem_iff] at hone

theorem Respelled.letters_or_ligature {spelling word variant : String}
    (h : Respelled medieval spelling word variant) :
    (∀ c ∈ spelling.toList, c.isAlpha = true) ∨
      'æ' ∈ spelling.toList ∨ 'œ' ∈ spelling.toList := by
  obtain ⟨e, he, hmem, -⟩ := h
  exact letters_or_ligature_medieval e he spelling hmem

/-- A respelling in letters stands in one hole or, with nothing in the second one, in two. -/
theorem Respelled.twoRunsApart {spelling word variant : String}
    (h : Respelled medieval spelling word variant)
    (hletters : ∀ c ∈ spelling.toList, c.isAlpha = true)
    (hword : 2 ≤ word.toList.countP Char.isAlpha) : TwoRunsApart word.toList variant.toList := by
  obtain ⟨e, he, -, -, before, after, rfl, rfl⟩ := h
  have hrun := isRun_of_isAlpha hletters
  rcases length_key_medieval e he with hone | htwo
  · obtain ⟨c, hc⟩ := List.length_eq_one_iff.1 hone
    refine OneRunApart.twoRunsApart ⟨before.toList, c, after.toList, spelling.toList, ?_, hrun, ?_⟩
      hword
    · simp [hc]
    · simp
  · obtain ⟨c, d, hcd⟩ := List.length_eq_two.1 htwo
    refine ⟨before.toList, c, [], d, after.toList, spelling.toList, [], ?_, hrun,
      List.forall_mem_nil _, ?_⟩
    · simp [hcd]
    · simp

/-! ## One strategy after the other -/

section Strategies

variable {word stem : String}

theorem Matched.medium_of_simple (h : Matched .simple word stem) : Matched .medium word stem :=
  h.imp_right OneLetterApart.oneRunApart

theorem Matched.complex_of_medium (hletters : 2 ≤ word.toList.countP Char.isAlpha)
    (h : Matched .medium word stem) : Matched .complex word stem :=
  h.imp_right fun hrun => hrun.twoRunsApart hletters

/-- All patterns together match what those with two holes do, and respellings with a ligature. -/
theorem matched_combined_iff (hne : word ≠ "")
    (hletters : 2 ≤ word.toList.countP Char.isAlpha) :
    Matched .combined word stem ↔
      Matched .complex word stem ∨
        ∃ spelling, ('æ' ∈ spelling.toList ∨ 'œ' ∈ spelling.toList) ∧
          Respelled medieval spelling word stem := by
  constructor
  · rintro (hword | hone | hrun | hruns | hlisted)
    · exact .inl (.inl hword)
    · exact .inl (Matched.complex_of_medium hletters (Matched.medium_of_simple (.inr hone)))
    · exact .inl (Matched.complex_of_medium hletters (.inr hrun))
    · exact .inl (.inr hruns)
    · rcases (mem_patterns_historical hne).1 hlisted with hword | ⟨spelling, h⟩
      · exact .inl (.inl hword)
      · rcases h.letters_or_ligature with hspelling | hligature
        · exact .inl (.inr (h.twoRunsApart hspelling hletters))
        · exact .inr ⟨spelling, hligature, h⟩
  · rintro ((hword | hruns) | ⟨spelling, -, h⟩)
    · exact .inl hword
    · exact .inr (.inr (.inr (.inl hruns)))
    · exact .inr (.inr (.inr (.inr ((mem_patterns_historical hne).2 (.inr ⟨spelling, h⟩)))))

end Strategies

end Pattern

open Pattern

/-- **Wider strategies match more.**  Whatever was typed, if a term is left of it, its medium
patterns match what its simple ones do.  If the term has two letters, the complex patterns match
what the medium ones do, and each historical respelling in letters; all patterns together match
just what the complex ones do and the respellings with `æ` or `œ`.  With endings it is the same, for
respellings that stand as patterns with the ending too. -/
theorem wider_strategies_match_more (typed : Value) (hterm : Term.clean typed ≠ "")
    (suffixed : Bool) :
    let word := Term.clean typed
    let Finds (s : Strategy) (token : String) :=
      Accepts (Cql.alternation (patterns medieval s word suffixed)) token
    let FindsAs (variant token : String) :=
      Accepts (variant ++ String.ofList (ending suffixed)) token
    (∀ token, Finds .simple token → Finds .medium token) ∧
    (2 ≤ word.toList.countP Char.isAlpha →
      (∀ token, Finds .medium token → Finds .complex token) ∧
      (∀ spelling variant, (∀ c ∈ spelling.toList, c.isAlpha = true) →
        Respelled medieval spelling word variant →
        Finds .complex variant ∧ ∀ token, FindsAs variant token → Finds .complex token) ∧
      ∀ token, Finds .combined token ↔ Finds .complex token ∨
        ∃ spelling variant, ('æ' ∈ spelling.toList ∨ 'œ' ∈ spelling.toList) ∧
          Respelled medieval spelling word variant ∧ FindsAs variant token) := by
  intro word Finds FindsAs
  have hword : Term.IsTerm word := Term.isTerm_clean hterm
  have hfinds : ∀ s token, Finds s token ↔
      ∃ stem, Matched s word stem ∧ HasEnding suffixed stem token :=
    fun s token => accepts_patterns_iff_matched hword s suffixed
  have hmono : ∀ s s', (∀ stem, Matched s word stem → Matched s' word stem) →
      ∀ token, Finds s token → Finds s' token := by
    intro s s' h token htoken
    obtain ⟨stem, hstem, hending⟩ := (hfinds s token).1 htoken
    exact (hfinds s' token).2 ⟨stem, h stem hstem, hending⟩
  refine ⟨hmono _ _ fun _ => Matched.medium_of_simple, fun hletters => ⟨?_, ?_, ?_⟩⟩
  · exact hmono _ _ fun _ => Matched.complex_of_medium hletters
  · intro spelling variant hspelling h
    have hvariant : Matched .complex word variant := .inr (h.twoRunsApart hspelling hletters)
    refine ⟨(hfinds _ _).2 ⟨variant, hvariant, hasEnding_self suffixed variant⟩, ?_⟩
    intro token htoken
    exact (hfinds _ _).2 ⟨variant, hvariant, (accepts_respelled_iff hword h suffixed).1 htoken⟩
  · intro token
    simp only [hfinds, matched_combined_iff hword.ne_empty hletters]
    constructor
    · rintro ⟨stem, hstem | ⟨spelling, hligature, h⟩, hending⟩
      · exact .inl ⟨stem, hstem, hending⟩
      · exact .inr ⟨spelling, stem, hligature, h,
          (accepts_respelled_iff hword h suffixed).2 hending⟩
    · rintro (⟨stem, hstem, hending⟩ | ⟨spelling, variant, hligature, h, htoken⟩)
      · exact ⟨stem, .inl hstem, hending⟩
      · exact ⟨variant, .inr ⟨spelling, hligature, h⟩,
          (accepts_respelled_iff hword h suffixed).1 htoken⟩

/-- Of `quaero`, with endings, the complex patterns match the respelling `caero` and `caerones`, and
all patterns together match `quæronis` too. -/
theorem letters_are_absorbed :
    let typed : Value := .text " qu@aero "
    Term.clean typed ≠ "" ∧ 2 ≤ (Term.clean typed).toList.countP Char.isAlpha ∧
    Accepts (Cql.alternation (patterns medieval .complex (Term.clean typed) true)) "caero" ∧
    Accepts (Cql.alternation (patterns medieval .complex (Term.clean typed) true)) "caerones" ∧
    Accepts (Cql.alternation (patterns medieval .combined (Term.clean typed) true)) "quæronis" := by
  intro typed
  have hterm : Term.clean typed = "quaero" := by decide +kernel
  have hne : Term.clean typed ≠ "" := by rw [hterm]; decide
  have hletters : 2 ≤ (Term.clean typed).toList.countP Char.isAlpha := by rw [hterm]; decide
  obtain ⟨-, hwide⟩ := wider_strategies_match_more typed hne true
  obtain ⟨-, hrespelled, hcombined⟩ := hwide hletters
  have hplain : Respelled medieval "c" (Term.clean typed) "caero" := by
    rw [hterm]
    exact ⟨("qu", ["c", "qu", "k"]), by simp [medieval], by simp, by simp, "", "aero", rfl, rfl⟩
  have hligature : Respelled medieval "æ" (Term.clean typed) "quæro" := by
    rw [hterm]
    exact ⟨("ae", ["e", "ae", "æ"]), by simp [medieval], by simp, by simp, "qu", "ro", rfl, rfl⟩
  obtain ⟨hself, hextended⟩ := hrespelled "c" "caero" (List.all_eq_true.1 rfl) hplain
  refine ⟨hne, hletters, hself, hextended "caerones" ?_, (hcombined "quæronis").2 (.inr ?_)⟩
  · exact (accepts_respelled_iff (Term.isTerm_clean hne) hplain true).2
      ⟨"nes", rfl, List.all_eq_true.1 rfl⟩
  · refine ⟨"æ", "quæro", .inl (by decide), hligature, ?_⟩
    exact (accepts_respelled_iff (Term.isTerm_clean hne) hligature true).2
      ⟨"nis", rfl, List.all_eq_true.1 rfl⟩

end Concordance
