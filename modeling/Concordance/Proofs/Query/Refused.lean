import Concordance.Proofs.Query.Compiled

/-!
# Why a request is refused

For each kind of request the exact conditions of its refusals, in the order in which they are
decided: a later one presupposes that the earlier ones do not apply.

* `Proximity.Refused`, `Variation.Refused`, `Semantic.Refused`, `BundleRequest.Refused` — the
  conditions.
* `Proximity.compile_eq_error_iff`, `Variation.compile_eq_error_iff`,
  `Semantic.compile_eq_error_iff`, `BundleRequest.compile_eq_error_iff` — a request is refused
  exactly under them.
* `Variation.compile_ofOrthography` — with the patterns of an orthography no search for spellings
  fails.
-/

namespace Concordance.Query

open Concordance.Term

variable {limits : Distance.Limits} {ceilings : Limits} {generator : Pattern.Generator}
  {e : Refusal}

/-! ## Proximity searches -/

/-- Why a search for two terms is refused. -/
inductive Proximity.Refused (r : Proximity) : Refusal → Prop
  | missingTerms (h : clean r.term1 = "" ∨ clean r.term2 = "") : r.Refused .missingTerms
  | unknownAttribute (h1 : clean r.term1 ≠ "") (h2 : clean r.term2 ≠ "")
    (h : Attribute.ofValue? r.attr = none) : r.Refused (.unknownAttribute r.attr)

theorem Proximity.compile_eq_error_iff {r : Proximity} :
    r.compile limits = .error e ↔ r.Refused e := by
  constructor
  · intro h
    unfold Proximity.compile at h
    dsimp only at h
    split at h
    · rename_i hempty
      cases h
      exact .missingTerms hempty
    · rename_i hterms
      rw [not_or] at hterms
      split at h
      · rename_i hattr
        cases h
        exact .unknownAttribute hterms.1 hterms.2 hattr
      · cases h
  · rintro (hempty | ⟨h1, h2, hattr⟩)
    · unfold Proximity.compile
      exact if_pos hempty
    · unfold Proximity.compile
      simp only [h1, h2, or_self, if_false, hattr]

/-! ## Searches for spellings -/

/-- A word that a strategy is to be applied to is longer than the strategy allows. -/
def Variation.TooLong (r : Variation) (ceilings : Limits) (strategy : Strategy) : Prop :=
  (strategy.isPairwise && (exceeds (clean r.term1) ceilings.wordLength ||
    exceeds (clean r.term2) ceilings.wordLength)) = true

/-- Why a search for spellings is refused. -/
inductive Variation.Refused (r : Variation) (generator : Pattern.Generator) (ceilings : Limits) :
    Refusal → Prop
  | missingTerms (h : clean r.term1 = "" ∨ clean r.term2 = "") :
    r.Refused generator ceilings .missingTerms
  | unknownAttribute (h1 : clean r.term1 ≠ "") (h2 : clean r.term2 ≠ "")
    (h : Attribute.ofValue? r.attr = none) :
    r.Refused generator ceilings (.unknownAttribute r.attr)
  | unknownStrategy {attr : Attribute} (h1 : clean r.term1 ≠ "") (h2 : clean r.term2 ≠ "")
    (hattr : Attribute.ofValue? r.attr = some attr) (h : Strategy.ofValue? r.strategy = none) :
    r.Refused generator ceilings (.unknownStrategy r.strategy)
  | tooLongFor {attr : Attribute} {strategy : Strategy} (h1 : clean r.term1 ≠ "")
    (h2 : clean r.term2 ≠ "") (hattr : Attribute.ofValue? r.attr = some attr)
    (hstrategy : Strategy.ofValue? r.strategy = some strategy) (h : r.TooLong ceilings strategy) :
    r.Refused generator ceilings (.tooLongFor strategy ceilings.wordLength)
  | noPatterns {attr : Attribute} {strategy : Strategy} {patterns1 patterns2 : List String}
    (h1 : clean r.term1 ≠ "") (h2 : clean r.term2 ≠ "")
    (hattr : Attribute.ofValue? r.attr = some attr)
    (hstrategy : Strategy.ofValue? r.strategy = some strategy)
    (hlong : ¬r.TooLong ceilings strategy)
    (hpatterns1 : generator.generate (clean r.term1) strategy false = .ok patterns1)
    (hpatterns2 : generator.generate (clean r.term2) strategy false = .ok patterns2)
    (h : patterns1 = [] ∨ patterns2 = []) : r.Refused generator ceilings .noPatterns

theorem Variation.compile_eq_error_iff {r : Variation} :
    r.compile generator limits ceilings = .ok (.error e) ↔ r.Refused generator ceilings e := by
  constructor
  · intro h
    unfold Variation.compile at h
    dsimp only at h
    split at h
    · rename_i hempty
      cases h
      exact .missingTerms hempty
    rename_i hterms
    rw [not_or] at hterms
    split at h
    · rename_i hattr
      cases h
      exact .unknownAttribute hterms.1 hterms.2 hattr
    · rename_i attr hattr hstrategy
      cases h
      exact .unknownStrategy hterms.1 hterms.2 hattr hstrategy
    rename_i attr strategy hattr hstrategy
    split at h
    · rename_i hlong
      cases h
      exact .tooLongFor hterms.1 hterms.2 hattr hstrategy hlong
    rename_i hlong
    cases h1 : generator.generate (clean r.term1) strategy false with
    | error fault => rw [h1] at h; cases h
    | ok patterns1 =>
      cases h2 : generator.generate (clean r.term2) strategy false with
      | error fault => rw [h1, h2] at h; cases h
      | ok patterns2 =>
        rw [h1, h2] at h
        simp only [bind, Except.bind, pure, Except.pure] at h
        split at h
        · rename_i hnone
          cases h
          simp only [Bool.or_eq_true, List.isEmpty_iff] at hnone
          exact .noPatterns hterms.1 hterms.2 hattr hstrategy hlong h1 h2 hnone
        · cases h
  · intro h
    unfold Variation.compile
    cases h with
    | missingTerms hempty => exact if_pos hempty
    | unknownAttribute h1 h2 hattr => simp only [h1, h2, or_self, if_false, hattr]
    | unknownStrategy h1 h2 hattr hstrategy =>
      simp only [h1, h2, or_self, if_false, hattr, hstrategy]
    | tooLongFor h1 h2 hattr hstrategy hlong =>
      unfold Variation.TooLong at hlong
      simp only [h1, h2, or_self, if_false, hattr, hstrategy, hlong, if_true]
    | noPatterns h1 h2 hattr hstrategy hlong hpatterns1 hpatterns2 hnone =>
      rename_i patterns1 patterns2
      unfold Variation.TooLong at hlong
      have hempty : (patterns1.isEmpty || patterns2.isEmpty) = true := by
        simpa only [Bool.or_eq_true, List.isEmpty_iff] using hnone
      simp only [h1, h2, or_self, if_false, hattr, hstrategy, hlong, hpatterns1, hpatterns2, bind,
        Except.bind, pure, Except.pure, hempty, Bool.false_eq_true, if_false, if_true]

/-- With the patterns of an orthography no search for spellings fails. -/
theorem Variation.compile_ofOrthography (r : Variation) (o : Orthography)
    (limits : Distance.Limits) (ceilings : Limits) :
    ∃ result, r.compile (.ofOrthography o) limits ceilings = .ok result := by
  unfold Variation.compile
  dsimp only
  split
  · exact ⟨_, rfl⟩
  split
  · exact ⟨_, rfl⟩
  · exact ⟨_, rfl⟩
  split
  · exact ⟨_, rfl⟩
  simp only [Pattern.Generator.ofOrthography, bind, Except.bind, pure, Except.pure]
  split
  · exact ⟨_, rfl⟩
  · exact ⟨_, rfl⟩

/-! ## Semantic searches -/

/-- Why a semantic search is refused. -/
inductive Semantic.Refused (r : Semantic) (ceilings : Limits) : Refusal → Prop
  | missingContext (h : clean r.central = "" ∨ namesContexts r.contexts = false) :
    r.Refused ceilings .missingContext
  | unknownMode (hcentral : clean r.central ≠ "") (hnames : namesContexts r.contexts = true)
    (h : Mode.ofValue? r.mode = none) : r.Refused ceilings (.unknownMode r.mode)
  | unknownAttribute {mode : Mode} (hcentral : clean r.central ≠ "")
    (hnames : namesContexts r.contexts = true) (hmode : Mode.ofValue? r.mode = some mode)
    (h : Attribute.ofValue? r.attr = none) : r.Refused ceilings (.unknownAttribute r.attr)
  | noContextTerms {mode : Mode} {attr : Attribute} (hcentral : clean r.central ≠ "")
    (hnames : namesContexts r.contexts = true) (hmode : Mode.ofValue? r.mode = some mode)
    (hattr : Attribute.ofValue? r.attr = some attr) (h : Term.contextTerms r.contexts = []) :
    r.Refused ceilings .noContextTerms
  | tooManyContexts {mode : Mode} {attr : Attribute} (hcentral : clean r.central ≠ "")
    (hnames : namesContexts r.contexts = true) (hmode : Mode.ofValue? r.mode = some mode)
    (hattr : Attribute.ofValue? r.attr = some attr) (hsome : Term.contextTerms r.contexts ≠ [])
    (h : ceilings.contextTerms < ((Term.contextTerms r.contexts).length : Int)) :
    r.Refused ceilings (.tooManyContexts ceilings.contextTerms)

theorem Semantic.compile_eq_error_iff {r : Semantic} :
    r.compile limits ceilings = .error e ↔ r.Refused ceilings e := by
  constructor
  · intro h
    unfold Semantic.compile at h
    dsimp only at h
    split at h
    · rename_i hempty
      cases h
      exact .missingContext hempty
    rename_i hgiven
    simp only [not_or, Bool.not_eq_false] at hgiven
    split at h
    · rename_i hmode
      cases h
      exact .unknownMode hgiven.1 hgiven.2 hmode
    · rename_i mode hmode hattr
      cases h
      exact .unknownAttribute hgiven.1 hgiven.2 hmode hattr
    rename_i mode attr hmode hattr
    split at h
    · rename_i hnone
      cases h
      exact .noContextTerms hgiven.1 hgiven.2 hmode hattr (List.isEmpty_iff.1 hnone)
    rename_i hsome
    split at h
    · rename_i hmany
      cases h
      exact .tooManyContexts hgiven.1 hgiven.2 hmode hattr (by simpa using hsome) hmany
    · cases h
  · intro h
    unfold Semantic.compile
    cases h with
    | missingContext hempty => exact if_pos hempty
    | unknownMode hcentral hnames hmode =>
      simp only [hcentral, hnames, Bool.true_eq_false, or_self, if_false, hmode]
    | unknownAttribute hcentral hnames hmode hattr =>
      simp only [hcentral, hnames, Bool.true_eq_false, or_self, if_false, hmode, hattr]
    | noContextTerms hcentral hnames hmode hattr hnone =>
      simp only [hcentral, hnames, Bool.true_eq_false, or_self, if_false, hmode, hattr, hnone,
        List.isEmpty_nil, if_true]
    | tooManyContexts hcentral hnames hmode hattr hsome hmany =>
      have hfilled : (Term.contextTerms r.contexts).isEmpty = false := by simp [hsome]
      simp only [hcentral, hnames, Bool.true_eq_false, or_self, if_false, hmode, hattr, hfilled,
        Bool.false_eq_true, hmany, if_true]

/-! ## Bundles -/

/-- Why a request for a bundle is refused. -/
inductive BundleRequest.Refused (r : BundleRequest) (ceilings : Limits) : Refusal → Prop
  | missingWord (h : clean r.word = "") : r.Refused ceilings .missingWord
  | unknownAttribute (hword : clean r.word ≠ "") (h : Attribute.ofValue? r.attr = none) :
    r.Refused ceilings (.unknownAttribute r.attr)
  | tooLong {attr : Attribute} (hword : clean r.word ≠ "")
    (hattr : Attribute.ofValue? r.attr = some attr)
    (h : exceeds (clean r.word) ceilings.wordLength = true) :
    r.Refused ceilings (.tooLong ceilings.wordLength)

theorem BundleRequest.compile_eq_error_iff {r : BundleRequest} :
    r.compile generator ceilings = .ok (.error e) ↔ r.Refused ceilings e := by
  constructor
  · intro h
    unfold BundleRequest.compile at h
    dsimp only at h
    split at h
    · rename_i hempty
      cases h
      exact .missingWord hempty
    rename_i hword
    split at h
    · rename_i hattr
      cases h
      exact .unknownAttribute hword hattr
    rename_i attr hattr
    split at h
    · rename_i hlong
      cases h
      exact .tooLong hword hattr hlong
    · cases hfound : patternsUnder generator (clean r.word) r.suffixed.truthy Strategy.named with
      | error fault => rw [hfound] at h; cases h
      | ok found => rw [hfound] at h; cases h
  · intro h
    unfold BundleRequest.compile
    cases h with
    | missingWord hempty => exact if_pos hempty
    | unknownAttribute hword hattr => simp only [hword, if_false, hattr]
    | tooLong hword hattr hlong => simp only [hword, if_false, hattr, hlong, if_true]

end Concordance.Query
