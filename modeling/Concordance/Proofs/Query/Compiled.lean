import Concordance.Query.Bundle
import Concordance.Query.Semantic

/-!
# When a request is compiled, and to what

For each kind of request the exact condition under which it becomes a query or a bundle, and which.
Nothing else about the compiling functions is needed to reason about what they return.

* `Proximity.compile_eq_ok_iff`, `Variation.compile_eq_ok_iff`, `Semantic.compile_eq_ok_iff`,
  `BundleRequest.compile_eq_ok_iff` — the conditions.
* `Query.Writes` — a query's texts are those of an expression; the compiled queries write
  `Proximity.expression`, `Variation.expression` and `Semantic.expression`.
-/

namespace Concordance

open Concordance.Cql

/-- The texts of a query are those of an expression, each one once. -/
structure Query.Writes (q : Query) (e : Expression) : Prop where
  subqueries_eq : q.subqueries = Query.subqueriesOf e
  text_eq : q.text = disjunction (Query.subqueriesOf e)

namespace Query

/-! ## Proximity searches -/

/-- The values that may not stand between the terms of a proximity search. -/
def Proximity.excluded (r : Proximity) : List String :=
  if r.excludeRepeats.truthy then firstSeen [Term.clean r.term1, Term.clean r.term2] else []

theorem Proximity.nodup_excluded (r : Proximity) : r.excluded.Nodup := by
  unfold Proximity.excluded
  split
  · exact nodup_firstSeen _
  · exact List.nodup_nil

theorem Proximity.mem_excluded {r : Proximity} {v : String} :
    v ∈ r.excluded ↔
      r.excludeRepeats.truthy = true ∧ (v = Term.clean r.term1 ∨ v = Term.clean r.term2) := by
  unfold Proximity.excluded
  split <;> simp_all

/-- The expression of a proximity search. -/
def Proximity.expression (r : Proximity) (limits : Distance.Limits) (attr : Attribute) :
    Expression :=
  pairing ⟨attr.name, Term.clean r.term1⟩ ⟨attr.name, Term.clean r.term2⟩
    (Item.excludingGap attr.name r.excluded (limits.read limits.proximity r.distance))
    r.bidirectional.truthy

/-- The query of a proximity search. -/
def Proximity.compiled (r : Proximity) (limits : Distance.Limits) (attr : Attribute) : Query where
  text := disjunction (subqueriesOf (r.expression limits attr))
  mode := .proximity
  terms := [Term.clean r.term1, Term.clean r.term2]
  distance := limits.read limits.proximity r.distance
  attr := attr.name
  subqueries := subqueriesOf (r.expression limits attr)
  bidirectional := r.bidirectional.truthy

theorem Proximity.compile_eq_ok_iff {r : Proximity} {limits : Distance.Limits} {q : Query} :
    r.compile limits = .ok q ↔
      Term.clean r.term1 ≠ "" ∧ Term.clean r.term2 ≠ "" ∧
        ∃ attr, Attribute.ofValue? r.attr = some attr ∧ q = r.compiled limits attr := by
  unfold Proximity.compile
  dsimp only
  split
  · rename_i hempty
    constructor
    · intro h
      cases h
    · rintro ⟨h1, h2, -⟩
      exact absurd hempty (by simp [h1, h2])
  · rename_i hterms
    rw [not_or] at hterms
    split
    · rename_i hattr
      simp [hattr]
    · rename_i attr hattr
      have hgap : (if r.excludeRepeats.truthy = true then
          Item.excludingGap attr.name (firstSeen [Term.clean r.term1, Term.clean r.term2])
            (limits.read limits.proximity r.distance)
          else Item.anyGap (limits.read limits.proximity r.distance)) =
          Item.excludingGap attr.name r.excluded (limits.read limits.proximity r.distance) := by
        unfold Proximity.excluded
        split <;> rfl
      simp only [hattr, hgap, Except.ok.injEq, Option.some.injEq, exists_eq_left']
      exact ⟨fun h => ⟨hterms.1, hterms.2, h.symm⟩, fun h => h.2.2.symm⟩

theorem Proximity.writes (r : Proximity) (limits : Distance.Limits) (attr : Attribute) :
    (r.compiled limits attr).Writes (r.expression limits attr) :=
  ⟨rfl, rfl⟩

/-! ## Searches for spellings -/

/-- The expression of a search for the spellings of two terms. -/
def Variation.expression (r : Variation) (limits : Distance.Limits) (attr : Attribute)
    (patterns1 patterns2 : List String) : Expression :=
  let value1 := alternation patterns1
  let value2 := alternation patterns2
  pairing ⟨attr.name, value1⟩ ⟨attr.name, value2⟩
    (Item.excludingGap attr.name (firstSeen [value1, value2])
      (limits.read limits.proximity r.distance)) r.bidirectional.truthy

/-- What a search for spellings is compiled from: two terms with the patterns of each. -/
structure Variation.Accepted (r : Variation) (generator : Pattern.Generator) (ceilings : Limits)
    (attr : Attribute) (strategy : Strategy) (patterns1 patterns2 : List String) : Prop where
  term1 : Term.clean r.term1 ≠ ""
  term2 : Term.clean r.term2 ≠ ""
  attr_eq : Attribute.ofValue? r.attr = some attr
  strategy_eq : Strategy.ofValue? r.strategy = some strategy
  notTooLong : ¬(strategy.isPairwise && (exceeds (Term.clean r.term1) ceilings.wordLength ||
    exceeds (Term.clean r.term2) ceilings.wordLength)) = true
  patterns1_eq : generator.generate (Term.clean r.term1) strategy false = .ok patterns1
  patterns2_eq : generator.generate (Term.clean r.term2) strategy false = .ok patterns2
  patterns1_ne_nil : patterns1 ≠ []
  patterns2_ne_nil : patterns2 ≠ []

theorem Variation.compile_eq_ok_iff {r : Variation} {generator : Pattern.Generator}
    {limits : Distance.Limits} {ceilings : Limits} {q : Query} :
    r.compile generator limits ceilings = .ok (.ok q) ↔
      ∃ attr strategy patterns1 patterns2,
        r.Accepted generator ceilings attr strategy patterns1 patterns2 ∧
        q = r.assemble limits attr strategy (Term.clean r.term1) (Term.clean r.term2) patterns1
          patterns2 := by
  constructor
  · intro h
    unfold Variation.compile at h
    dsimp only at h
    split at h
    · cases h
    rename_i hterms
    rw [not_or] at hterms
    split at h
    · cases h
    · cases h
    rename_i attr strategy hattr hstrategy
    split at h
    · cases h
    rename_i hlong
    cases h1 : generator.generate (Term.clean r.term1) strategy false with
    | error fault => rw [h1] at h; cases h
    | ok patterns1 =>
      cases h2 : generator.generate (Term.clean r.term2) strategy false with
      | error fault => rw [h1, h2] at h; cases h
      | ok patterns2 =>
        rw [h1, h2] at h
        simp only [bind, Except.bind, pure, Except.pure] at h
        split at h
        · cases h
        rename_i hne
        cases h
        simp only [Bool.or_eq_true, List.isEmpty_iff, not_or] at hne
        exact ⟨attr, strategy, patterns1, patterns2,
          ⟨hterms.1, hterms.2, hattr, hstrategy, hlong, h1, h2, hne.1, hne.2⟩, rfl⟩
  · rintro ⟨attr, strategy, patterns1, patterns2, h, rfl⟩
    have hne : (patterns1.isEmpty || patterns2.isEmpty) = false := by
      simp [h.patterns1_ne_nil, h.patterns2_ne_nil]
    unfold Variation.compile
    simp only [h.term1, h.term2, or_self, if_false, h.attr_eq, h.strategy_eq, h.notTooLong,
      h.patterns1_eq, h.patterns2_eq, bind, Except.bind, pure, Except.pure, hne, Bool.false_eq_true]

theorem Variation.writes (r : Variation) (limits : Distance.Limits) (attr : Attribute)
    (strategy : Strategy) (first second : String) (patterns1 patterns2 : List String) :
    (r.assemble limits attr strategy first second patterns1 patterns2).Writes
      (r.expression limits attr patterns1 patterns2) :=
  ⟨rfl, rfl⟩

/-! ## Semantic searches -/

/-- The expression of a semantic search. -/
def Semantic.expression (r : Semantic) (limits : Distance.Limits) (mode : Mode)
    (attr : Attribute) : Expression :=
  sequencesOf mode ⟨attr.name, Term.clean r.central⟩
    ((Term.contextTerms r.contexts).map fun c => ⟨attr.name, c⟩)
    (Item.anyGap (limits.read limits.semantic r.distance))

/-- The query of a semantic search. -/
def Semantic.compiled (r : Semantic) (limits : Distance.Limits) (mode : Mode) (attr : Attribute) :
    Query where
  text := disjunction (subqueriesOf (r.expression limits mode attr))
  mode := mode
  terms := [Term.clean r.central]
  distance := limits.read limits.semantic r.distance
  attr := attr.name
  subqueries := subqueriesOf (r.expression limits mode attr)
  bidirectional := true
  contextTerms := Term.contextTerms r.contexts

/-- What a semantic search is compiled from: a term, and contexts with terms, but not too many. -/
structure Semantic.Accepted (r : Semantic) (ceilings : Limits) (mode : Mode) (attr : Attribute) :
    Prop where
  central : Term.clean r.central ≠ ""
  namesContexts : Term.namesContexts r.contexts = true
  mode_eq : Mode.ofValue? r.mode = some mode
  attr_eq : Attribute.ofValue? r.attr = some attr
  contexts_ne_nil : Term.contextTerms r.contexts ≠ []
  notTooMany : ¬ceilings.contextTerms < ((Term.contextTerms r.contexts).length : Int)

theorem Semantic.compile_eq_ok_iff {r : Semantic} {limits : Distance.Limits} {ceilings : Limits}
    {q : Query} :
    r.compile limits ceilings = .ok q ↔
      ∃ mode attr, r.Accepted ceilings mode attr ∧ q = r.compiled limits mode attr := by
  constructor
  · intro h
    unfold Semantic.compile at h
    dsimp only at h
    split at h
    · cases h
    rename_i hgiven
    simp only [not_or, Bool.not_eq_false] at hgiven
    split at h
    · cases h
    · cases h
    rename_i mode attr hmode hattr
    split at h
    · cases h
    rename_i hcontexts
    split at h
    · cases h
    rename_i hmany
    cases h
    exact ⟨mode, attr, ⟨hgiven.1, hgiven.2, hmode, hattr,
      by simpa [List.isEmpty_iff] using hcontexts, hmany⟩, rfl⟩
  · rintro ⟨mode, attr, h, rfl⟩
    have hne : (Term.contextTerms r.contexts).isEmpty = false := by simp [h.contexts_ne_nil]
    unfold Semantic.compile
    simp only [h.central, h.namesContexts, Bool.true_eq_false, or_self, if_false, h.mode_eq,
      h.attr_eq, hne, Bool.false_eq_true, h.notTooMany]
    rfl

theorem Semantic.writes (r : Semantic) (limits : Distance.Limits) (mode : Mode)
    (attr : Attribute) : (r.compiled limits mode attr).Writes (r.expression limits mode attr) :=
  ⟨rfl, rfl⟩

/-! ## Bundles -/

/-- What is listed for each named strategy is found under its name. -/
theorem lookup_named {α : Type} (f : Strategy → α) {t : Strategy} (ht : t ∈ Strategy.named) :
    (Strategy.named.map fun t => (t.name, f t)).lookup t.name = some (f t) := by
  cases t with
  | combined => exact absurd ht (by decide)
  | simple | medium | complex | historical => simp [Strategy.named, Strategy.name, List.lookup_cons]

theorem patternsUnder_ofOrthography (o : Orthography) (word : String) (suffixed : Bool)
    (ts : List Strategy) :
    patternsUnder (.ofOrthography o) word suffixed ts =
      .ok (ts.map fun t => (t.name, Pattern.patterns o t word suffixed)) := by
  induction ts with
  | nil => rfl
  | cons t rest ih => rw [patternsUnder, ih]; rfl

/-- The bundle of a word with its patterns. -/
def BundleRequest.compiled (r : BundleRequest) (attr : Attribute)
    (found : List (String × List String)) : Bundle where
  word := Term.clean r.word
  suffixed := r.suffixed
  attr := attr.name
  queries := found.map fun e => (e.1, Test.render ⟨attr.name, alternation e.2⟩)
  patterns := found

theorem BundleRequest.compile_eq_ok_iff {r : BundleRequest} {generator : Pattern.Generator}
    {ceilings : Limits} {b : Bundle} :
    r.compile generator ceilings = .ok (.ok b) ↔
      Term.clean r.word ≠ "" ∧ exceeds (Term.clean r.word) ceilings.wordLength = false ∧
        ∃ attr found, Attribute.ofValue? r.attr = some attr ∧
          patternsUnder generator (Term.clean r.word) r.suffixed.truthy Strategy.named =
            .ok found ∧ b = r.compiled attr found := by
  constructor
  · intro h
    unfold BundleRequest.compile at h
    dsimp only at h
    split at h
    · cases h
    rename_i hword
    split at h
    · cases h
    rename_i attr hattr
    split at h
    · cases h
    rename_i hlong
    cases hfound : patternsUnder generator (Term.clean r.word) r.suffixed.truthy Strategy.named with
    | error fault => rw [hfound] at h; cases h
    | ok found =>
      rw [hfound] at h
      cases h
      exact ⟨hword, by simpa using hlong, attr, found, hattr, rfl, rfl⟩
  · rintro ⟨hword, hlong, attr, found, hattr, hfound, rfl⟩
    unfold BundleRequest.compile
    simp only [hword, if_false, hattr, hlong, Bool.false_eq_true, hfound]
    rfl

end Query

end Concordance
