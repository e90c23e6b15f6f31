import Concordance.Proofs.Cql.Meaning
import Concordance.Proofs.Pattern.Spelling

/-!
# Searches for two terms match two tokens near each other

The compiled text of a search for two terms is matched against a text of tokens.

* `NearPair` — two kinds of tokens at the ends of a span, in the given order or in both.
* `NearPair.exists_shortest` — every such span holds one without a token of either kind between its
  ends; it is found by moving an end inward as long as there is such a token.
* `compiled_pair_matches_near_tokens` — what a search for two terms matches, and that to exclude
  repeats loses no passage.
-/

namespace Concordance

open Concordance.Cql Concordance.Term Concordance.Pattern

namespace Cql

/-- Tokens of two kinds stand at the ends of a span in this order, or also in the other one. -/
def NearPair (A B Q : Token → Prop) (both : Prop) (bound : Int) (ts : List Token) (i j : Nat) :
    Prop :=
  Near A B Q bound ts i j ∨ both ∧ Near B A Q bound ts i j

section Shortest

variable {A B Q : Token → Prop} {both : Prop} {bound : Int} {ts : List Token} {i j : Nat}

theorem Apart.mono {Q' : Token → Prop} (h : Apart bound Q ts i j) (hQ : ∀ k, Q k → Q' k) :
    Apart bound Q' ts i j :=
  ⟨h.lt, h.count, fun k hik hkj t ht => hQ t (h.between k hik hkj t ht)⟩

/-- A part of a run is a run. -/
theorem Apart.within {i' j' : Nat} (h : Apart bound Q ts i j) (hi : i ≤ i') (hj : j' ≤ j)
    (hlt : i' < j') : Apart bound Q ts i' j' := by
  refine ⟨hlt, ?_, fun k hik hkj => h.between k (by omega) (by omega)⟩
  have hcount := h.count
  omega

theorem Near.mono {Q' : Token → Prop} (h : Near A B Q bound ts i j) (hQ : ∀ k, Q k → Q' k) :
    Near A B Q' bound ts i j :=
  ⟨h.first, h.apart.mono hQ, h.second⟩

theorem NearPair.mono {Q' : Token → Prop} (h : NearPair A B Q both bound ts i j)
    (hQ : ∀ k, Q k → Q' k) : NearPair A B Q' both bound ts i j :=
  h.imp (fun hn => hn.mono hQ) fun hn => ⟨hn.1, hn.2.mono hQ⟩

/-- Every span between two kinds of tokens holds one without tokens of those kinds between its
ends. -/
theorem Near.exists_shortest (h : Near A B Q bound ts i j) :
    ∃ i' j', i ≤ i' ∧ j' ≤ j ∧ Near A B (fun k => ¬A k ∧ ¬B k) bound ts i' j' := by
  -- The induction is on the length of the span: a token of the first kind inside it is a later
  -- start, one of the second kind an earlier end.
  induction hn : j - i using Nat.strong_induction_on generalizing i j with
  | _ n ih =>
    by_cases hclear : ∀ k, i < k → k < j → ∀ t, ts[k]? = some t → ¬A t ∧ ¬B t
    · exact ⟨i, j, Nat.le_refl i, Nat.le_refl j, h.first, ⟨h.apart.lt, h.apart.count, hclear⟩,
        h.second⟩
    · push Not at hclear
      obtain ⟨k, hik, hkj, t, ht, hkind⟩ := hclear
      by_cases hA : A t
      · have hshort : Near A B Q bound ts k j :=
          ⟨⟨t, ht, hA⟩, h.apart.within (Nat.le_of_lt hik) (Nat.le_refl j) hkj, h.second⟩
        obtain ⟨i', j', hi, hj, hnear⟩ := ih (j - k) (by omega) hshort rfl
        exact ⟨i', j', by omega, hj, hnear⟩
      · have hshort : Near A B Q bound ts i k :=
          ⟨h.first, h.apart.within (Nat.le_refl i) (Nat.le_of_lt hkj) hik, t, ht, hkind hA⟩
        obtain ⟨i', j', hi, hj, hnear⟩ := ih (k - i) (by omega) hshort rfl
        exact ⟨i', j', hi, by omega, hnear⟩

theorem NearPair.exists_shortest (h : NearPair A B Q both bound ts i j) :
    ∃ i' j', i ≤ i' ∧ j' ≤ j ∧ NearPair A B (fun k => ¬A k ∧ ¬B k) both bound ts i' j' := by
  rcases h with h | ⟨hboth, h⟩
  · obtain ⟨i', j', hi, hj, hnear⟩ := h.exists_shortest
    exact ⟨i', j', hi, hj, .inl hnear⟩
  · obtain ⟨i', j', hi, hj, hnear⟩ := h.exists_shortest
    exact ⟨i', j', hi, hj, .inr ⟨hboth, hnear.mono fun _ hk => hk.symm⟩⟩

end Shortest

end Cql

namespace Query

variable {ts : List Token} {i j : Nat}

theorem covers_near {R : Reading} {a b : Test} {excluded : List Test} {bound : Int} :
    Covers (Sequence.language R [.token a, .gap excluded bound, .token b]) ts i j ↔
      Near (a.Holds R) (b.Holds R) (fun k => ∀ t ∈ excluded, ¬t.Holds R k) bound ts i j := by
  rw [Sequence.language_pair]
  exact covers_pair

/-- What the searches for two values match: tokens that pass for them, and if they are excluded
none between that does. -/
theorem Writes.matchesSpan_pairing {R : Reading} {q : Query} {attr v w : String}
    {excluded : List String} {bound : Int} {both : Bool} {excluding : Prop}
    (h : q.Writes (pairing ⟨attr, v⟩ ⟨attr, w⟩ (.excludingGap attr excluded bound) both))
    (he : Expression.Plain (pairing ⟨attr, v⟩ ⟨attr, w⟩ (.excludingGap attr excluded bound) both))
    (hmem : ∀ u, u ∈ excluded ↔ excluding ∧ (u = v ∨ u = w)) :
    q.MatchesSpan R ts i j ↔
      NearPair (Test.Holds R ⟨attr, v⟩) (Test.Holds R ⟨attr, w⟩)
        (fun k => excluding → ¬Test.Holds R ⟨attr, v⟩ k ∧ ¬Test.Holds R ⟨attr, w⟩ k)
        (both = true) bound ts i j := by
  have hgap : (fun k => ∀ t ∈ excluded.map (Test.mk attr), ¬t.Holds R k) =
      fun k => excluding → ¬Test.Holds R ⟨attr, v⟩ k ∧ ¬Test.Holds R ⟨attr, w⟩ k := by
    funext k
    simp only [List.forall_mem_map, hmem, eq_iff_iff]
    constructor
    · intro hk hex
      exact ⟨hk v ⟨hex, .inl rfl⟩, hk w ⟨hex, .inr rfl⟩⟩
    · rintro hk u ⟨hex, rfl | rfl⟩
      · exact (hk hex).1
      · exact (hk hex).2
  rw [h.matchesSpan_iff he, ← hgap]
  constructor
  · rintro ⟨s, hs, hcovers⟩
    rcases mem_pairing.1 hs with rfl | ⟨hboth, rfl⟩
    · exact .inl (covers_near.1 hcovers)
    · exact .inr ⟨hboth, covers_near.1 hcovers⟩
  · rintro (hn | ⟨hboth, hn⟩)
    · exact ⟨_, mem_pairing.2 (.inl rfl), covers_near.2 hn⟩
    · exact ⟨_, mem_pairing.2 (.inr ⟨hboth, rfl⟩), covers_near.2 hn⟩

/-! ## The kinds of tokens -/

/-- The token has the term. -/
def HasTerm (attr term : String) (k : Token) : Prop :=
  k attr = term

/-- The token has a spelling of some pattern. -/
def HasSpelling (attr : String) (patterns : List String) (k : Token) : Prop :=
  ∃ p ∈ patterns, (k attr).toList ∈ Pattern.language p

theorem holds_term {attr v : String} (h : IsTerm v) :
    Test.Holds Accepts ⟨attr, v⟩ = HasTerm attr v := by
  funext k
  exact propext (accepts_iff_of_isTerm h)

theorem holds_patterns {attr word : String} {t : Strategy} {suffixed : Bool} (h : IsTerm word) :
    Test.Holds Accepts ⟨attr, alternation (Pattern.patterns medieval t word suffixed)⟩ =
      HasSpelling attr (Pattern.patterns medieval t word suffixed) := by
  funext k
  unfold Test.Holds Accepts HasSpelling
  dsimp only
  rw [alternatives_patterns h]

/-! ## Each kind of search -/

section Requests

variable {limits : Distance.Limits} {ceilings : Limits} {q : Query}

theorem Proximity.matchesSpan_iff (hmin : 0 ≤ limits.minimum) {r : Proximity}
    (h : r.compile limits = .ok q) :
    let A := HasTerm q.attr (clean r.term1)
    let B := HasTerm q.attr (clean r.term2)
    q.MatchesSpan Accepts ts i j ↔
      NearPair A B (fun k => r.excludeRepeats.truthy = true → ¬A k ∧ ¬B k)
        (r.bidirectional.truthy = true) q.distance ts i j := by
  obtain ⟨h1, h2, attr, -, rfl⟩ := Proximity.compile_eq_ok_iff.1 h
  intro A B
  rw [(r.writes limits attr).matchesSpan_pairing (Proximity.expression_plain hmin h1 h2 attr)
    fun _ => Proximity.mem_excluded, holds_term (isTerm_clean h1), holds_term (isTerm_clean h2)]
  rfl

theorem Variation.matchesSpan_iff (hmin : 0 ≤ limits.minimum) {r : Variation}
    (h : r.compile (.ofOrthography medieval) limits ceilings = .ok (.ok q)) :
    ∃ t, Strategy.ofValue? r.strategy = some t ∧
      let patterns1 := Pattern.patterns medieval t (clean r.term1) false
      let patterns2 := Pattern.patterns medieval t (clean r.term2) false
      let A := HasSpelling q.attr patterns1
      let B := HasSpelling q.attr patterns2
      q.patterns = [patterns1, patterns2] ∧ ∀ ts i j, q.MatchesSpan Accepts ts i j ↔
        NearPair A B (fun k => ¬A k ∧ ¬B k) (r.bidirectional.truthy = true) q.distance ts i j := by
  obtain ⟨attr, t, patterns1, patterns2, hr, rfl⟩ := Variation.compile_eq_ok_iff.1 h
  have hplain := Variation.expression_plain hmin hr
  obtain rfl := Except.ok.inj hr.patterns1_eq
  obtain rfl := Except.ok.inj hr.patterns2_eq
  refine ⟨t, hr.strategy_eq, rfl, fun ts i j => ?_⟩
  rw [(r.writes limits attr t _ _ _ _).matchesSpan_pairing hplain fun _ => mem_firstSeen_pair,
    holds_patterns (isTerm_clean hr.term1), holds_patterns (isTerm_clean hr.term2)]
  simp only [true_implies]
  rfl

/-- Whether a request is compiled does not depend on what may stand between the terms. -/
theorem Proximity.exists_compile_iff {r : Proximity} (v : Value) :
    (∃ q, { r with excludeRepeats := v }.compile limits = .ok q) ↔
      ∃ q, r.compile limits = .ok q := by
  simp only [Proximity.compile_eq_ok_iff]
  constructor
  · rintro ⟨-, h1, h2, attr, hattr, -⟩
    exact ⟨_, h1, h2, attr, hattr, rfl⟩
  · rintro ⟨-, h1, h2, attr, hattr, -⟩
    exact ⟨_, h1, h2, attr, hattr, rfl⟩

/-- The first query matches only spans that the second one does, and one within each of them. -/
def Tightens (R : Reading) (q q' : Query) : Prop :=
  ∀ ts, (∀ i j, q.MatchesSpan R ts i j → q'.MatchesSpan R ts i j) ∧
    ∀ i j, q'.MatchesSpan R ts i j → ∃ i' j', i ≤ i' ∧ j' ≤ j ∧ q.MatchesSpan R ts i' j'

/-- To exclude repeats loses no passage. -/
theorem Proximity.tightens (hmin : 0 ≤ limits.minimum) {r : Proximity} {given no : Value}
    (hno : no.truthy = false) {q q' : Query}
    (hq : { r with excludeRepeats := given }.compile limits = .ok q)
    (hq' : { r with excludeRepeats := no }.compile limits = .ok q') : q.Tightens Accepts q' := by
  obtain ⟨hattr, hdistance⟩ : q.attr = q'.attr ∧ q.distance = q'.distance := by
    obtain ⟨-, -, attr, hattr, rfl⟩ := Proximity.compile_eq_ok_iff.1 hq
    obtain ⟨-, -, attr', hattr', rfl⟩ := Proximity.compile_eq_ok_iff.1 hq'
    obtain rfl := Option.some.inj (hattr.symm.trans hattr')
    exact ⟨rfl, rfl⟩
  intro ts
  constructor
  · intro i j h
    have hnear := (Proximity.matchesSpan_iff hmin hq).1 h
    rw [hattr, hdistance] at hnear
    refine (Proximity.matchesSpan_iff hmin hq').2 (hnear.mono fun k _ htrue => ?_)
    rw [hno] at htrue
    cases htrue
  · intro i j h
    have hnear := (Proximity.matchesSpan_iff hmin hq').1 h
    obtain ⟨i', j', hi, hj, hshort⟩ := hnear.exists_shortest
    rw [← hattr, ← hdistance] at hshort
    exact ⟨i', j', hi, hj, (Proximity.matchesSpan_iff hmin hq).2 (hshort.mono fun k hk _ => hk)⟩

theorem Tightens.matches_iff {R : Reading} {q q' : Query} (h : q.Tightens R q') (ts : List Token) :
    (∃ i j, q.MatchesSpan R ts i j) ↔ ∃ i j, q'.MatchesSpan R ts i j := by
  constructor
  · rintro ⟨i, j, hij⟩
    exact ⟨i, j, (h ts).1 i j hij⟩
  · rintro ⟨i, j, hij⟩
    obtain ⟨i', j', -, -, hshort⟩ := (h ts).2 i j hij
    exact ⟨i', j', hshort⟩

end Requests

end Query

open Query in
/-- **A search for two terms matches exactly the spans between tokens near each other.**  The first
token has the one term, or a spelling of it, and the last token the other; at most as many tokens
as the distance allows lie between them, and none with either term if repeats are excluded.  To
exclude repeats loses no passage: within every match there is one without repeats. -/
theorem compiled_pair_matches_near_tokens {limits : Distance.Limits} (hmin : 0 ≤ limits.minimum)
    (ceilings : Limits) :
    (∀ (r : Proximity) (q : Query), r.compile limits = .ok q →
      let A := HasTerm q.attr (clean r.term1)
      let B := HasTerm q.attr (clean r.term2)
      ∀ ts i j, q.MatchesSpan Accepts ts i j ↔
        NearPair A B (fun k => r.excludeRepeats.truthy = true → ¬A k ∧ ¬B k)
          (r.bidirectional.truthy = true) q.distance ts i j) ∧
    (∀ (r : Variation) (q : Query),
      r.compile (.ofOrthography medieval) limits ceilings = .ok (.ok q) →
      ∃ t, Strategy.ofValue? r.strategy = some t ∧
        let patterns1 := Pattern.patterns medieval t (clean r.term1) false
        let patterns2 := Pattern.patterns medieval t (clean r.term2) false
        let A := HasSpelling q.attr patterns1
        let B := HasSpelling q.attr patterns2
        q.patterns = [patterns1, patterns2] ∧ ∀ ts i j, q.MatchesSpan Accepts ts i j ↔
          NearPair A B (fun k => ¬A k ∧ ¬B k) (r.bidirectional.truthy = true) q.distance ts i j) ∧
    (∀ (r : Proximity) (given no : Value), no.truthy = false →
      ((∃ q, { r with excludeRepeats := given }.compile limits = .ok q) ↔
        ∃ q', { r with excludeRepeats := no }.compile limits = .ok q') ∧
      ∀ q q', { r with excludeRepeats := given }.compile limits = .ok q →
        { r with excludeRepeats := no }.compile limits = .ok q' →
        q.Tightens Accepts q' ∧ ∀ ts,
          ((∃ i j, q.MatchesSpan Accepts ts i j) ↔ ∃ i j, q'.MatchesSpan Accepts ts i j)) := by
  refine ⟨?_, ?_, ?_⟩
  · intro r q h A B ts i j
    exact Proximity.matchesSpan_iff hmin h
  · intro r q h
    exact Variation.matchesSpan_iff hmin h
  · intro r given no hno
    refine ⟨(Proximity.exists_compile_iff given).trans (Proximity.exists_compile_iff no).symm, ?_⟩
    intro q q' hq hq'
    have htightens := Proximity.tightens hmin hno hq hq'
    exact ⟨htightens, htightens.matches_iff⟩

open Query in
/-- Of two occurrences of a term before the other term, only the later one starts a match without
repeats; a spelling is matched where the term is not. -/
theorem repeated_term_matches_later :
    let limits : Distance.Limits := {}
    let near : Proximity := { term1 := .text "fides", term2 := .text "ratio" }
    let apart : Proximity := { near with excludeRepeats := .bool true }
    let spelled : Variation :=
      { term1 := .text "fides", term2 := .text "ratio", strategy := .text "historical" }
    let text : List Token := [fun _ => "fides", fun _ => "et", fun _ => "fides",
      fun attr => if attr = "lemma" then "ratio" else "racio"]
    (∃ q q', near.compile limits = .ok q' ∧ apart.compile limits = .ok q ∧
      q'.MatchesSpan Accepts text 0 3 ∧ ¬q.MatchesSpan Accepts text 0 3 ∧
      ∃ i j, q.MatchesSpan Accepts text i j) ∧
    ∃ q, spelled.compile (.ofOrthography medieval) limits {} = .ok (.ok q) ∧
      q.MatchesSpan Accepts text 2 3 := by
  intro limits near apart spelled text
  have hmin : (0 : Int) ≤ limits.minimum := by decide
  obtain ⟨hnear, hspelled, hexclude⟩ := compiled_pair_matches_near_tokens hmin {}
  have h1 : clean (.text "fides") ≠ "" := by decide +kernel
  have h2 : clean (.text "ratio") ≠ "" := by decide +kernel
  constructor
  · have h' : near.compile limits = .ok (near.compiled limits .lemmaForm) :=
      Proximity.compile_eq_ok_iff.2 ⟨h1, h2, _, rfl, rfl⟩
    have h : apart.compile limits = .ok (apart.compiled limits .lemmaForm) :=
      Proximity.compile_eq_ok_iff.2 ⟨h1, h2, _, rfl, rfl⟩
    have hmatch : (near.compiled limits .lemmaForm).MatchesSpan Accepts text 0 3 := by
      refine (hnear _ _ h' text 0 3).2 (.inl ⟨⟨_, rfl, ?_⟩, ⟨by decide, by decide +kernel, ?_⟩,
        ⟨_, rfl, ?_⟩⟩)
      · show "fides" = clean (.text "fides")
        decide +kernel
      · intro k _ _ t _ htrue
        cases htrue
      · show "ratio" = clean (.text "ratio")
        decide +kernel
    have hexcluded := (hexclude near (.bool true) (.bool false) rfl).2 _ _ h h'
    refine ⟨_, _, h', h, hmatch, ?_, (hexcluded.2 text).2 ⟨0, 3, hmatch⟩⟩
    intro hwhole
    rcases (hnear _ _ h text 0 3).1 hwhole with hn | ⟨-, hn⟩
    · refine (hn.apart.between 2 (by decide) (by decide) _ rfl rfl).1 ?_
      show "fides" = clean (.text "fides")
      decide +kernel
    · obtain ⟨k, hk, hfirst⟩ := hn.first
      cases hk
      exact absurd hfirst (by decide +kernel : "fides" ≠ clean (.text "ratio"))
  · have hstrategy : Strategy.ofValue? spelled.strategy = some .historical := by decide +kernel
    have h : spelled.compile (.ofOrthography medieval) limits {} =
        .ok (.ok (spelled.assemble limits .wordForm .historical _ _ _ _)) :=
      Variation.compile_eq_ok_iff.2 ⟨_, _, _, _, ⟨h1, h2, rfl, hstrategy, by decide +kernel, rfl,
        rfl, patterns_ne_nil h1, patterns_ne_nil h2⟩, rfl⟩
    obtain ⟨t, ht, -, hmatches⟩ := hspelled _ _ h
    obtain rfl := Option.some.inj (hstrategy.symm.trans ht)
    refine ⟨_, h, (hmatches text 2 3).2 (.inl ⟨⟨_, rfl, "fides", by decide +kernel, ?_⟩,
      ⟨by decide, by decide +kernel, fun k _ _ => by omega⟩,
      ⟨_, rfl, "racio", by decide +kernel, ?_⟩⟩)⟩
    · rw [language_of_isTerm ⟨by decide, by decide +kernel⟩]
      rfl
    · rw [language_of_isTerm ⟨by decide, by decide +kernel⟩]
      rfl

end Concordance
