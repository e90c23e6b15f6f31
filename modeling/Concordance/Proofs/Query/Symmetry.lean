import Concordance.Proofs.Cql.Reversal
import Concordance.Proofs.Query.NearPair
import Concordance.Proofs.Query.Refused

/-!
# Symmetric searches

A search for two terms in both orders does not depend on which of them is named first, and like
every semantic search it does not depend on the direction in which a text is read.  The texts of the
queries do: what a gap excludes comes in the order of the terms.

* `Proximity.swap`, `Variation.swap` — the request with its two terms exchanged.
* `Alike` — results that are the same refusal, or queries that match the same spans.
* `Proximity.alike_swap`, `Variation.alike_swap` — a search in both orders and its exchange.
* `pairing_reversible`, `sequencesOf_reversible` — the expressions that hold each sequence turned
  around as well.
* `both_orders_match_alike` — neither the order of the terms nor the direction of a text matters.
-/

namespace Concordance

open Concordance.Cql Concordance.Term Concordance.Pattern

/-- Two kinds of tokens near each other in both orders are so whichever is named first. -/
theorem Cql.NearPair.swap {A B Q Q' : Token → Prop} {bound : Int} {ts : List Token} {i j : Nat}
    (hQ : ∀ k, Q k → Q' k) (h : NearPair A B Q (true = true) bound ts i j) :
    NearPair B A Q' (true = true) bound ts i j := by
  rcases h with h | ⟨-, h⟩
  · exact .inr ⟨rfl, h.mono hQ⟩
  · exact .inl (h.mono hQ)

namespace Query

variable {R : Reading} {limits : Distance.Limits} {ceilings : Limits} {q q' : Query}

/-! ## Terms exchanged -/

/-- The request with its two terms exchanged. -/
def Proximity.swap (r : Proximity) : Proximity :=
  { r with term1 := r.term2, term2 := r.term1 }

/-- The request with its two terms exchanged. -/
def Variation.swap (r : Variation) : Variation :=
  { r with term1 := r.term2, term2 := r.term1 }

/-- Two results are the same refusal, or queries that match the same spans. -/
inductive Alike (R : Reading) : Except Refusal Query → Except Refusal Query → Prop
  | refused (e : Refusal) : Alike R (.error e) (.error e)
  | compiled {q q' : Query} (h : ∀ ts i j, q.MatchesSpan R ts i j ↔ q'.MatchesSpan R ts i j) :
    Alike R (.ok q) (.ok q')

/-- Two values in both orders match the same spans whichever comes first, as long as the gaps
exclude the same values. -/
theorem Writes.matchesSpan_swap {attr v w : String} {excluded excluded' : List String}
    {bound : Int} {excluding : Prop}
    (h : q.Writes (pairing ⟨attr, v⟩ ⟨attr, w⟩ (.excludingGap attr excluded bound) true))
    (h' : q'.Writes (pairing ⟨attr, w⟩ ⟨attr, v⟩ (.excludingGap attr excluded' bound) true))
    (he : Expression.Plain (pairing ⟨attr, v⟩ ⟨attr, w⟩ (.excludingGap attr excluded bound) true))
    (he' : Expression.Plain (pairing ⟨attr, w⟩ ⟨attr, v⟩ (.excludingGap attr excluded' bound) true))
    (hmem : ∀ u, u ∈ excluded ↔ excluding ∧ (u = v ∨ u = w))
    (hmem' : ∀ u, u ∈ excluded' ↔ excluding ∧ (u = w ∨ u = v)) (ts : List Token) (i j : Nat) :
    q.MatchesSpan R ts i j ↔ q'.MatchesSpan R ts i j := by
  rw [h.matchesSpan_pairing he hmem, h'.matchesSpan_pairing he' hmem']
  constructor
  · intro hnear
    exact hnear.swap fun k hk hex => (hk hex).symm
  · intro hnear
    exact hnear.swap fun k hk hex => (hk hex).symm

/-- A search is refused for the same reason when its terms are exchanged. -/
theorem Proximity.Refused.swap {r : Proximity} {e : Refusal} (h : r.Refused e) :
    r.swap.Refused e := by
  cases h with
  | missingTerms hempty => exact .missingTerms hempty.symm
  | unknownAttribute h1 h2 hattr => exact .unknownAttribute h2 h1 hattr

/-- A search in both orders comes to the same when its terms are exchanged. -/
theorem Proximity.alike_swap (hmin : 0 ≤ limits.minimum) {r : Proximity}
    (hboth : r.bidirectional.truthy = true) :
    Alike R (r.compile limits) (r.swap.compile limits) := by
  cases h : r.compile limits with
  | error e =>
    have hswap : r.swap.compile limits = .error e :=
      Proximity.compile_eq_error_iff.2 (Proximity.compile_eq_error_iff.1 h).swap
    rw [hswap]
    exact .refused e
  | ok q =>
    obtain ⟨h1, h2, attr, hattr, rfl⟩ := Proximity.compile_eq_ok_iff.1 h
    have hswap : r.swap.compile limits = .ok (r.swap.compiled limits attr) :=
      Proximity.compile_eq_ok_iff.2 ⟨h2, h1, attr, hattr, rfl⟩
    have hwrites := r.writes limits attr
    have hwrites' := r.swap.writes limits attr
    have hplain := Proximity.expression_plain hmin h1 h2 attr
    have hplain' : (r.swap.expression limits attr).Plain :=
      Proximity.expression_plain hmin h2 h1 attr
    unfold Proximity.expression at hwrites hwrites' hplain hplain'
    rw [show r.swap.bidirectional.truthy = true from hboth] at hwrites' hplain'
    rw [hboth] at hwrites hplain
    rw [hswap]
    exact .compiled (hwrites.matchesSpan_swap hwrites' hplain hplain'
      (fun _ => Proximity.mem_excluded) fun _ => Proximity.mem_excluded)

/-! ## Spellings exchanged -/

theorem Variation.tooLong_swap {r : Variation} {strategy : Strategy} :
    r.swap.TooLong ceilings strategy ↔ r.TooLong ceilings strategy := by
  unfold Variation.TooLong
  rw [Bool.or_comm]
  exact Iff.rfl

/-- A search is refused for the same reason when its terms are exchanged. -/
theorem Variation.Refused.swap {r : Variation} {generator : Pattern.Generator} {e : Refusal}
    (h : r.Refused generator ceilings e) : r.swap.Refused generator ceilings e := by
  cases h with
  | missingTerms hempty => exact .missingTerms hempty.symm
  | unknownAttribute h1 h2 hattr => exact .unknownAttribute h2 h1 hattr
  | unknownStrategy h1 h2 hattr hstrategy => exact .unknownStrategy h2 h1 hattr hstrategy
  | tooLongFor h1 h2 hattr hstrategy hlong =>
    exact .tooLongFor h2 h1 hattr hstrategy (tooLong_swap.2 hlong)
  | noPatterns h1 h2 hattr hstrategy hlong hpatterns1 hpatterns2 hnone =>
    exact .noPatterns h2 h1 hattr hstrategy (mt tooLong_swap.1 hlong) hpatterns2 hpatterns1
      hnone.symm

theorem Variation.Accepted.swap {r : Variation} {generator : Pattern.Generator} {attr : Attribute}
    {strategy : Strategy} {patterns1 patterns2 : List String}
    (h : r.Accepted generator ceilings attr strategy patterns1 patterns2) :
    r.swap.Accepted generator ceilings attr strategy patterns2 patterns1 :=
  ⟨h.term2, h.term1, h.attr_eq, h.strategy_eq, mt tooLong_swap.1 h.notTooLong, h.patterns2_eq,
    h.patterns1_eq, h.patterns2_ne_nil, h.patterns1_ne_nil⟩

/-- A search for spellings in both orders comes to the same when its terms are exchanged. -/
theorem Variation.alike_swap (hmin : 0 ≤ limits.minimum) {r : Variation}
    (hboth : r.bidirectional.truthy = true) :
    ∃ result result', r.compile (.ofOrthography medieval) limits ceilings = .ok result ∧
      r.swap.compile (.ofOrthography medieval) limits ceilings = .ok result' ∧
      Alike R result result' := by
  obtain ⟨result, h⟩ := r.compile_ofOrthography medieval limits ceilings
  cases result with
  | error e =>
    have hswap : r.swap.compile (.ofOrthography medieval) limits ceilings = .ok (.error e) :=
      Variation.compile_eq_error_iff.2 (Variation.compile_eq_error_iff.1 h).swap
    exact ⟨_, _, h, hswap, .refused e⟩
  | ok q =>
    obtain ⟨attr, strategy, patterns1, patterns2, hr, rfl⟩ := Variation.compile_eq_ok_iff.1 h
    have hswap : r.swap.compile (.ofOrthography medieval) limits ceilings = .ok (.ok _) :=
      Variation.compile_eq_ok_iff.2 ⟨attr, strategy, patterns2, patterns1, hr.swap, rfl⟩
    have hwrites :=
      r.writes limits attr strategy (clean r.term1) (clean r.term2) patterns1 patterns2
    have hwrites' :=
      r.swap.writes limits attr strategy (clean r.term2) (clean r.term1) patterns2 patterns1
    have hplain := Variation.expression_plain hmin hr
    have hplain' := Variation.expression_plain hmin hr.swap
    unfold Variation.expression at hwrites hwrites' hplain hplain'
    rw [show r.swap.bidirectional.truthy = true from hboth] at hwrites' hplain'
    rw [hboth] at hwrites hplain
    exact ⟨_, _, h, hswap, .compiled (hwrites.matchesSpan_swap hwrites' hplain hplain'
      (fun _ => mem_firstSeen_pair) fun _ => mem_firstSeen_pair)⟩

/-! ## Texts read backwards -/

variable {a b c : Test} {gap : Item} {contexts : List Test}

/-- Two tests in both orders. -/
theorem pairing_reversible : Expression.Reversible (pairing a b gap true) := by
  intro s hs
  rcases mem_pairing.1 hs with rfl | ⟨-, rfl⟩
  · exact mem_pairing.2 (.inr ⟨rfl, rfl⟩)
  · exact mem_pairing.2 (.inl rfl)

theorem nearAny_reversible : Expression.Reversible (nearAny c contexts gap) := by
  intro s hs
  rcases mem_nearAny.1 hs with rfl | rfl
  · exact mem_nearAny.2 (.inr rfl)
  · exact mem_nearAny.2 (.inl rfl)

theorem nearEach_reversible : Expression.Reversible (nearEach c contexts gap) := by
  intro s hs
  obtain ⟨x, hx, hs⟩ := List.mem_flatMap.1 hs
  exact List.mem_flatMap.2 ⟨x, hx, pairing_reversible s hs⟩

/-- The orders of three tests are closed under turning around, whether or not some are equal. -/
theorem orderings_reversible : Expression.Reversible (orderings a b c gap) := by
  intro s hs
  obtain ⟨x, y, z, hperm, rfl⟩ := mem_orderings.1 hs
  have hturned : [z, y, x].Perm [a, b, c] := (List.reverse_perm [x, y, z]).trans hperm
  exact mem_orderings.2 ⟨z, y, x, hturned, rfl⟩

theorem nearPairs_reversible : Expression.Reversible (nearPairs c contexts gap) := by
  unfold nearPairs
  split
  · exact nearEach_reversible
  · intro s hs
    obtain ⟨p, hp, hs⟩ := List.mem_flatMap.1 hs
    exact List.mem_flatMap.2 ⟨p, hp, orderings_reversible s hs⟩

theorem sequencesOf_reversible (mode : Mode) :
    Expression.Reversible (sequencesOf mode c contexts gap) := by
  cases mode with
  | semanticPhrase => exact nearEach_reversible
  | semanticAll => exact nearPairs_reversible
  | proximity | proximityWithVariation | semanticAny => exact nearAny_reversible

/-- A query whose expression holds each sequence turned around matches tokens in both directions
alike. -/
theorem Writes.reverse_mem_iff {e : Expression} (h : q.Writes e) (he : e.Plain)
    (hreversible : e.Reversible) (ts : List Token) :
    ts.reverse ∈ q.language R ↔ ts ∈ q.language R := by
  rw [h.language_eq he]
  exact hreversible.reverse_mem_iff ts

theorem Proximity.reverse_mem_iff (hmin : 0 ≤ limits.minimum) {r : Proximity}
    (h : r.compile limits = .ok q) (hboth : q.bidirectional = true) (ts : List Token) :
    ts.reverse ∈ q.language R ↔ ts ∈ q.language R := by
  obtain ⟨h1, h2, attr, -, rfl⟩ := Proximity.compile_eq_ok_iff.1 h
  refine (r.writes limits attr).reverse_mem_iff (Proximity.expression_plain hmin h1 h2 attr) ?_ ts
  unfold Proximity.expression
  rw [show r.bidirectional.truthy = true from hboth]
  exact pairing_reversible

theorem Variation.reverse_mem_iff (hmin : 0 ≤ limits.minimum) {r : Variation}
    (h : r.compile (.ofOrthography medieval) limits ceilings = .ok (.ok q))
    (hboth : q.bidirectional = true) (ts : List Token) :
    ts.reverse ∈ q.language R ↔ ts ∈ q.language R := by
  obtain ⟨attr, strategy, patterns1, patterns2, hr, rfl⟩ := Variation.compile_eq_ok_iff.1 h
  refine (r.writes limits attr strategy _ _ patterns1 patterns2).reverse_mem_iff
    (Variation.expression_plain hmin hr) ?_ ts
  unfold Variation.expression
  rw [show r.bidirectional.truthy = true from hboth]
  exact pairing_reversible

theorem Semantic.reverse_mem_iff (hmin : 0 ≤ limits.minimum) {r : Semantic}
    (h : r.compile limits ceilings = .ok q) (ts : List Token) :
    ts.reverse ∈ q.language R ↔ ts ∈ q.language R := by
  obtain ⟨mode, attr, hr, rfl⟩ := Semantic.compile_eq_ok_iff.1 h
  exact (r.writes limits mode attr).reverse_mem_iff (Semantic.expression_plain hmin hr)
    (sequencesOf_reversible mode) ts

end Query

open Query in
/-- **Neither the order of the terms nor the direction of a text matters to a symmetric search.**
However values are compared with tokens, a search for two terms in both orders and the same search
with its terms exchanged are refused alike, or match the same spans of every text; and such a
search, like every semantic one, matches a row of tokens exactly if it matches the row backwards. -/
theorem both_orders_match_alike (R : Reading) {limits : Distance.Limits}
    (hmin : 0 ≤ limits.minimum) (ceilings : Limits) :
    ((∀ r : Proximity, r.bidirectional.truthy = true →
        Alike R (r.compile limits) (r.swap.compile limits)) ∧
      ∀ r : Variation, r.bidirectional.truthy = true →
        ∃ result result', r.compile (.ofOrthography medieval) limits ceilings = .ok result ∧
          r.swap.compile (.ofOrthography medieval) limits ceilings = .ok result' ∧
          Alike R result result') ∧
    (∀ (r : Proximity) (q : Query), r.compile limits = .ok q → q.bidirectional = true →
      ∀ ts, ts.reverse ∈ q.language R ↔ ts ∈ q.language R) ∧
    (∀ (r : Variation) (q : Query),
      r.compile (.ofOrthography medieval) limits ceilings = .ok (.ok q) → q.bidirectional = true →
      ∀ ts, ts.reverse ∈ q.language R ↔ ts ∈ q.language R) ∧
    ∀ (r : Semantic) (q : Query), r.compile limits ceilings = .ok q →
      ∀ ts, ts.reverse ∈ q.language R ↔ ts ∈ q.language R := by
  refine ⟨⟨?_, ?_⟩, ?_, ?_, ?_⟩
  · intro r hboth
    exact Proximity.alike_swap hmin hboth
  · intro r hboth
    exact Variation.alike_swap hmin hboth
  · intro r q h hboth ts
    exact Proximity.reverse_mem_iff hmin h hboth ts
  · intro r q h hboth ts
    exact Variation.reverse_mem_iff hmin h hboth ts
  · intro r q h ts
    exact Semantic.reverse_mem_iff hmin h ts

open Query in
/-- With repeats excluded the exchanged search is written differently, and matches the same three
tokens, in both directions; so does the search for three terms together. -/
theorem exchanged_terms_match_alike :
    let limits : Distance.Limits := {}
    let apart : Proximity :=
      { term1 := .text "ratio", term2 := .text "fides", excludeRepeats := .bool true }
    let spelled : Variation := { term1 := .text "ratio", term2 := .text "" }
    let among : Semantic :=
      { central := .text "et", contexts := .text "fides, ratio", mode := .text "all" }
    let text : List Token := ["fides", "et", "ratio"].map fun w _ => w
    (∃ q q', apart.compile limits = .ok q ∧ apart.swap.compile limits = .ok q' ∧ q.text ≠ q'.text ∧
      (q.MatchesSpan Accepts text 0 2 ∧ q'.MatchesSpan Accepts text 0 2) ∧
      text.reverse ∈ q.language Accepts) ∧
    (∃ result, spelled.compile (.ofOrthography medieval) limits {} = .ok result ∧
      Alike Accepts result (.error .missingTerms)) ∧
    ∃ q, among.compile limits {} = .ok q ∧
      (text.reverse ∈ q.language Accepts ↔ text ∈ q.language Accepts) := by
  intro limits apart spelled among text
  have hmin : (0 : Int) ≤ limits.minimum := by decide
  obtain ⟨⟨hnear, hspelled⟩, hback, -, hbackAmong⟩ := both_orders_match_alike Accepts hmin {}
  have h1 : clean (.text "ratio") ≠ "" := by decide +kernel
  have h2 : clean (.text "fides") ≠ "" := by decide +kernel
  refine ⟨?_, ?_, ?_⟩
  · have h : apart.compile limits = .ok (apart.compiled limits .lemmaForm) :=
      Proximity.compile_eq_ok_iff.2 ⟨h1, h2, _, rfl, rfl⟩
    have h' : apart.swap.compile limits = .ok (apart.swap.compiled limits .lemmaForm) :=
      Proximity.compile_eq_ok_iff.2 ⟨h2, h1, _, rfl, rfl⟩
    have hmatch : (apart.compiled limits .lemmaForm).MatchesSpan Accepts text 0 2 := by
      have hfirst : "fides" = clean (.text "fides") := by decide +kernel
      have hlast : "ratio" = clean (.text "ratio") := by decide +kernel
      have hclear : "et" ≠ clean (.text "fides") ∧ "et" ≠ clean (.text "ratio") := by
        decide +kernel
      refine (Proximity.matchesSpan_iff hmin h).2 (.inr ⟨rfl, ⟨⟨_, rfl, hfirst⟩,
        ⟨by decide, by decide +kernel, ?_⟩, ⟨_, rfl, hlast⟩⟩⟩)
      intro k hk hk' t ht _
      obtain rfl : k = 1 := by omega
      cases ht
      exact ⟨hclear.2, hclear.1⟩
    have halike := hnear apart rfl
    rw [h, h'] at halike
    cases halike with
    | compiled hsame =>
      exact ⟨_, _, h, h', by decide +kernel, ⟨hmatch, (hsame text 0 2).1 hmatch⟩,
        (hback apart _ h rfl text).2 hmatch.2.2⟩
  · obtain ⟨result, result', h, h', halike⟩ := hspelled spelled rfl
    have hswap : spelled.swap.compile (.ofOrthography medieval) limits {} =
        .ok (.error .missingTerms) :=
      Variation.compile_eq_error_iff.2 (.missingTerms (.inl (by decide +kernel)))
    obtain rfl := Except.ok.inj (h'.symm.trans hswap)
    exact ⟨result, h, halike⟩
  · have h : among.compile limits {} = .ok (among.compiled limits .semanticAll .lemmaForm) :=
      Semantic.compile_eq_ok_iff.2 ⟨_, _, ⟨by decide +kernel, by decide +kernel, by decide +kernel,
        rfl, by decide +kernel, by decide +kernel⟩, rfl⟩
    exact ⟨_, h, hbackAmong among _ h text⟩

end Concordance
