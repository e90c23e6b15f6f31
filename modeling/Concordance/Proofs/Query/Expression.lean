import Concordance.Proofs.Query.Compiled
import Concordance.Proofs.Cql.Reader
import Concordance.Proofs.Pattern.Alphabet
import Mathlib.Data.List.Permutation

/-!
# The sequences of each search

Which sequences belong to the expression of a search, and that they can be written.

* `mem_pairing`, `mem_nearAny`, `mem_nearEach`, `mem_nearPairs` — the sequences of each kind.
* `mem_pairs` — of two different items of a list, some order is one of its pairs.
* `pairing_plain`, `sequencesOf_plain` — they can be written if their tests and gaps can.
* `Query.Writes.read_text` — the text of a query is read as its expression without repeats.
-/

namespace Concordance

open Concordance.Cql Concordance.Term Concordance.Pattern

/-- The text of a query is read as its expression without repeats. -/
theorem Query.Writes.read_text {q : Query} {e : Expression} (h : q.Writes e) (he : e.Plain) :
    Expression.read q.text = some (firstSeen e) ∧
      (firstSeen e).map Sequence.render = q.subqueries := by
  have hplain : Expression.Plain (firstSeen e) :=
    ⟨fun hnil => he.1 (firstSeen_eq_nil_iff.1 hnil), fun s hs => he.2 s (mem_firstSeen.1 hs)⟩
  have hmap : Query.subqueriesOf e = (firstSeen e).map Sequence.render :=
    firstSeen_map fun s hs t ht => Sequence.render_inj (he.2 s hs) (he.2 t ht)
  refine ⟨?_, by rw [h.subqueries_eq, hmap]⟩
  rw [h.text_eq, hmap]
  exact read_render hplain

namespace Query

variable {a b c : Test} {gap : Item} {s : Cql.Sequence}

/-! ## Pairs -/

theorem mem_pairing {both : Bool} :
    s ∈ pairing a b gap both ↔
      s = [.token a, gap, .token b] ∨ both = true ∧ s = [.token b, gap, .token a] := by
  cases both <;> simp [pairing]

theorem pairing_plain {both : Bool} (ha : a.Plain) (hb : b.Plain) (hgap : gap.Plain) :
    Expression.Plain (pairing a b gap both) := by
  constructor
  · cases both <;> simp [pairing]
  · intro s hs
    rcases mem_pairing.1 hs with rfl | ⟨-, rfl⟩
    · exact ⟨List.cons_ne_nil _ _, by simp [ha, hb, hgap]⟩
    · exact ⟨List.cons_ne_nil _ _, by simp [ha, hb, hgap]⟩

/-! ## Contexts -/

theorem mem_nearAny {contexts : List Test} :
    s ∈ nearAny c contexts gap ↔
      s = [.token c, gap, .group contexts] ∨ s = [.group contexts, gap, .token c] := by
  simp [nearAny]

theorem mem_nearEach {contexts : List Test} :
    s ∈ nearEach c contexts gap ↔
      ∃ x ∈ contexts, s = [.token c, gap, .token x] ∨ s = [.token x, gap, .token c] := by
  simp [nearEach, mem_pairing]

/-- The sequences of three tests are those of every order of the three. -/
theorem mem_orderings :
    s ∈ orderings a b c gap ↔ ∃ x y z, [x, y, z].Perm [a, b, c] ∧ s = triple x y z gap := by
  simp only [← List.mem_permutations', List.permutations', List.permutations'Aux, List.flatMap_cons,
    List.flatMap_nil, List.map_cons, List.map_nil, List.append_nil, List.cons_append,
    List.nil_append, List.mem_cons, List.not_mem_nil, or_false, List.cons.injEq, and_true,
    orderings]
  constructor
  · rintro (rfl | rfl | rfl | rfl | rfl | rfl)
    · exact ⟨a, b, c, by simp, rfl⟩
    · exact ⟨a, c, b, by simp, rfl⟩
    · exact ⟨b, a, c, by simp, rfl⟩
    · exact ⟨b, c, a, by simp, rfl⟩
    · exact ⟨c, a, b, by simp, rfl⟩
    · exact ⟨c, b, a, by simp, rfl⟩
  · rintro ⟨x, y, z, h, rfl⟩
    rcases h with ⟨rfl, rfl, rfl⟩ | ⟨rfl, rfl, rfl⟩ | ⟨rfl, rfl, rfl⟩ | ⟨rfl, rfl, rfl⟩ |
      ⟨rfl, rfl, rfl⟩ | ⟨rfl, rfl, rfl⟩ <;> simp

theorem mem_pairs_of_mem {α : Type} {xs : List α} {x y : α} (h : (x, y) ∈ pairs xs) :
    x ∈ xs ∧ y ∈ xs := by
  induction xs with
  | nil => cases h
  | cons z rest ih =>
    simp only [pairs, List.mem_append, List.mem_map, Prod.mk.injEq] at h
    rcases h with ⟨w, hw, rfl, rfl⟩ | h
    · exact ⟨List.mem_cons_self .., List.mem_cons_of_mem _ hw⟩
    · exact ⟨List.mem_cons_of_mem _ (ih h).1, List.mem_cons_of_mem _ (ih h).2⟩

theorem ne_of_mem_pairs {α : Type} {xs : List α} (hxs : xs.Nodup) {x y : α}
    (h : (x, y) ∈ pairs xs) : x ≠ y := by
  induction xs with
  | nil => cases h
  | cons z rest ih =>
    rw [List.nodup_cons] at hxs
    simp only [pairs, List.mem_append, List.mem_map, Prod.mk.injEq] at h
    rcases h with ⟨w, hw, rfl, rfl⟩ | h
    · exact fun he => hxs.1 (he ▸ hw)
    · exact ih hxs.2 h

/-- Of two different items of a list, some order is one of its pairs. -/
theorem mem_pairs {α : Type} {xs : List α} {x y : α} (hx : x ∈ xs) (hy : y ∈ xs) (hne : x ≠ y) :
    (x, y) ∈ pairs xs ∨ (y, x) ∈ pairs xs := by
  induction xs with
  | nil => cases hx
  | cons z rest ih =>
    simp only [pairs, List.mem_append, List.mem_map, Prod.mk.injEq]
    rcases List.mem_cons.1 hx with rfl | hx'
    · rcases List.mem_cons.1 hy with rfl | hy'
      · exact absurd rfl hne
      · exact .inl (.inl ⟨y, hy', rfl, rfl⟩)
    · rcases List.mem_cons.1 hy with rfl | hy'
      · exact .inr (.inl ⟨x, hx', rfl, rfl⟩)
      · exact (ih hx' hy').imp .inr .inr

theorem nearPairs_single {contexts : List Test} (h : contexts.length < 2) :
    nearPairs c contexts gap = nearEach c contexts gap :=
  if_pos h

/-- With two contexts or more, every two different ones come in every order with the centre. -/
theorem mem_nearPairs {contexts : List Test} (hlen : 2 ≤ contexts.length)
    (hnodup : contexts.Nodup) :
    s ∈ nearPairs c contexts gap ↔
      ∃ x ∈ contexts, ∃ y ∈ contexts, x ≠ y ∧
        ∃ t u v, [t, u, v].Perm [c, x, y] ∧ s = triple t u v gap := by
  rw [nearPairs, if_neg (by omega), List.mem_flatMap]
  constructor
  · rintro ⟨⟨x, y⟩, hxy, hs⟩
    have hmem := mem_pairs_of_mem hxy
    exact ⟨x, hmem.1, y, hmem.2, ne_of_mem_pairs hnodup hxy, mem_orderings.1 hs⟩
  · rintro ⟨x, hx, y, hy, hne, t, u, v, hperm, rfl⟩
    rcases mem_pairs hx hy hne with h | h
    · exact ⟨(x, y), h, mem_orderings.2 ⟨t, u, v, hperm, rfl⟩⟩
    · exact ⟨(y, x), h, mem_orderings.2
        ⟨t, u, v, hperm.trans (.cons _ (.swap _ _ _)), rfl⟩⟩

theorem nearEach_plain {contexts : List Test} (hc : c.Plain) (hne : contexts ≠ [])
    (hcontexts : ∀ x ∈ contexts, x.Plain) (hgap : gap.Plain) :
    Expression.Plain (nearEach c contexts gap) := by
  obtain ⟨x, hx⟩ := List.exists_mem_of_ne_nil _ hne
  refine ⟨List.ne_nil_of_mem (mem_nearEach.2 ⟨x, hx, .inl rfl⟩), fun s hs => ?_⟩
  obtain ⟨y, hy, hs⟩ := mem_nearEach.1 hs
  have hpair : s ∈ pairing c y gap true := mem_pairing.2 (hs.imp_right fun h => ⟨rfl, h⟩)
  exact (pairing_plain hc (hcontexts y hy) hgap).2 s hpair

theorem triple_plain (ha : a.Plain) (hb : b.Plain) (hc : c.Plain) (hgap : gap.Plain) :
    Sequence.Plain (triple a b c gap) :=
  ⟨List.cons_ne_nil _ _, by simp [triple, ha, hb, hc, hgap]⟩

theorem nearPairs_plain {contexts : List Test} (hc : c.Plain) (hne : contexts ≠ [])
    (hcontexts : ∀ x ∈ contexts, x.Plain) (hgap : gap.Plain) :
    Expression.Plain (nearPairs c contexts gap) := by
  by_cases hlen : contexts.length < 2
  · rw [nearPairs_single hlen]
    exact nearEach_plain hc hne hcontexts hgap
  rw [nearPairs, if_neg hlen]
  constructor
  · match contexts, hlen with
    | x :: y :: rest, _ => simp [pairs, orderings]
    | [], h | [_], h => simp at h
  · intro s hs
    obtain ⟨⟨x, y⟩, hxy, hs⟩ := List.mem_flatMap.1 hs
    obtain ⟨t, u, v, hperm, rfl⟩ := mem_orderings.1 hs
    have hmem := mem_pairs_of_mem hxy
    have hall : ∀ w ∈ [t, u, v], w.Plain := by
      intro w hw
      have hw' := hperm.subset hw
      simp only [List.mem_cons, List.not_mem_nil, or_false] at hw'
      rcases hw' with rfl | rfl | rfl
      · exact hc
      · exact hcontexts _ hmem.1
      · exact hcontexts _ hmem.2
    exact triple_plain (hall t (by simp)) (hall u (by simp)) (hall v (by simp)) hgap

theorem sequencesOf_plain {contexts : List Test} (mode : Mode) (hc : c.Plain)
    (hne : contexts ≠ []) (hcontexts : ∀ x ∈ contexts, x.Plain) (hgap : gap.Plain) :
    Expression.Plain (sequencesOf mode c contexts gap) := by
  have hany : Expression.Plain (nearAny c contexts gap) := by
    refine ⟨by simp [nearAny], fun s hs => ?_⟩
    rcases mem_nearAny.1 hs with rfl | rfl
    · exact ⟨List.cons_ne_nil _ _, by simpa [hc, hgap] using ⟨hne, hcontexts⟩⟩
    · exact ⟨List.cons_ne_nil _ _, by simpa [hc, hgap] using ⟨hne, hcontexts⟩⟩
  cases mode with
  | semanticPhrase => exact nearEach_plain hc hne hcontexts hgap
  | semanticAll => exact nearPairs_plain hc hne hcontexts hgap
  | proximity | proximityWithVariation | semanticAny => exact hany

/-! ## Values that can be written -/

theorem isName_attr (attr : Attribute) : IsName attr.name.toList := by
  cases attr <;> exact ⟨by decide, List.all_eq_true.1 (by decide)⟩

theorem plain_of_isTerm (attr : Attribute) {v : String} (h : IsTerm v) :
    Test.Plain ⟨attr.name, v⟩ :=
  ⟨isName_attr attr, notMem_of_isTerm h (by decide)⟩

theorem plain_of_patterns (attr : Attribute) (t : Strategy) {word : String} (suffixed : Bool)
    (h : IsTerm word) :
    Test.Plain ⟨attr.name, alternation (Pattern.patterns medieval t word suffixed)⟩ :=
  ⟨isName_attr attr, fun hquote => forall_mem_alternation (P := fun c => c ≠ '"') (by decide)
    (fun _ hp c hc hcq => notMem_of_mem_patterns h hp (by decide) (hcq ▸ hc)) _ hquote rfl⟩

theorem alternatives_patterns {t : Strategy} {word : String} {suffixed : Bool} (h : IsTerm word) :
    alternatives (alternation (Pattern.patterns medieval t word suffixed)) =
      Pattern.patterns medieval t word suffixed :=
  alternatives_alternation (patterns_ne_nil h.ne_empty)
    fun _ hp => notMem_of_mem_patterns h hp (by decide)

theorem read_nonneg {limits : Distance.Limits} (h : 0 ≤ limits.minimum) (fallback : Int)
    (v : Value) : 0 ≤ limits.read fallback v :=
  Int.le_trans h (Distance.minimum_le_clamp _ _)

/-- Two values beside each other can be written, and so can the gap that excludes some of them. -/
theorem pairing_excluding_plain {attr v w : String} {excluded : List String} {bound : Int}
    {both : Bool} (hv : Test.Plain ⟨attr, v⟩) (hw : Test.Plain ⟨attr, w⟩)
    (hexcluded : ∀ u ∈ excluded, u = v ∨ u = w) (hbound : 0 ≤ bound) :
    Expression.Plain
      (pairing ⟨attr, v⟩ ⟨attr, w⟩ (.excludingGap attr excluded bound) both) := by
  refine pairing_plain hv hw ⟨fun t ht => ?_, hbound⟩
  obtain ⟨u, hu, rfl⟩ := List.mem_map.1 ht
  rcases hexcluded u hu with rfl | rfl
  · exact hv
  · exact hw

/-- Both values of a pair are among the values that its gap excludes, each one once. -/
theorem mem_firstSeen_pair {u v w : String} : u ∈ firstSeen [v, w] ↔ True ∧ (u = v ∨ u = w) := by
  simp

section Requests

variable {limits : Distance.Limits} {ceilings : Limits}

theorem Proximity.expression_plain (hmin : 0 ≤ limits.minimum) {r : Proximity}
    (h1 : Term.clean r.term1 ≠ "") (h2 : Term.clean r.term2 ≠ "") (attr : Attribute) :
    (r.expression limits attr).Plain :=
  pairing_excluding_plain (plain_of_isTerm attr (isTerm_clean h1))
    (plain_of_isTerm attr (isTerm_clean h2)) (fun _ hu => (Proximity.mem_excluded.1 hu).2)
    (read_nonneg hmin _ _)

theorem Variation.expression_plain (hmin : 0 ≤ limits.minimum) {r : Variation} {attr : Attribute}
    {strategy : Strategy} {patterns1 patterns2 : List String}
    (h : r.Accepted (.ofOrthography medieval) ceilings attr strategy patterns1 patterns2) :
    (r.expression limits attr patterns1 patterns2).Plain := by
  obtain rfl := Except.ok.inj h.patterns1_eq
  obtain rfl := Except.ok.inj h.patterns2_eq
  exact pairing_excluding_plain (plain_of_patterns attr strategy false (isTerm_clean h.term1))
    (plain_of_patterns attr strategy false (isTerm_clean h.term2))
    (fun _ hu => (mem_firstSeen_pair.1 hu).2) (read_nonneg hmin _ _)

theorem Semantic.expression_plain (hmin : 0 ≤ limits.minimum) {r : Semantic} {mode : Mode}
    {attr : Attribute} (h : r.Accepted ceilings mode attr) :
    (r.expression limits mode attr).Plain := by
  have hcontexts : ∀ x ∈ (Term.contextTerms r.contexts).map (Test.mk attr.name), x.Plain := by
    intro x hx
    obtain ⟨t, ht, rfl⟩ := List.mem_map.1 hx
    exact plain_of_isTerm attr (isTerm_of_mem_contextTerms ht)
  exact sequencesOf_plain mode (plain_of_isTerm attr (isTerm_clean h.central))
    (fun hnil => h.contexts_ne_nil (List.map_eq_nil_iff.1 hnil)) hcontexts
    ⟨fun t ht => absurd ht List.not_mem_nil, read_nonneg hmin _ _⟩

end Requests

end Query

end Concordance
