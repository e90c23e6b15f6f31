import Concordance.Proofs.Query.NearPair

/-!
# How the modes of a semantic search relate

The three modes ask for a term beside some context, beside each context, and together with every
two contexts.  They are compared by the spans that their texts match.

* `matchesSpan_nearAny`, `matchesSpan_nearEach`, `matchesSpan_nearPairs` — what the sequences of
  each mode match; the first two match the same spans.
* `AmongTwo` — a term and two different contexts, in some order, each near the next.
* `AmongTwo.beside` — then the term is beside one of the contexts, at one end of the span.
* `context_modes_relate` — how the spans of the three modes of one request relate.
-/

namespace Concordance

open Concordance.Cql Concordance.Term

namespace Query

section Matches

variable {R : Reading} {q : Query} {c : Test} {contexts : List Test} {bound : Int}
  {ts : List Token} {i j : Nat}

/-! ## The sequences of each mode -/

theorem language_anyGap : (Item.anyGap bound).language R = upTo bound fun _ => True := by
  unfold Item.anyGap Item.language
  simp

/-- Two items for one token each, with any tokens between them. -/
theorem covers_across {x y : Item} {A B : Token → Prop} (hx : x.language R = single A)
    (hy : y.language R = single B) :
    Covers (Sequence.language R [x, .anyGap bound, y]) ts i j ↔
      Near A B (fun _ => True) bound ts i j := by
  rw [Sequence.language_pair, language_anyGap, hx, hy]
  exact covers_pair

/-- The term beside a choice of contexts. -/
theorem matchesSpan_nearAny (h : q.Writes (nearAny c contexts (.anyGap bound)))
    (he : Expression.Plain (nearAny c contexts (.anyGap bound))) :
    q.MatchesSpan R ts i j ↔
      NearPair (c.Holds R) (fun k => ∃ t ∈ contexts, t.Holds R k) (fun _ => True) True bound
        ts i j := by
  rw [h.matchesSpan_iff he]
  constructor
  · rintro ⟨s, hs, hcovers⟩
    rcases mem_nearAny.1 hs with rfl | rfl
    · exact .inl ((covers_across rfl rfl).1 hcovers)
    · exact .inr ⟨trivial, (covers_across rfl rfl).1 hcovers⟩
  · rintro (hn | ⟨-, hn⟩)
    · exact ⟨_, mem_nearAny.2 (.inl rfl), (covers_across rfl rfl).2 hn⟩
    · exact ⟨_, mem_nearAny.2 (.inr rfl), (covers_across rfl rfl).2 hn⟩

/-- The term beside each context. -/
theorem matchesSpan_nearEach (h : q.Writes (nearEach c contexts (.anyGap bound)))
    (he : Expression.Plain (nearEach c contexts (.anyGap bound))) :
    q.MatchesSpan R ts i j ↔
      NearPair (c.Holds R) (fun k => ∃ t ∈ contexts, t.Holds R k) (fun _ => True) True bound
        ts i j := by
  rw [h.matchesSpan_iff he]
  constructor
  · rintro ⟨s, hs, hcovers⟩
    obtain ⟨x, hx, rfl | rfl⟩ := mem_nearEach.1 hs
    · obtain ⟨hfirst, hapart, k, hk, hsecond⟩ := (covers_across rfl rfl).1 hcovers
      exact .inl ⟨hfirst, hapart, k, hk, x, hx, hsecond⟩
    · obtain ⟨⟨k, hk, hfirst⟩, hapart, hsecond⟩ := (covers_across rfl rfl).1 hcovers
      exact .inr ⟨trivial, ⟨k, hk, x, hx, hfirst⟩, hapart, hsecond⟩
  · rintro (⟨hfirst, hapart, k, hk, x, hx, hsecond⟩ | ⟨-, ⟨k, hk, x, hx, hfirst⟩, hapart, hsecond⟩)
    · have hnear : Near (c.Holds R) (x.Holds R) (fun _ => True) bound ts i j :=
        ⟨hfirst, hapart, k, hk, hsecond⟩
      exact ⟨_, mem_nearEach.2 ⟨x, hx, .inl rfl⟩, (covers_across rfl rfl).2 hnear⟩
    · have hnear : Near (x.Holds R) (c.Holds R) (fun _ => True) bound ts i j :=
        ⟨⟨k, hk, hfirst⟩, hapart, hsecond⟩
      exact ⟨_, mem_nearEach.2 ⟨x, hx, .inr rfl⟩, (covers_across rfl rfl).2 hnear⟩

/-- The term with every two contexts. -/
theorem matchesSpan_nearPairs (hlen : 2 ≤ contexts.length) (hnodup : contexts.Nodup)
    (h : q.Writes (nearPairs c contexts (.anyGap bound)))
    (he : Expression.Plain (nearPairs c contexts (.anyGap bound))) :
    q.MatchesSpan R ts i j ↔ ∃ x ∈ contexts, ∃ y ∈ contexts, x ≠ y ∧
      ∃ t u v, [t, u, v].Perm [c, x, y] ∧ ∃ m,
        Near (t.Holds R) (u.Holds R) (fun _ => True) bound ts i m ∧
        Near (u.Holds R) (v.Holds R) (fun _ => True) bound ts m j := by
  have htriple : ∀ {t u v : Test}, Covers (Sequence.language R (triple t u v (.anyGap bound)))
      ts i j ↔ ∃ m, Near (t.Holds R) (u.Holds R) (fun _ => True) bound ts i m ∧
        Near (u.Holds R) (v.Holds R) (fun _ => True) bound ts m j := by
    intro t u v
    rw [triple, Sequence.language_triple, language_anyGap]
    exact covers_triple
  rw [h.matchesSpan_iff he]
  constructor
  · rintro ⟨s, hs, hcovers⟩
    obtain ⟨x, hx, y, hy, hne, t, u, v, hperm, rfl⟩ := (mem_nearPairs hlen hnodup).1 hs
    exact ⟨x, hx, y, hy, hne, t, u, v, hperm, htriple.1 hcovers⟩
  · rintro ⟨x, hx, y, hy, hne, t, u, v, hperm, hnear⟩
    exact ⟨_, (mem_nearPairs hlen hnodup).2 ⟨x, hx, y, hy, hne, t, u, v, hperm, rfl⟩,
      htriple.2 hnear⟩

end Matches

/-! ## Terms among contexts -/

/-- The term at one end of a span and a context at the other. -/
def BesideContext (attr c : String) (contexts : List String) (bound : Int) (ts : List Token)
    (i j : Nat) : Prop :=
  NearPair (HasTerm attr c) (fun k => ∃ x ∈ contexts, HasTerm attr x k) (fun _ => True) True bound
    ts i j

/-- The term and two different contexts, in some order, at the start of a span, within it and at
its end, each near the next. -/
def AmongTwo (attr c : String) (contexts : List String) (bound : Int) (ts : List Token)
    (i j : Nat) : Prop :=
  ∃ x ∈ contexts, ∃ y ∈ contexts, x ≠ y ∧ ∃ t u v, [t, u, v].Perm [c, x, y] ∧ ∃ m,
    Near (HasTerm attr t) (HasTerm attr u) (fun _ => True) bound ts i m ∧
    Near (HasTerm attr u) (HasTerm attr v) (fun _ => True) bound ts m j

section Among

variable {attr c : String} {contexts : List String} {bound : Int} {ts : List Token} {i j : Nat}

/-- Of three items in some order, each one is next to one of the other two, at an end. -/
theorem perm_three_cases {α : Type} {t u v a b c : α} (h : [t, u, v].Perm [a, b, c]) :
    t = a ∧ u ∈ [b, c] ∨ u = a ∧ t ∈ [b, c] ∨ v = a ∧ u ∈ [b, c] := by
  have ha : a ∈ [t, u, v] := h.symm.subset (List.mem_cons_self ..)
  simp only [List.mem_cons, List.not_mem_nil, or_false] at ha
  rcases ha with rfl | rfl | rfl
  · exact .inl ⟨rfl, h.cons_inv.subset (List.mem_cons_self ..)⟩
  · have hswap : [a, t, v].Perm [a, b, c] := (List.Perm.swap t a [v]).trans h
    exact .inr (.inl ⟨rfl, hswap.cons_inv.subset (List.mem_cons_self ..)⟩)
  · have hrotate : ([a] ++ [t, u]).Perm ([t, u] ++ [a]) := List.perm_append_comm
    have hlast : [a, t, u].Perm [a, b, c] := hrotate.trans h
    exact .inr (.inr ⟨rfl, hlast.cons_inv.subset (by simp)⟩)

/-- Among two contexts, the term is beside one of them at one end of the span. -/
theorem AmongTwo.beside (h : AmongTwo attr c contexts bound ts i j) :
    (∃ m, m ≤ j ∧ BesideContext attr c contexts bound ts i m) ∨
      ∃ m, i ≤ m ∧ BesideContext attr c contexts bound ts m j := by
  obtain ⟨x, hx, y, hy, -, t, u, v, hperm, m, hfirst, hsecond⟩ := h
  have hcontext : ∀ w ∈ [x, y], ∀ k, HasTerm attr w k → ∃ x ∈ contexts, HasTerm attr x k := by
    intro w hw k hk
    simp only [List.mem_cons, List.not_mem_nil, or_false] at hw
    rcases hw with rfl | rfl
    · exact ⟨w, hx, hk⟩
    · exact ⟨w, hy, hk⟩
  have hmj := Nat.le_of_lt hsecond.apart.lt
  have him := Nat.le_of_lt hfirst.apart.lt
  rcases perm_three_cases hperm with ⟨rfl, hu⟩ | ⟨rfl, ht⟩ | ⟨rfl, hu⟩
  · obtain ⟨hi, hapart, k, hk, hm⟩ := hfirst
    exact .inl ⟨m, hmj, .inl ⟨hi, hapart, k, hk, hcontext u hu k hm⟩⟩
  · obtain ⟨⟨k, hk, hi⟩, hapart, hm⟩ := hfirst
    exact .inl ⟨m, hmj, .inr ⟨trivial, ⟨k, hk, hcontext t ht k hi⟩, hapart, hm⟩⟩
  · obtain ⟨⟨k, hk, hm⟩, hapart, hj⟩ := hsecond
    exact .inr ⟨m, him, .inr ⟨trivial, ⟨k, hk, hcontext u hu k hm⟩, hapart, hj⟩⟩

end Among

/-! ## Requests that differ in their mode -/

section Requests

variable {limits : Distance.Limits} {ceilings : Limits} {r : Semantic} {attr : Attribute}
  {ts : List Token} {i j : Nat}

theorem exists_context_holds {name : String} {contexts : List String} :
    (fun k => ∃ t ∈ contexts.map (Test.mk name), t.Holds verbatim k) =
      fun k => ∃ x ∈ contexts, HasTerm name x k := by
  funext k
  simp only [List.mem_map, exists_exists_and_eq_and]
  rfl

theorem Semantic.matchesSpan_any (hmin : 0 ≤ limits.minimum)
    (hr : r.Accepted ceilings .semanticAny attr) :
    (r.compiled limits .semanticAny attr).MatchesSpan verbatim ts i j ↔
      BesideContext attr.name (clean r.central) (Term.contextTerms r.contexts)
        (limits.read limits.semantic r.distance) ts i j := by
  rw [BesideContext, ← exists_context_holds]
  exact matchesSpan_nearAny (r.writes limits .semanticAny attr) (Semantic.expression_plain hmin hr)

theorem Semantic.matchesSpan_phrase (hmin : 0 ≤ limits.minimum)
    (hr : r.Accepted ceilings .semanticPhrase attr) :
    (r.compiled limits .semanticPhrase attr).MatchesSpan verbatim ts i j ↔
      BesideContext attr.name (clean r.central) (Term.contextTerms r.contexts)
        (limits.read limits.semantic r.distance) ts i j := by
  rw [BesideContext, ← exists_context_holds]
  exact matchesSpan_nearEach (r.writes limits .semanticPhrase attr)
    (Semantic.expression_plain hmin hr)

theorem Semantic.matchesSpan_all (hmin : 0 ≤ limits.minimum)
    (hr : r.Accepted ceilings .semanticAll attr)
    (hlen : 2 ≤ (Term.contextTerms r.contexts).length) :
    (r.compiled limits .semanticAll attr).MatchesSpan verbatim ts i j ↔
      AmongTwo attr.name (clean r.central) (Term.contextTerms r.contexts)
        (limits.read limits.semantic r.distance) ts i j := by
  have hmk : Function.Injective (Test.mk attr.name) := fun a b hab => (Test.mk.inj hab).2
  refine (matchesSpan_nearPairs (by rwa [List.length_map]) ((nodup_contextTerms _).map hmk)
    (r.writes limits .semanticAll attr) (Semantic.expression_plain hmin hr)).trans ?_
  constructor
  · rintro ⟨_, hx', _, hy', hne, t, u, v, hperm, m, hfirst, hsecond⟩
    obtain ⟨x, hx, rfl⟩ := List.mem_map.1 hx'
    obtain ⟨y, hy, rfl⟩ := List.mem_map.1 hy'
    have hholds : ∀ s ∈ [t, u, v], s.Holds verbatim = HasTerm attr.name s.value := by
      intro s hs
      have hs' := hperm.subset hs
      simp only [List.mem_cons, List.not_mem_nil, or_false] at hs'
      rcases hs' with rfl | rfl | rfl <;> rfl
    rw [hholds t (by simp), hholds u (by simp)] at hfirst
    rw [hholds u (by simp), hholds v (by simp)] at hsecond
    exact ⟨x, hx, y, hy, fun h => hne (congrArg _ h), t.value, u.value, v.value,
      hperm.map Test.value, m, hfirst, hsecond⟩
  · rintro ⟨x, hx, y, hy, hne, t, u, v, hperm, hnear⟩
    exact ⟨_, List.mem_map_of_mem hx, _, List.mem_map_of_mem hy, fun h => hne (hmk h), _, _, _,
      hperm.map (Test.mk attr.name), hnear⟩

/-- With fewer than two contexts, to ask for every two is to ask for each. -/
theorem Semantic.compiled_all_eq (hlen : (Term.contextTerms r.contexts).length < 2) :
    r.compiled limits .semanticAll attr =
      { r.compiled limits .semanticPhrase attr with mode := .semanticAll } := by
  have hexpression : r.expression limits .semanticAll attr =
      r.expression limits .semanticPhrase attr :=
    nearPairs_single (by rwa [List.length_map])
  unfold Semantic.compiled
  rw [hexpression]

/-- What the compiled request is does not depend on its mode as it was given. -/
theorem Semantic.compile_mode_iff {mode : Mode} {given : Value}
    (hmode : Mode.ofValue? given = some mode) {q : Query} :
    { r with mode := given }.compile limits ceilings = .ok q ↔
      ∃ attr, { r with mode := given }.Accepted ceilings mode attr ∧
        q = r.compiled limits mode attr := by
  rw [Semantic.compile_eq_ok_iff]
  constructor
  · rintro ⟨mode', attr, hr, rfl⟩
    obtain rfl := Option.some.inj (hmode.symm.trans hr.mode_eq)
    exact ⟨attr, hr, rfl⟩
  · rintro ⟨attr, hr, rfl⟩
    exact ⟨mode, attr, hr, rfl⟩

theorem Semantic.Accepted.withMode {given given' : Value} {mode mode' : Mode}
    (h : { r with mode := given }.Accepted ceilings mode attr)
    (hmode : Mode.ofValue? given' = some mode') :
    { r with mode := given' }.Accepted ceilings mode' attr :=
  ⟨h.central, h.namesContexts, hmode, h.attr_eq, h.contexts_ne_nil, h.notTooMany⟩

/-- Whether a request is compiled does not depend on which mode it names. -/
theorem Semantic.exists_compile_iff {given given' : Value} {mode mode' : Mode}
    (h : Mode.ofValue? given = some mode) (h' : Mode.ofValue? given' = some mode') :
    (∃ q, { r with mode := given }.compile limits ceilings = .ok q) ↔
      ∃ q, { r with mode := given' }.compile limits ceilings = .ok q := by
  simp only [Semantic.compile_mode_iff h, Semantic.compile_mode_iff h']
  constructor
  · rintro ⟨_, attr, hr, -⟩
    exact ⟨_, attr, hr.withMode h', rfl⟩
  · rintro ⟨_, attr, hr, -⟩
    exact ⟨_, attr, hr.withMode h, rfl⟩

end Requests

end Query

open Query in
/-- **How the modes of one request relate.**  To ask for a term beside some context and beside each
one finds the same spans.  To ask for it with every two contexts finds the spans on which it stands
with two different ones in some order; each of them begins or ends with a span that the other modes
find.  With one context the last two modes write the same text. -/
theorem context_modes_relate {limits : Distance.Limits} (hmin : 0 ≤ limits.minimum)
    (ceilings : Limits) (r : Semantic) {any each every : Value}
    (hany : Mode.ofValue? any = some .semanticAny)
    (heach : Mode.ofValue? each = some .semanticPhrase)
    (hevery : Mode.ofValue? every = some .semanticAll) :
    (((∃ q, { r with mode := any }.compile limits ceilings = .ok q) ↔
        ∃ q, { r with mode := each }.compile limits ceilings = .ok q) ∧
      ((∃ q, { r with mode := each }.compile limits ceilings = .ok q) ↔
        ∃ q, { r with mode := every }.compile limits ceilings = .ok q)) ∧
    ∀ q1 q2 q3, { r with mode := any }.compile limits ceilings = .ok q1 →
      { r with mode := each }.compile limits ceilings = .ok q2 →
      { r with mode := every }.compile limits ceilings = .ok q3 →
      (∀ ts i j, q1.MatchesSpan verbatim ts i j ↔ q2.MatchesSpan verbatim ts i j) ∧
      (2 ≤ q3.contextTerms.length → ∀ ts i j, q3.MatchesSpan verbatim ts i j ↔
        AmongTwo q3.attr (clean r.central) q3.contextTerms q3.distance ts i j) ∧
      (∀ ts i j, q3.MatchesSpan verbatim ts i j →
        (∃ m, m ≤ j ∧ q2.MatchesSpan verbatim ts i m) ∨
          ∃ m, i ≤ m ∧ q2.MatchesSpan verbatim ts m j) ∧
      (q3.contextTerms.length = 1 → q3.text = q2.text ∧ q3.subqueries = q2.subqueries) := by
  refine ⟨⟨Semantic.exists_compile_iff hany heach, Semantic.exists_compile_iff heach hevery⟩, ?_⟩
  intro q1 q2 q3 h1 h2 h3
  obtain ⟨attr, hr1, rfl⟩ := (Semantic.compile_mode_iff hany).1 h1
  obtain ⟨attr2, hr2, rfl⟩ := (Semantic.compile_mode_iff heach).1 h2
  obtain ⟨attr3, hr3, rfl⟩ := (Semantic.compile_mode_iff hevery).1 h3
  obtain rfl : attr = attr2 := Option.some.inj (hr1.attr_eq.symm.trans hr2.attr_eq)
  obtain rfl : attr = attr3 := Option.some.inj (hr1.attr_eq.symm.trans hr3.attr_eq)
  refine ⟨?_, ?_, ?_, ?_⟩
  · intro ts i j
    exact (Semantic.matchesSpan_any hmin hr1).trans (Semantic.matchesSpan_phrase hmin hr2).symm
  · intro hlen ts i j
    exact Semantic.matchesSpan_all (r := { r with mode := every }) hmin hr3 hlen
  · intro ts i j hmatch
    by_cases hlen : 2 ≤ (Term.contextTerms r.contexts).length
    · have hamong := (Semantic.matchesSpan_all hmin hr3 hlen).1 hmatch
      rcases hamong.beside with ⟨m, hm, hbeside⟩ | ⟨m, hm, hbeside⟩
      · exact .inl ⟨m, hm, (Semantic.matchesSpan_phrase hmin hr2).2 hbeside⟩
      · exact .inr ⟨m, hm, (Semantic.matchesSpan_phrase hmin hr2).2 hbeside⟩
    · rw [Semantic.compiled_all_eq (by omega)] at hmatch
      exact .inl ⟨j, Nat.le_refl j, hmatch⟩
  · intro hlen
    have hone : (Term.contextTerms r.contexts).length = 1 := hlen
    rw [Semantic.compiled_all_eq (by omega)]
    exact ⟨rfl, rfl⟩

open Query in
/-- A term between two contexts is found with both of them, and beside the first of them. -/
theorem term_between_contexts_matches :
    let limits : Distance.Limits := {}
    let among : Semantic := { central := .text "ratio", contexts := .text "fides, spes, caritas" }
    let text : List Token := ["fides", "et", "ratio", "spes"].map fun w _ => w
    (∃ q, { among with mode := .text "all" }.compile limits {} = .ok q ∧
      q.MatchesSpan verbatim text 0 3) ∧
    ∃ q, { among with mode := .text "phrase" }.compile limits {} = .ok q ∧
      ((∃ m, m ≤ 3 ∧ q.MatchesSpan verbatim text 0 m) ∨
        ∃ m, 0 ≤ m ∧ q.MatchesSpan verbatim text m 3) := by
  intro limits among text
  have hmin : (0 : Int) ≤ limits.minimum := by decide
  have hany : Mode.ofValue? (.text "any") = some .semanticAny := by decide +kernel
  have heach : Mode.ofValue? (.text "phrase") = some .semanticPhrase := by decide +kernel
  have hevery : Mode.ofValue? (.text "all") = some .semanticAll := by decide +kernel
  obtain ⟨⟨hboth, hboth'⟩, hrelate⟩ := context_modes_relate hmin {} among hany heach hevery
  have hcontexts : Term.contextTerms among.contexts = ["fides", "spes", "caritas"] := by
    decide +kernel
  have h3 : { among with mode := .text "all" }.compile limits {} =
      .ok (among.compiled limits .semanticAll .lemmaForm) :=
    (Semantic.compile_mode_iff hevery).2 ⟨.lemmaForm, ⟨by decide +kernel, by decide +kernel, hevery,
      rfl, by rw [hcontexts]; decide, by rw [hcontexts]; decide⟩, rfl⟩
  obtain ⟨q2, h2⟩ := hboth'.2 ⟨_, h3⟩
  obtain ⟨q1, h1⟩ := hboth.2 ⟨_, h2⟩
  obtain ⟨-, hamong, hbeside, -⟩ := hrelate _ _ _ h1 h2 h3
  have hmatch : (among.compiled limits .semanticAll .lemmaForm).MatchesSpan verbatim text 0 3 := by
    refine (hamong (by decide +kernel) text 0 3).2 ⟨"fides", by decide +kernel, "spes",
      by decide +kernel, by decide, "fides", "ratio", "spes", ?_, 2, ⟨⟨_, rfl, rfl⟩, ⟨by decide,
      by decide +kernel, fun _ _ _ _ _ => trivial⟩, ⟨_, rfl, rfl⟩⟩, ⟨⟨_, rfl, rfl⟩, ⟨by decide,
      by decide +kernel, fun _ _ _ _ _ => trivial⟩, ⟨_, rfl, rfl⟩⟩⟩
    rw [show clean among.central = "ratio" by decide +kernel]
    exact .swap _ _ _
  exact ⟨⟨_, h3, hmatch⟩, q2, h2, hbeside text 0 3 hmatch⟩

end Concordance
