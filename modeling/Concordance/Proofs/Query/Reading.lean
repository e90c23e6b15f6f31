import Concordance.Proofs.Query.Expression

/-!
# The text of a compiled query has one reading, and it is the intended one

Whatever was typed, the text of a compiled query belongs to the grammar and says one expression
only: no character of a term and none of a pattern is taken for syntax.

* `Query.Says` — the text of a query says an expression and no other one, whose sequences,
  attributes and bounds are those of the query.
* `IsPairing`, `IsContextSequence` — the sequences that a search for two terms, and one for a term
  among contexts, is meant to have.
* `SaysTerms`, `SaysSpellings`, `SaysContexts`, `Bundle.SaysSpellings` — the text of a query, or
  each text of a bundle, says what it was compiled for.
* `compiled_text_says_request` — so it is for every request.
-/

namespace Concordance

open Concordance.Cql Concordance.Term Concordance.Pattern

namespace Cql

/-- The tests of an item, those of excluded tokens among them. -/
def Item.tests : Item → List Test
  | .token test => [test]
  | .gap excluded _ => excluded
  | .group tests => tests

end Cql

/-- The text of a query says the expression and no other one, and the sequences, attributes and
bounds of the expression are those of the query. -/
structure Query.Says (q : Query) (e : Expression) : Prop where
  read_eq : Expression.read q.text = some e
  isQuery : IsQuery q.text.toList e
  unique : ∀ e', IsQuery q.text.toList e' → e' = e
  subqueries : List.Forall₂ (fun text s => IsSequence text.toList s) q.subqueries e
  attrs : ∀ s ∈ e, ∀ i ∈ s, ∀ t ∈ i.tests, t.attr = q.attr
  bounds : ∀ s ∈ e, ∀ ts n, Item.gap ts n ∈ s → n = q.distance

/-- Each text of a bundle says one token, whose value has the patterns of the strategy as its
alternatives. -/
def Bundle.SaysSpellings (b : Bundle) : Prop :=
  List.Forall₂ (fun query found => query.1 = found.1 ∧
    ∃ v, alternatives v = found.2 ∧ Expression.read query.2 = some [[.token ⟨b.attr, v⟩]] ∧
      ∀ e, IsQuery query.2.toList e → e = [[.token ⟨b.attr, v⟩]]) b.queries b.patterns

namespace Query

/-- The sequences of two values: the one, a gap, and the other, also in reverse if `both`.  The gap
excludes exactly the two values, each one once, if `excluding`, and nothing otherwise. -/
def IsPairing (attr v w : String) (both excluding : Prop) (bound : Int) (e : Expression) : Prop :=
  ∃ ts : List Test, ts.Nodup ∧ (∀ t, t ∈ ts ↔ excluding ∧ (t = ⟨attr, v⟩ ∨ t = ⟨attr, w⟩)) ∧
    ∀ s, s ∈ e ↔ s = [.token ⟨attr, v⟩, .gap ts bound, .token ⟨attr, w⟩] ∨
      both ∧ s = [.token ⟨attr, w⟩, .gap ts bound, .token ⟨attr, v⟩]

/-- The sequences of a test among contexts, with free gaps: beside one context, beside a choice of
them, or with two different ones in any order. -/
def IsContextSequence (mode : Mode) (c : Test) (contexts : List Test) (bound : Int)
    (s : Cql.Sequence) : Prop :=
  match mode, contexts with
  | .semanticAll, _ :: _ :: _ =>
    ∃ x ∈ contexts, ∃ y ∈ contexts, x ≠ y ∧ ∃ t u v, [t, u, v].Perm [c, x, y] ∧
      s = [.token t, .gap [] bound, .token u, .gap [] bound, .token v]
  | .semanticAll, _ | .semanticPhrase, _ =>
    ∃ x ∈ contexts, s = [.token c, .gap [] bound, .token x] ∨
      s = [.token x, .gap [] bound, .token c]
  | _, _ =>
    s = [.token c, .gap [] bound, .group contexts] ∨
      s = [.group contexts, .gap [] bound, .token c]

/-- The text says the two terms of the query beside each other. -/
def SaysTerms (q : Query) (excluding : Prop) : Prop :=
  ∃ e, q.Says e ∧ ∃ v w, q.terms = [v, w] ∧ IsTerm v ∧ IsTerm w ∧
    IsPairing q.attr v w (q.bidirectional = true) excluding q.distance e

/-- The text says two values beside each other, whose alternatives are the patterns of the two
terms; no token between them passes for either. -/
def SaysSpellings (q : Query) : Prop :=
  ∃ e, q.Says e ∧ ∃ v w, q.patterns = [alternatives v, alternatives w] ∧
    IsPairing q.attr v w (q.bidirectional = true) True q.distance e

/-- The text says the central term among the contexts, in the way of the mode. -/
def SaysContexts (q : Query) : Prop :=
  ∃ e, q.Says e ∧ ∃ c, q.terms = [c] ∧ (∀ t ∈ c :: q.contextTerms, IsTerm t) ∧
    ∀ s, s ∈ e ↔
      IsContextSequence q.mode ⟨q.attr, c⟩ (q.contextTerms.map (Test.mk q.attr)) q.distance s

/-! ## From the expression to its reading -/

/-- A test alone is a query. -/
theorem expression_plain_token {t : Test} (h : t.Plain) : Expression.Plain [[.token t]] :=
  ⟨List.cons_ne_nil _ _, fun s hs => by
    rw [List.mem_singleton] at hs
    subst hs
    exact ⟨List.cons_ne_nil _ _, by simpa using h⟩⟩

theorem render_token (t : Test) : Expression.render [[.token t]] = t.render := rfl

/-- A query says the expression that its texts are written from, without repeats. -/
theorem Writes.toSays {q : Query} {e : Expression} (h : q.Writes e) (he : e.Plain)
    (hattrs : ∀ s ∈ e, ∀ i ∈ s, ∀ t ∈ i.tests, t.attr = q.attr)
    (hbounds : ∀ s ∈ e, ∀ ts n, Item.gap ts n ∈ s → n = q.distance) : q.Says (firstSeen e) := by
  obtain ⟨hread, hsub⟩ := h.read_text he
  have hquery := read_eq_some_iff.1 hread
  refine ⟨hread, hquery, fun e' he' => isQuery_unique he' hquery, ?_,
    fun s hs => hattrs s (mem_firstSeen.1 hs), fun s hs => hbounds s (mem_firstSeen.1 hs)⟩
  rw [← hsub, List.forall₂_map_left_iff, List.forall₂_same]
  exact fun s hs => isSequence_render (he.2 s (mem_firstSeen.1 hs))

/-- The searches for two values: what they say, from the values and the excluded ones. -/
theorem Writes.says_pairing {q : Query} {v w : String} {excluded : List String} {both : Bool}
    {excluding : Prop}
    (h : q.Writes (pairing ⟨q.attr, v⟩ ⟨q.attr, w⟩
      (.excludingGap q.attr excluded q.distance) both))
    (he : Expression.Plain (pairing ⟨q.attr, v⟩ ⟨q.attr, w⟩
      (.excludingGap q.attr excluded q.distance) both))
    (hnodup : excluded.Nodup) (hmem : ∀ u, u ∈ excluded ↔ excluding ∧ (u = v ∨ u = w)) :
    ∃ e, q.Says e ∧ IsPairing q.attr v w (both = true) excluding q.distance e := by
  refine ⟨_, h.toSays he ?_ ?_, excluded.map (Test.mk q.attr),
    hnodup.map fun a b hab => (Test.mk.inj hab).2, fun t => ?_, fun s => ?_⟩
  · intro s hs i hi t ht
    have hi' : i = .token ⟨q.attr, v⟩ ∨ i = .token ⟨q.attr, w⟩ ∨
        i = .excludingGap q.attr excluded q.distance := by
      rcases mem_pairing.1 hs with rfl | ⟨-, rfl⟩ <;> simp at hi <;> tauto
    rcases hi' with rfl | rfl | rfl
    · simp only [Item.tests, List.mem_singleton] at ht
      rw [ht]
    · simp only [Item.tests, List.mem_singleton] at ht
      rw [ht]
    · obtain ⟨u, -, rfl⟩ := List.mem_map.1 ht
      rfl
  · intro s hs ts n hn
    rcases mem_pairing.1 hs with rfl | ⟨-, rfl⟩ <;> simp [Item.excludingGap] at hn <;> exact hn.2
  · constructor
    · intro ht
      obtain ⟨u, hu, rfl⟩ := List.mem_map.1 ht
      obtain ⟨hexc, hu⟩ := (hmem u).1 hu
      exact ⟨hexc, hu.imp (congrArg _) (congrArg _)⟩
    · rintro ⟨hexc, rfl | rfl⟩
      · exact List.mem_map_of_mem ((hmem v).2 ⟨hexc, .inl rfl⟩)
      · exact List.mem_map_of_mem ((hmem w).2 ⟨hexc, .inr rfl⟩)
  · rw [mem_firstSeen, mem_pairing]
    rfl

/-! ## Each kind of request -/

section Requests

variable {limits : Distance.Limits} {ceilings : Limits} {q : Query}

theorem Proximity.saysTerms (hmin : 0 ≤ limits.minimum) {r : Proximity}
    (h : r.compile limits = .ok q) : q.SaysTerms (r.excludeRepeats.truthy = true) := by
  obtain ⟨h1, h2, attr, -, rfl⟩ := Proximity.compile_eq_ok_iff.1 h
  obtain ⟨e, hsays, hpairing⟩ := (r.writes limits attr).says_pairing
    (Proximity.expression_plain hmin h1 h2 attr) r.nodup_excluded fun _ => Proximity.mem_excluded
  exact ⟨e, hsays, _, _, rfl, isTerm_clean h1, isTerm_clean h2, hpairing⟩

theorem Variation.saysSpellings (hmin : 0 ≤ limits.minimum) {r : Variation}
    (h : r.compile (.ofOrthography medieval) limits ceilings = .ok (.ok q)) :
    q.SaysSpellings := by
  obtain ⟨attr, strategy, patterns1, patterns2, hr, rfl⟩ := Variation.compile_eq_ok_iff.1 h
  obtain ⟨e, hsays, hpairing⟩ :=
    (r.writes limits attr strategy _ _ patterns1 patterns2).says_pairing
      (Variation.expression_plain hmin hr) (nodup_firstSeen _) fun _ => mem_firstSeen_pair
  refine ⟨e, hsays, _, _, ?_, hpairing⟩
  obtain rfl := Except.ok.inj hr.patterns1_eq
  obtain rfl := Except.ok.inj hr.patterns2_eq
  rw [alternatives_patterns (isTerm_clean hr.term1), alternatives_patterns (isTerm_clean hr.term2)]
  rfl

theorem mem_sequencesOf {mode : Mode} {c : Test} {contexts : List Test} (hnodup : contexts.Nodup)
    {bound : Int} {s : Cql.Sequence} :
    s ∈ sequencesOf mode c contexts (.anyGap bound) ↔
      IsContextSequence mode c contexts bound s := by
  cases mode with
  | semanticPhrase => exact mem_nearEach
  | semanticAll =>
    match contexts, hnodup with
    | [], _ => exact mem_nearEach
    | [x], _ => exact mem_nearEach
    | x :: y :: rest, hnodup => exact mem_nearPairs (by simp) hnodup
  | proximity | proximityWithVariation | semanticAny => exact mem_nearAny

/-- What the sequences of a context search may be made of. -/
inductive IsContextItem (c : Test) (contexts : List Test) (bound : Int) : Item → Prop where
  | gap : IsContextItem c contexts bound (.gap [] bound)
  | group : IsContextItem c contexts bound (.group contexts)
  | token {t : Test} (ht : t ∈ c :: contexts) : IsContextItem c contexts bound (.token t)

section ContextItems

variable {c : Test} {contexts : List Test} {bound : Int} {s : Cql.Sequence}

theorem IsContextItem.of_pair {i j : Item} (hi : IsContextItem c contexts bound i)
    (hj : IsContextItem c contexts bound j)
    (h : s = [i, .gap [] bound, j] ∨ s = [j, .gap [] bound, i]) :
    ∀ k ∈ s, IsContextItem c contexts bound k := by
  rcases h with rfl | rfl
  · simp only [List.forall_mem_cons]
    exact ⟨hi, .gap, hj, List.forall_mem_nil _⟩
  · simp only [List.forall_mem_cons]
    exact ⟨hj, .gap, hi, List.forall_mem_nil _⟩

theorem IsContextItem.of_triple {x y t u v : Test} (hx : x ∈ contexts) (hy : y ∈ contexts)
    (hperm : [t, u, v].Perm [c, x, y])
    (h : s = [.token t, .gap [] bound, .token u, .gap [] bound, .token v]) :
    ∀ k ∈ s, IsContextItem c contexts bound k := by
  have hmem : ∀ w ∈ [t, u, v], w ∈ c :: contexts := by
    intro w hw
    have hw' := hperm.subset hw
    simp only [List.mem_cons, List.not_mem_nil, or_false] at hw'
    rcases hw' with rfl | rfl | rfl
    · exact List.mem_cons_self ..
    · exact List.mem_cons_of_mem _ hx
    · exact List.mem_cons_of_mem _ hy
  simp only [List.forall_mem_cons] at hmem
  subst h
  simp only [List.forall_mem_cons]
  exact ⟨.token hmem.1, .gap, .token hmem.2.1, .gap, .token hmem.2.2.1, List.forall_mem_nil _⟩

theorem IsContextSequence.isContextItem {mode : Mode}
    (h : IsContextSequence mode c contexts bound s) :
    ∀ i ∈ s, IsContextItem c contexts bound i := by
  have hc : IsContextItem c contexts bound (.token c) := .token (List.mem_cons_self ..)
  have heach : (∃ x ∈ contexts, s = [.token c, .gap [] bound, .token x] ∨
      s = [.token x, .gap [] bound, .token c]) → ∀ i ∈ s, IsContextItem c contexts bound i := by
    rintro ⟨x, hx, h⟩
    exact hc.of_pair (.token (List.mem_cons_of_mem _ hx)) h
  cases mode with
  | semanticPhrase => exact heach h
  | semanticAll =>
    match contexts, h with
    | [], h => exact heach h
    | [x], h => exact heach h
    | x :: y :: rest, ⟨a, ha, b, hb, _, t, u, v, hperm, hs⟩ =>
      exact IsContextItem.of_triple ha hb hperm hs
  | proximity | proximityWithVariation | semanticAny => exact hc.of_pair .group h

end ContextItems

theorem Semantic.saysContexts (hmin : 0 ≤ limits.minimum) {r : Semantic}
    (h : r.compile limits ceilings = .ok q) : q.SaysContexts := by
  obtain ⟨mode, attr, hr, rfl⟩ := Semantic.compile_eq_ok_iff.1 h
  have hc := isTerm_clean hr.central
  have hmem : ∀ s, s ∈ r.expression limits mode attr ↔ IsContextSequence mode _ _ _ s :=
    fun s => mem_sequencesOf
      ((nodup_contextTerms _).map fun a b hab => (Test.mk.inj hab).2)
  refine ⟨_, (r.writes limits mode attr).toSays (Semantic.expression_plain hmin hr) ?_ ?_, _, rfl,
    ?_, fun s => mem_firstSeen.trans (hmem s)⟩
  · intro s hs i hi t ht
    cases ((hmem s).1 hs).isContextItem i hi with
    | gap => cases ht
    | group =>
      obtain ⟨u, -, rfl⟩ := List.mem_map.1 ht
      rfl
    | token hx =>
      obtain rfl := List.mem_singleton.1 ht
      rcases List.mem_cons.1 hx with rfl | hx
      · rfl
      · obtain ⟨u, -, rfl⟩ := List.mem_map.1 hx
        rfl
  · intro s hs ts n hn
    cases ((hmem s).1 hs).isContextItem _ hn
    rfl
  · intro t ht
    rcases List.mem_cons.1 ht with rfl | ht
    · exact hc
    · exact isTerm_of_mem_contextTerms ht

theorem BundleRequest.saysSpellings {r : BundleRequest} {b : Bundle}
    (h : r.compile (.ofOrthography medieval) ceilings = .ok (.ok b)) : b.SaysSpellings := by
  obtain ⟨hword, -, attr, found, -, hfound, rfl⟩ := BundleRequest.compile_eq_ok_iff.1 h
  have hv := isTerm_clean hword
  show List.Forall₂ _ (found.map _) found
  rw [List.forall₂_map_left_iff, List.forall₂_same]
  intro e he
  rw [patternsUnder_ofOrthography] at hfound
  obtain rfl := Except.ok.inj hfound
  obtain ⟨t, -, rfl⟩ := List.mem_map.1 he
  have htest := plain_of_patterns attr t r.suffixed.truthy hv
  have hread := read_render (expression_plain_token htest)
  rw [render_token] at hread
  refine ⟨rfl, _, alternatives_patterns hv, hread, fun e' he' => ?_⟩
  exact isQuery_unique he' (read_eq_some_iff.1 hread)

end Requests

end Query

open Query in
/-- **A compiled text has one reading, and it is the one the request asks for.**  Whatever the
values of a request are, the text that it compiles to belongs to the grammar, can be read in no
other way, and says the terms, patterns or contexts of the request with its attribute and
distance. -/
theorem compiled_text_says_request {limits : Distance.Limits} (hmin : 0 ≤ limits.minimum)
    (ceilings : Limits) :
    (∀ (r : Proximity) (q : Query), r.compile limits = .ok q →
      q.SaysTerms (r.excludeRepeats.truthy = true)) ∧
    (∀ (r : Variation) (q : Query),
      r.compile (.ofOrthography medieval) limits ceilings = .ok (.ok q) → q.SaysSpellings) ∧
    (∀ (r : Semantic) (q : Query), r.compile limits ceilings = .ok q → q.SaysContexts) ∧
    (∀ (r : BundleRequest) (b : Bundle),
      r.compile (.ofOrthography medieval) ceilings = .ok (.ok b) → b.SaysSpellings) :=
  ⟨fun _ _ h => Proximity.saysTerms hmin h, fun _ _ h => Variation.saysSpellings hmin h,
    fun _ _ h => Semantic.saysContexts hmin h, fun _ _ h => BundleRequest.saysSpellings h⟩

open Query in
/-- Terms typed with quotes, brackets and bars say no more than their letters. -/
theorem typed_syntax_says_letters :
    let typed : Value := .text "ra\"] | [tio"
    let limits : Distance.Limits := {}
    let near : Proximity := { term1 := typed, term2 := typed, excludeRepeats := .bool true }
    let spelled : Variation := { term1 := typed, term2 := typed, strategy := .text "all" }
    let among : Semantic := { central := typed, contexts := .text "fides, (spes)" }
    let bundled : BundleRequest := { word := typed }
    (∃ q, near.compile limits = .ok q ∧ q.terms = ["ra  tio", "ra  tio"] ∧
      q.SaysTerms (near.excludeRepeats.truthy = true)) ∧
    (∃ q, spelled.compile (.ofOrthography medieval) limits {} = .ok (.ok q) ∧ q.SaysSpellings) ∧
    (∃ q, among.compile limits {} = .ok q ∧ q.contextTerms = ["fides", "spes"] ∧
      q.SaysContexts) ∧
    ∃ b, bundled.compile (.ofOrthography medieval) {} = .ok (.ok b) ∧ b.SaysSpellings := by
  intro typed limits near spelled among bundled
  have hmin : (0 : Int) ≤ limits.minimum := by decide
  obtain ⟨hnear, hspelled, hamong, hbundled⟩ := compiled_text_says_request hmin {}
  have hword : Term.clean typed ≠ "" := by decide +kernel
  refine ⟨?_, ?_, ?_, ?_⟩
  · have h : near.compile limits = .ok (near.compiled limits .lemmaForm) :=
      Proximity.compile_eq_ok_iff.2 ⟨hword, hword, _, rfl, rfl⟩
    exact ⟨_, h, by decide +kernel, hnear _ _ h⟩
  · have h : ∃ q, spelled.compile (.ofOrthography medieval) limits {} = .ok (.ok q) :=
      ⟨_, Variation.compile_eq_ok_iff.2 ⟨.wordForm, .combined, _, _,
        ⟨hword, hword, rfl, by decide +kernel, by decide +kernel, rfl, rfl,
          patterns_ne_nil hword, patterns_ne_nil hword⟩, rfl⟩⟩
    obtain ⟨q, h⟩ := h
    exact ⟨q, h, hspelled _ _ h⟩
  · have h : among.compile limits {} = .ok (among.compiled limits .semanticAny .lemmaForm) :=
      Semantic.compile_eq_ok_iff.2 ⟨_, _,
        ⟨hword, by decide +kernel, rfl, rfl, by decide +kernel, by decide +kernel⟩, rfl⟩
    exact ⟨_, h, by decide +kernel, hamong _ _ h⟩
  · have h : ∃ b, bundled.compile (.ofOrthography medieval) {} = .ok (.ok b) :=
      ⟨_, BundleRequest.compile_eq_ok_iff.2 ⟨hword, by decide +kernel, .wordForm, _, rfl,
        patternsUnder_ofOrthography _ _ _ _, rfl⟩⟩
    obtain ⟨b, h⟩ := h
    exact ⟨b, h, hbundled _ _ h⟩

end Concordance
