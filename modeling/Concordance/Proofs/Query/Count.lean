import Concordance.Proofs.Query.ContextSet
import Mathlib.Algebra.BigOperators.Group.List.Lemmas
import Mathlib.Algebra.GroupWithZero.Nat

/-!
# How many sequences a semantic search has

The sequences of a semantic search have different texts, whatever the distance: a text shows the
terms of its tests between quotes, and no term holds a quote.  So the texts are counted by counting
the sequences, of which some coincide where the central term is itself a context.

* `row`, `render_row_inj` — tests with a gap between any two; different ones have different texts.
* `length_nearEach`, `length_nearPairs` — how many sequences there are.
* `Rows.length_subqueriesOf` — there are as many texts as sequences.
* `Query.joined`, `Query.Counted` — terms in a row, and the account of a query's sequences.
* `semantic_subqueries_are_counted` — it holds of whatever a semantic search is compiled to.
-/

namespace Concordance

open Concordance.Cql Concordance.Term

namespace Query

/-! ## Texts of tests in a row -/

/-- Tests that follow each other with a gap between any two. -/
def row (gap : Item) (t : Test) (ts : List Test) : Cql.Sequence :=
  .token t :: ts.flatMap fun u => [gap, .token u]

theorem toList_render_row (gap : Item) (t : Test) (ts : List Test) :
    (Sequence.render (row gap t ts)).toList =
      t.render.toList ++
        ts.flatMap fun u => ' ' :: gap.render.toList ++ ' ' :: u.render.toList := by
  rw [Sequence.render, Cql.sequence, String.toList_intercalate]
  induction ts generalizing t with
  | nil => simp [row, Item.render]
  | cons u ts ih =>
    have hrow : row gap t (u :: ts) = .token t :: gap :: row gap u ts := rfl
    have hcons : row gap u ts = .token u :: ts.flatMap fun v => [gap, .token v] := rfl
    have hrest := ih u
    rw [hrow, hcons]
    rw [hcons] at hrest
    simp only [List.map_cons, List.intercalate_cons_cons] at hrest ⊢
    rw [hrest]
    simp [Item.render]

/-- A test of the attribute whose value holds no quote. -/
def Legible (attr : String) (t : Test) : Prop :=
  t.attr = attr ∧ '"' ∉ t.value.toList

/-- A text without quotes in front of a quote is found again, and so is what follows. -/
theorem append_quote_inj {v v' rest rest' : List Char} (hv : '"' ∉ v) (hv' : '"' ∉ v')
    (h : v ++ '"' :: rest = v' ++ '"' :: rest') : v = v' ∧ rest = rest' := by
  have hspan {w : List Char} (hw : '"' ∉ w) (more : List Char) :
      (w ++ '"' :: more).takeWhile (· ≠ '"') = w ∧
        (w ++ '"' :: more).dropWhile (· ≠ '"') = '"' :: more := by
    refine span_append _ (fun c hc => ?_) fun c more' hcons => ?_
    · simpa using fun hquote : c = '"' => hw (hquote ▸ hc)
    · obtain rfl : '"' = c := (List.cons.inj hcons).1
      rfl
  obtain ⟨htake, hdrop⟩ := hspan hv rest
  obtain ⟨htake', hdrop'⟩ := hspan hv' rest'
  rw [h] at htake hdrop
  exact ⟨htake.symm.trans htake', (List.cons.inj (hdrop.symm.trans hdrop')).2⟩

/-- A test is found again in front of anything, and so is what follows. -/
theorem render_append_inj {attr : String} {t t' : Test} (ht : Legible attr t)
    (ht' : Legible attr t') {rest rest' : List Char}
    (h : t.render.toList ++ rest = t'.render.toList ++ rest') : t = t' ∧ rest = rest' := by
  obtain ⟨a, v⟩ := t
  obtain ⟨a', v'⟩ := t'
  obtain ⟨rfl, hv⟩ := ht
  obtain ⟨rfl, hv'⟩ := ht'
  simp only [Test.toList_render, List.append_assoc, List.append_cancel_left_eq] at h
  obtain ⟨hvalue, hrest⟩ := append_quote_inj hv hv' h
  obtain rfl : v = v' := String.toList_inj.1 hvalue
  exact ⟨rfl, List.append_cancel_left hrest⟩

/-- Rows of tests with different values have different texts. -/
theorem render_row_inj {attr : String} {gap : Item} {t t' : Test} {ts ts' : List Test}
    (hts : ∀ u ∈ t :: ts, Legible attr u) (hts' : ∀ u ∈ t' :: ts', Legible attr u)
    (h : Sequence.render (row gap t ts) = Sequence.render (row gap t' ts')) :
    t = t' ∧ ts = ts' := by
  have hchars := congrArg String.toList h
  rw [toList_render_row, toList_render_row] at hchars
  clear h
  induction ts generalizing t t' ts' with
  | nil =>
    obtain ⟨htest, hrest⟩ := render_append_inj (hts t (by simp)) (hts' t' (by simp)) hchars
    cases ts' with
    | nil => exact ⟨htest, rfl⟩
    | cons u' ts' => simp at hrest
  | cons u ts ih =>
    obtain ⟨htest, hrest⟩ := render_append_inj (hts t (by simp)) (hts' t' (by simp)) hchars
    cases ts' with
    | nil => simp at hrest
    | cons u' ts' =>
      rw [List.forall_mem_cons] at hts hts'
      simp only [List.flatMap_cons, List.cons_append, List.append_assoc, List.cons.injEq, true_and,
        List.append_cancel_left_eq] at hrest
      obtain ⟨hnext, hmore⟩ := ih hts.2 hts'.2 hrest
      exact ⟨htest, by rw [hnext, hmore]⟩

/-! ## The sequences of the modes -/

/-- Lists that share no item are counted one by one. -/
theorem length_firstSeen_flatMap {α β : Type} [DecidableEq α] {f : β → List α} {xs : List β}
    (h : xs.Pairwise fun x y => ∀ s ∈ f y, s ∉ f x) :
    (firstSeen (xs.flatMap f)).length = (xs.map fun x => (firstSeen (f x)).length).sum := by
  induction xs with
  | nil => rfl
  | cons x rest ih =>
    obtain ⟨hx, hrest⟩ := List.pairwise_cons.1 h
    have hother : ∀ s ∈ rest.flatMap f, s ∉ f x := by
      intro s hs
      obtain ⟨y, hy, hsy⟩ := List.mem_flatMap.1 hs
      exact hx y hy s hsy
    rw [List.flatMap_cons, length_firstSeen_append_of_disjoint hother, ih hrest, List.map_cons,
      List.sum_cons]

variable {c : Test} {gap : Item} {xs : List Test}

/-- A context beside the centre has two sequences, or one if it is the centre itself. -/
theorem length_pairing (c x : Test) (gap : Item) :
    (firstSeen (pairing c x gap true)).length = if x = c then 1 else 2 := by
  by_cases h : x = c
  · simp [pairing, firstSeen, h]
  · simp [pairing, firstSeen, h]

theorem pairing_disjoint {x y : Test} (hne : x ≠ y) :
    ∀ s ∈ pairing c y gap true, s ∉ pairing c x gap true := by
  intro s hy hx
  rcases mem_pairing.1 hy with rfl | ⟨-, rfl⟩ <;> rcases mem_pairing.1 hx with h | ⟨-, h⟩
  · simp [Ne.symm hne] at h
  · simp only [List.cons.injEq, Item.token.injEq, true_and, and_true] at h
    exact hne (h.1.symm.trans h.2.symm)
  · simp only [List.cons.injEq, Item.token.injEq, true_and, and_true] at h
    exact hne (h.2.symm.trans h.1.symm)
  · simp [Ne.symm hne] at h

/-- Each context has two sequences, but the centre among them has one. -/
theorem length_nearEach (hxs : xs.Nodup) :
    (firstSeen (nearEach c xs gap)).length + xs.count c = 2 * xs.length := by
  have hparts : xs.Pairwise fun x y => ∀ s ∈ pairing c y gap true, s ∉ pairing c x gap true :=
    hxs.imp fun hne => pairing_disjoint hne
  rw [nearEach, length_firstSeen_flatMap hparts]
  simp only [length_pairing]
  clear hparts hxs
  induction xs with
  | nil => rfl
  | cons x rest ih =>
    rw [List.map_cons, List.sum_cons, List.count_cons, List.length_cons]
    by_cases h : x = c
    · simp only [h, if_true, beq_self_eq_true]
      omega
    · simp only [h, if_false, beq_iff_eq]
      omega

/-- Two contexts with the centre have a sequence for each order of the three. -/
theorem length_orderings {x y : Test} (hne : x ≠ y) :
    (firstSeen (orderings c x y gap)).length = if c = x ∨ c = y then 3 else 6 := by
  by_cases hx : c = x
  · simp [orderings, triple, firstSeen, hx, hne, Ne.symm hne]
  by_cases hy : c = y
  · simp [orderings, triple, firstSeen, hy, hne, Ne.symm hne]
  · simp [orderings, triple, firstSeen, hx, hy, Ne.symm hx, Ne.symm hy, hne, Ne.symm hne]

theorem orderings_disjoint {p q : Test × Test} (h : ¬[p.1, p.2].Perm [q.1, q.2]) :
    ∀ s ∈ orderings c q.1 q.2 gap, s ∉ orderings c p.1 p.2 gap := by
  intro s hq hp
  obtain ⟨t, u, v, hperm, rfl⟩ := mem_orderings.1 hq
  obtain ⟨t', u', v', hperm', heq⟩ := mem_orderings.1 hp
  simp only [triple, List.cons.injEq, Item.token.injEq, true_and, and_true] at heq
  obtain ⟨rfl, rfl, rfl⟩ := heq
  exact h (hperm'.symm.trans hperm).cons_inv

/-- Different pairs of a list without repeats have different items. -/
theorem pairwise_pairs (hxs : xs.Nodup) :
    (pairs xs).Pairwise fun p q => ¬[p.1, p.2].Perm [q.1, q.2] := by
  induction xs with
  | nil => exact .nil
  | cons x rest ih =>
    obtain ⟨hx, hrest⟩ := List.nodup_cons.1 hxs
    rw [pairs, List.pairwise_append, List.pairwise_map]
    refine ⟨hrest.imp fun hne hperm => ?_, ih hrest, ?_⟩
    · have hsame := List.perm_singleton.1 hperm.cons_inv
      exact hne (List.cons.inj hsame).1
    · rintro p hp ⟨y, z⟩ hq hperm
      obtain ⟨w, -, rfl⟩ := List.mem_map.1 hp
      have hmem : x ∈ [y, z] := hperm.subset List.mem_cons_self
      have hyz := mem_pairs_of_mem hq
      simp only [List.mem_cons, List.not_mem_nil, or_false] at hmem
      rcases hmem with rfl | rfl
      · exact hx hyz.1
      · exact hx hyz.2

/-- The sequences of the pairs of one context with others. -/
theorem sum_orderings_with (c x : Test) (rest : List Test) :
    (rest.map fun y => if c = x ∨ c = y then 3 else 6).sum +
      (if c = x then 3 * rest.length else 3 * rest.count c) = 6 * rest.length := by
  induction rest with
  | nil => simp
  | cons y rest ih =>
    rw [List.map_cons, List.sum_cons, List.count_cons, List.length_cons]
    by_cases hx : c = x
    · simp only [hx, true_or, if_true] at ih ⊢
      omega
    by_cases hy : y = c
    · simp only [hx, hy, or_true, if_true, if_false, beq_self_eq_true] at ih ⊢
      omega
    · simp only [hx, Ne.symm hy, false_or, if_false, beq_iff_eq, hy] at ih ⊢
      omega

/-- The sequences of all pairs, by the number of contexts and of those that are the centre. -/
theorem sum_orderings (hxs : xs.Nodup) :
    ((pairs xs).map fun p => if c = p.1 ∨ c = p.2 then 3 else 6).sum + 3 * xs.length +
      3 * (xs.length * xs.count c) = 3 * (xs.length * xs.length) + 3 * xs.count c := by
  induction xs with
  | nil => rfl
  | cons x rest ih =>
    obtain ⟨hx, hrest⟩ := List.nodup_cons.1 hxs
    have hwith := sum_orderings_with c x rest
    have hrec := ih hrest
    rw [pairs, List.map_append, List.sum_append, List.map_map, List.count_cons, List.length_cons]
    simp only [Function.comp_def, Nat.add_mul, Nat.mul_add, Nat.mul_one, Nat.one_mul] at hwith ⊢
    by_cases h : x = c
    · -- the other contexts are not the centre then
      rw [h] at hx
      rw [List.count_eq_zero.2 hx] at hrec ⊢
      simp only [h, if_true, true_or, beq_self_eq_true] at hwith hrec ⊢
      omega
    · simp only [Ne.symm h, if_false, false_or, beq_iff_eq, h] at hwith ⊢
      omega

theorem length_nearPairs (hlen : 2 ≤ xs.length) (hxs : xs.Nodup) :
    (firstSeen (nearPairs c xs gap)).length + 3 * xs.length + 3 * (xs.length * xs.count c) =
      3 * (xs.length * xs.length) + 3 * xs.count c := by
  have hparts : (pairs xs).Pairwise fun p q =>
      ∀ s ∈ orderings c q.1 q.2 gap, s ∉ orderings c p.1 p.2 gap :=
    (pairwise_pairs hxs).imp fun h => orderings_disjoint h
  have hsizes : (pairs xs).map (fun p => (firstSeen (orderings c p.1 p.2 gap)).length) =
      (pairs xs).map fun p => if c = p.1 ∨ c = p.2 then 3 else 6 :=
    List.map_congr_left fun p hp => length_orderings (ne_of_mem_pairs hxs hp)
  rw [nearPairs, if_neg (by omega), length_firstSeen_flatMap hparts, hsizes]
  exact sum_orderings hxs

/-! ## Their texts -/

/-- Every sequence is a row of tests that are found again in its text. -/
def Rows (attr : String) (gap : Item) (e : Expression) : Prop :=
  ∀ s ∈ e, ∃ t ts, (∀ u ∈ t :: ts, Legible attr u) ∧ s = row gap t ts

/-- Different rows have different texts, so that there are as many texts as sequences. -/
theorem Rows.length_subqueriesOf {attr : String} {e : Expression} (h : Rows attr gap e) :
    (subqueriesOf e).length = (firstSeen e).length := by
  have hinj : ∀ s ∈ e, ∀ s' ∈ e, Sequence.render s = Sequence.render s' → s = s' := by
    intro s hs s' hs' heq
    obtain ⟨t, ts, hts, rfl⟩ := h s hs
    obtain ⟨t', ts', hts', rfl⟩ := h s' hs'
    obtain ⟨rfl, rfl⟩ := render_row_inj hts hts' heq
    rfl
  rw [subqueriesOf, firstSeen_map hinj, List.length_map]

theorem rows_nearEach {attr : String} (hc : Legible attr c) (hxs : ∀ x ∈ xs, Legible attr x) :
    Rows attr gap (nearEach c xs gap) := by
  intro s hs
  obtain ⟨x, hx, rfl | rfl⟩ := mem_nearEach.1 hs
  · exact ⟨c, [x], by simp [hc, hxs x hx], rfl⟩
  · exact ⟨x, [c], by simp [hc, hxs x hx], rfl⟩

theorem rows_nearPairs {attr : String} (hc : Legible attr c) (hxs : ∀ x ∈ xs, Legible attr x)
    (hlen : 2 ≤ xs.length) (hnodup : xs.Nodup) : Rows attr gap (nearPairs c xs gap) := by
  intro s hs
  obtain ⟨x, hx, y, hy, -, t, u, v, hperm, rfl⟩ := (mem_nearPairs hlen hnodup).1 hs
  refine ⟨t, [u, v], fun w hw => ?_, rfl⟩
  have hw' : w ∈ [c, x, y] := hperm.subset hw
  simp only [List.mem_cons, List.not_mem_nil, or_false] at hw'
  rcases hw' with rfl | rfl | rfl
  · exact hc
  · exact hxs _ hx
  · exact hxs _ hy

/-- Terms in a row, with the gap of the query between any two, as a text. -/
def joined (q : Query) (terms : List String) : String :=
  Cql.sequence <| (terms.map fun t => Test.render ⟨q.attr, t⟩).intersperse
    (Item.anyGap q.distance).render

/-- The sequences of a semantic query are different, and there is a known number of them. -/
structure Counted (q : Query) (central : String) : Prop where
  nodup : q.subqueries.Nodup
  any : q.mode = .semanticAny → q.subqueries.length = 2
  /-- Two for each context, but one for the central term among them. -/
  phrase : q.mode = .semanticPhrase ∨ q.mode = .semanticAll ∧ q.contextTerms.length = 1 →
    q.subqueries.length =
      if central ∈ q.contextTerms then 2 * q.contextTerms.length - 1
      else 2 * q.contextTerms.length
  /-- Six for every two contexts, but three if the central term is one of the two. -/
  all : q.mode = .semanticAll → 2 ≤ q.contextTerms.length →
    q.subqueries.length =
      if central ∈ q.contextTerms then 3 * (q.contextTerms.length - 1) ^ 2
      else 3 * q.contextTerms.length * (q.contextTerms.length - 1)
  /-- The central term and every two different contexts, in any order. -/
  orders : q.mode = .semanticAll → 2 ≤ q.contextTerms.length → ∀ text,
    text ∈ q.subqueries ↔ ∃ x ∈ q.contextTerms, ∃ y ∈ q.contextTerms, x ≠ y ∧
      ∃ t u v, [t, u, v].Perm [central, x, y] ∧ text = q.joined [t, u, v]

section Requests

variable {limits : Distance.Limits} {ceilings : Limits} {r : Semantic} {mode : Mode}
  {attr : Attribute}

/-- The tests of the contexts. -/
def Semantic.tests (r : Semantic) (attr : Attribute) : List Test :=
  (Term.contextTerms r.contexts).map (Test.mk attr.name)

theorem Semantic.length_tests : (r.tests attr).length = (Term.contextTerms r.contexts).length :=
  List.length_map _

theorem Semantic.nodup_tests : (r.tests attr).Nodup :=
  (nodup_contextTerms r.contexts).map fun _ _ h => (Test.mk.inj h).2

theorem Semantic.count_tests (term : String) :
    (r.tests attr).count ⟨attr.name, term⟩ =
      if term ∈ Term.contextTerms r.contexts then 1 else 0 := by
  have hmem : ⟨attr.name, term⟩ ∈ r.tests attr ↔ term ∈ Term.contextTerms r.contexts := by
    simp [Semantic.tests]
  rw [List.Nodup.count nodup_tests]
  simp only [hmem]

theorem legible_of_isTerm {term : String} (h : IsTerm term) :
    Legible attr.name ⟨attr.name, term⟩ :=
  ⟨rfl, notMem_of_isTerm h (by decide)⟩

theorem Semantic.legible_tests : ∀ x ∈ r.tests attr, Legible attr.name x := by
  intro x hx
  obtain ⟨term, hterm, rfl⟩ := List.mem_map.1 hx
  exact legible_of_isTerm (isTerm_of_mem_contextTerms hterm)

theorem Semantic.length_phrase (hcentral : Term.clean r.central ≠ "") :
    (subqueriesOf (r.expression limits .semanticPhrase attr)).length =
      if Term.clean r.central ∈ Term.contextTerms r.contexts
      then 2 * (Term.contextTerms r.contexts).length - 1
      else 2 * (Term.contextTerms r.contexts).length := by
  have hrows : Rows attr.name _ (r.expression limits .semanticPhrase attr) :=
    rows_nearEach (legible_of_isTerm (isTerm_clean hcentral)) r.legible_tests
  have hlen : (firstSeen (r.expression limits .semanticPhrase attr)).length +
      (r.tests attr).count ⟨attr.name, Term.clean r.central⟩ = 2 * (r.tests attr).length :=
    length_nearEach r.nodup_tests
  rw [r.count_tests, r.length_tests] at hlen
  rw [hrows.length_subqueriesOf]
  split_ifs at hlen ⊢ <;> omega

/-- A single context has the sequences of its pairing in both modes. -/
theorem Semantic.expression_all_single (hsingle : (Term.contextTerms r.contexts).length = 1) :
    r.expression limits .semanticAll attr = r.expression limits .semanticPhrase attr :=
  nearPairs_single (by rw [List.length_map, hsingle]; exact Nat.lt_succ_self 1)

theorem Semantic.length_all (hcentral : Term.clean r.central ≠ "")
    (hmany : 2 ≤ (Term.contextTerms r.contexts).length) :
    (subqueriesOf (r.expression limits .semanticAll attr)).length =
      if Term.clean r.central ∈ Term.contextTerms r.contexts
      then 3 * ((Term.contextTerms r.contexts).length - 1) ^ 2
      else 3 * (Term.contextTerms r.contexts).length *
        ((Term.contextTerms r.contexts).length - 1) := by
  have hlen2 : 2 ≤ (r.tests attr).length := r.length_tests ▸ hmany
  have hrows : Rows attr.name _ (r.expression limits .semanticAll attr) :=
    rows_nearPairs (legible_of_isTerm (isTerm_clean hcentral)) r.legible_tests hlen2
      r.nodup_tests
  have hlen : (firstSeen (r.expression limits .semanticAll attr)).length +
      3 * (r.tests attr).length +
        3 * ((r.tests attr).length * (r.tests attr).count ⟨attr.name, Term.clean r.central⟩) =
      3 * ((r.tests attr).length * (r.tests attr).length) +
        3 * (r.tests attr).count ⟨attr.name, Term.clean r.central⟩ :=
    length_nearPairs hlen2 r.nodup_tests
  rw [r.count_tests, r.length_tests] at hlen
  rw [hrows.length_subqueriesOf]
  obtain ⟨j, hj⟩ : ∃ j, (Term.contextTerms r.contexts).length = j + 1 :=
    ⟨_, (Nat.sub_add_cancel (Nat.le_of_succ_le hmany)).symm⟩
  rw [hj] at hlen ⊢
  rw [Nat.add_sub_cancel]
  split_ifs at hlen ⊢
  · rw [Nat.pow_two]
    simp only [Nat.add_mul, Nat.mul_add] at hlen
    omega
  · simp only [Nat.add_mul, Nat.mul_add, Nat.mul_assoc] at hlen ⊢
    omega

/-- The terms in a row are the tests in a row. -/
theorem Semantic.joined_compiled (t u v : String) :
    (r.compiled limits mode attr).joined [t, u, v] =
      Sequence.render (triple ⟨attr.name, t⟩ ⟨attr.name, u⟩ ⟨attr.name, v⟩
        (Item.anyGap (limits.read limits.semantic r.distance))) := rfl

theorem Semantic.mem_all (hmany : 2 ≤ (Term.contextTerms r.contexts).length) (text : String) :
    text ∈ subqueriesOf (r.expression limits .semanticAll attr) ↔
      ∃ x ∈ Term.contextTerms r.contexts, ∃ y ∈ Term.contextTerms r.contexts, x ≠ y ∧
        ∃ t u v, [t, u, v].Perm [Term.clean r.central, x, y] ∧
          text = (r.compiled limits .semanticAll attr).joined [t, u, v] := by
  have hlen2 : 2 ≤ (r.tests attr).length := r.length_tests ▸ hmany
  have hseq (s : Cql.Sequence) : s ∈ r.expression limits .semanticAll attr ↔
      ∃ x ∈ r.tests attr, ∃ y ∈ r.tests attr, x ≠ y ∧
        ∃ t u v, [t, u, v].Perm [⟨attr.name, Term.clean r.central⟩, x, y] ∧
          s = triple t u v (Item.anyGap (limits.read limits.semantic r.distance)) :=
    mem_nearPairs hlen2 r.nodup_tests
  simp only [subqueriesOf, mem_firstSeen, List.mem_map]
  constructor
  · rintro ⟨s, hs, rfl⟩
    obtain ⟨x', hx', y', hy', hne, t, u, v, hperm, rfl⟩ := (hseq s).1 hs
    obtain ⟨x, hx, rfl⟩ := List.mem_map.1 hx'
    obtain ⟨y, hy, rfl⟩ := List.mem_map.1 hy'
    have hattr : ∀ w ∈ [t, u, v], (⟨attr.name, w.value⟩ : Test) = w := by
      intro w hw
      have hw' := hperm.subset hw
      simp only [List.mem_cons, List.not_mem_nil, or_false] at hw'
      rcases hw' with rfl | rfl | rfl <;> rfl
    refine ⟨x, hx, y, hy, fun h => hne (h ▸ rfl), t.value, u.value, v.value,
      hperm.map Test.value, ?_⟩
    rw [joined_compiled, hattr t (by simp), hattr u (by simp), hattr v (by simp)]
  · rintro ⟨x, hx, y, hy, hne, t, u, v, hperm, rfl⟩
    refine ⟨_, (hseq _).2 ⟨_, List.mem_map_of_mem hx, _, List.mem_map_of_mem hy, ?_, _, _, _,
      hperm.map (Test.mk attr.name), rfl⟩, rfl⟩
    exact fun h => hne (Test.mk.inj h).2

/-- Whatever a semantic search is compiled to is counted. -/
theorem Semantic.Accepted.counted (h : r.Accepted ceilings mode attr) :
    (r.compiled limits mode attr).Counted (Term.clean r.central) where
  nodup := nodup_firstSeen _
  any := by
    rintro rfl
    exact congrArg List.length (subqueriesOf_nearAny _ _ _)
  phrase := by
    rintro (rfl | ⟨rfl, hsingle⟩)
    · exact length_phrase h.central
    · -- a single context has no other to stand with
      exact (congrArg (fun e => (subqueriesOf e).length) (expression_all_single hsingle)).trans
        (length_phrase h.central)
  all := by
    rintro rfl hmany
    exact length_all h.central hmany
  orders := by
    rintro rfl hmany
    exact mem_all hmany

end Requests

end Query

open Query in
/-- **The sequences of a semantic query are different and counted.**  Whatever the limits, a
compiled search has its sequences as different texts: two for a choice of contexts; two for each
context, but one for the central term among them; or, with two contexts or more, six for every two
contexts, but three if the central term is one of the two, and they are the central term and every
two different contexts in all orders. -/
theorem semantic_subqueries_are_counted (limits : Distance.Limits) (ceilings : Limits)
    (r : Semantic) (q : Query) (h : r.compile limits ceilings = .ok q) :
    q.mode.isSemantic = true ∧ q.terms = [clean r.central] ∧
      q.contextTerms = contextTerms r.contexts ∧ q.contextTerms ≠ [] ∧
      q.Counted (clean r.central) := by
  obtain ⟨mode, attr, hr, rfl⟩ := Semantic.compile_eq_ok_iff.1 h
  exact ⟨Mode.isSemantic_of_ofValue? hr.mode_eq, rfl, rfl, hr.contexts_ne_nil, hr.counted⟩

open Query in
/-- A central term among its three contexts: twelve sequences, not eighteen. -/
theorem central_context_is_counted_once :
    let among : Semantic :=
      { central := .text "fides", contexts := .text "fides, spes, lex", mode := .text "all" }
    ∃ q, among.compile {} {} = .ok q ∧ q.contextTerms = ["fides", "spes", "lex"] ∧
      q.subqueries.length = 12 := by
  intro among
  have hcontexts : Term.contextTerms among.contexts = ["fides", "spes", "lex"] := by decide +kernel
  have h : among.compile {} {} = .ok (among.compiled {} .semanticAll .lemmaForm) :=
    Semantic.compile_eq_ok_iff.2 ⟨_, _, ⟨by decide +kernel, by decide +kernel, by decide +kernel,
      rfl, by rw [hcontexts]; decide, by decide +kernel⟩, rfl⟩
  have hcentral : clean among.central = "fides" := by decide +kernel
  obtain ⟨-, -, hterms, -, hcounted⟩ := semantic_subqueries_are_counted {} {} among _ h
  have hcount := hcounted.all rfl (by rw [hterms, hcontexts]; decide)
  rw [hterms, hcontexts, hcentral] at hcount
  exact ⟨_, h, hterms.trans hcontexts, hcount⟩

end Concordance
