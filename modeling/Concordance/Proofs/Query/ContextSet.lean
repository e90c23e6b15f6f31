import Concordance.Proofs.Query.Expression
import Concordance.Proofs.Query.Refused
import Concordance.Proofs.Query.Reproduction
import Concordance.Proofs.Text.Pieces

/-!
# Contexts as a set

A semantic search depends on its contexts only as a set of terms: the order in which they are named,
how often, and what is around their letters make no difference but for the order in which the
sequences of the query, or the tests of a group, come.

* `contextTerms_list`, `contextTerms_contextTerms` — a list of contexts is the texts in it between
  commas, and the terms of contexts are their own terms.
* `namesContexts_of_ne_nil` — what has a context term names contexts.
* `mem_nearEach_iff_of_perm`, `mem_nearPairs_iff_of_perm` — contexts in another order.
* `Reordered`, `SameUpToOrder` — queries, or results, that differ at most in that order.
* `contexts_matter_as_set` — contexts with the same terms give results that differ at most so.
-/

namespace Concordance

open Concordance.Cql Concordance.Term Concordance.Text

/-! ## The terms of contexts -/

namespace Term

theorem commaPieces_intercalate {ss : List String} (hne : ss ≠ []) :
    commaPieces (",".intercalate ss) = ss.flatMap commaPieces := by
  have hmap : ss.map String.toList ≠ [] := mt List.map_eq_nil_iff.1 hne
  unfold commaPieces
  rw [String.toList_intercalate, show ",".toList = [','] from rfl, pieces_joined ',' hmap,
    List.flatMap_map, List.map_flatMap]

/-- The contexts of a list are those of its texts with commas between them. -/
theorem contextTerms_list (items : List Value) :
    contextTerms (.list items) =
      contextTerms (.text (",".intercalate (items.filterMap Value.text?))) := by
  have hlist : contextPieces (.list items) =
      (items.filterMap Value.text?).flatMap commaPieces := rfl
  have htext (s : String) : contextPieces (.text s) = commaPieces s := rfl
  unfold contextTerms
  rw [hlist, htext]
  by_cases hnone : items.filterMap Value.text? = []
  · rw [hnone]
    rfl
  · rw [commaPieces_intercalate hnone]

/-- The terms of contexts are their own terms. -/
theorem contextTerms_contextTerms (v : Value) :
    contextTerms (.list ((contextTerms v).map .text)) = contextTerms v :=
  contextTerms_texts (fun _ => isTerm_of_mem_contextTerms) (nodup_contextTerms v)

/-- A text with a term in it is not blank. -/
theorem trim_ne_empty_of_cleanText {s : String} {piece : List Char} (hpiece : piece <:+: s.toList)
    (hne : cleanText (String.ofList piece) ≠ "") : trim s ≠ "" := by
  intro hblank
  have hall : ∀ c ∈ s.toList, isBlank c = true := by
    rw [← trimChars_eq_nil_iff, ← toList_trim, hblank, String.toList_empty]
  have hclean : cleanChars piece = [] :=
    trimChars_eq_nil_iff.2 fun c hc => hall c (hpiece.subset (List.mem_filter.1 hc).1)
  refine hne ?_
  rw [cleanText, String.toList_ofList, hclean]

theorem namesContexts_of_ne_nil {v : Value} (h : contextTerms v ≠ []) : namesContexts v = true := by
  obtain ⟨t, ht⟩ := List.exists_mem_of_ne_nil _ h
  simp only [contextTerms, mem_firstSeen, List.mem_filter, List.mem_map, decide_eq_true_eq] at ht
  obtain ⟨⟨piece, hpiece, rfl⟩, hne⟩ := ht
  unfold contextPieces at hpiece
  unfold namesContexts
  split at hpiece
  · rename_i s hs
    obtain ⟨cs, hcs, rfl⟩ := List.mem_map.1 hpiece
    rw [hs]
    simpa using trim_ne_empty_of_cleanText (infix_of_mem_pieces hcs) hne
  · rename_i items _
    cases items with
    | nil => cases hpiece
    | cons item rest => rfl
  · rename_i entries _
    cases entries with
    | nil => cases hpiece
    | cons entry rest => rfl
  · cases hpiece

end Term

namespace Query

/-! ## Sequences with the contexts in another order -/

section Sequences

variable {c : Test} {gap : Item} {contexts contexts' : List Test}

theorem mem_nearEach_iff_of_perm (hperm : contexts.Perm contexts') (s : Cql.Sequence) :
    s ∈ nearEach c contexts gap ↔ s ∈ nearEach c contexts' gap := by
  simp only [mem_nearEach, hperm.mem_iff]

/-- Every two contexts come with the centre in all orders, whichever of the two is named first. -/
theorem mem_nearPairs_iff_of_perm (hperm : contexts.Perm contexts') (hnodup : contexts.Nodup)
    (s : Cql.Sequence) : s ∈ nearPairs c contexts gap ↔ s ∈ nearPairs c contexts' gap := by
  have hlen := hperm.length_eq
  by_cases hfew : contexts.length < 2
  · rw [nearPairs_single hfew, nearPairs_single (hlen ▸ hfew)]
    exact mem_nearEach_iff_of_perm hperm s
  · rw [mem_nearPairs (by omega) hnodup, mem_nearPairs (by omega) (hperm.nodup_iff.1 hnodup)]
    simp only [hperm.mem_iff]

/-- Expressions of the same sequences have the same texts. -/
theorem subqueriesOf_perm {e e' : Expression} (h : ∀ s, s ∈ e ↔ s ∈ e') :
    (subqueriesOf e).Perm (subqueriesOf e') := by
  refine (List.perm_ext_iff_of_nodup (nodup_firstSeen _) (nodup_firstSeen _)).2 fun t => ?_
  simp only [mem_firstSeen, List.mem_map, h]

/-- The two sequences of a group differ in how their texts begin. -/
theorem subqueriesOf_nearAny (c : Test) (contexts : List Test) (gap : Item) :
    subqueriesOf (nearAny c contexts gap) = (nearAny c contexts gap).map Sequence.render := by
  refine firstSeen_eq_self ?_
  have hterm : (Sequence.render [.token c, gap, .group contexts]).toList.head? = some '[' := by
    simp [Sequence.render, Cql.sequence, Item.render, Test.toList_render, String.toList_intercalate]
  have hgroup : (Sequence.render [.group contexts, gap, .token c]).toList.head? = some '(' := by
    simp [Sequence.render, Cql.sequence, Item.render, String.toList_intercalate]
  have hne : Sequence.render [.token c, gap, .group contexts] ≠
      Sequence.render [.group contexts, gap, .token c] := by
    intro heq
    rw [heq, hgroup] at hterm
    exact absurd hterm (by decide)
  simpa [nearAny] using hne

end Sequences

/-! ## Results that differ in an order -/

/-- Two queries that differ at most in the order in which their contexts come. -/
structure Reordered (q q' : Query) : Prop where
  mode_eq : q.mode = q'.mode
  terms_eq : q.terms = q'.terms
  distance_eq : q.distance = q'.distance
  attr_eq : q.attr = q'.attr
  contextTerms_perm : q.contextTerms.Perm q'.contextTerms
  length_eq : q.subqueries.length = q'.subqueries.length
  /-- Beside each context, or with every two of them, the sequences are the same. -/
  subqueries_perm : q.mode = .semanticPhrase ∨ q.mode = .semanticAll →
    q.subqueries.Perm q'.subqueries
  /-- Beside a choice of contexts, the choices are between the same tests. -/
  groups_perm : q.mode = .semanticAny → ∃ central gap contexts contexts',
    contexts.Perm contexts' ∧
    q.subqueries = (nearAny central contexts gap).map Sequence.render ∧
    q'.subqueries = (nearAny central contexts' gap).map Sequence.render

/-- Two results are the same refusal, or queries that differ at most in the order of contexts. -/
inductive SameUpToOrder : Except Refusal Query → Except Refusal Query → Prop
  | refused (e : Refusal) : SameUpToOrder (.error e) (.error e)
  | compiled {q q' : Query} (h : q.Reordered q') : SameUpToOrder (.ok q) (.ok q')

theorem SameUpToOrder.exists_of_ok {q : Query} {result : Except Refusal Query}
    (h : SameUpToOrder (.ok q) result) : ∃ q', result = .ok q' ∧ q.Reordered q' := by
  cases h with
  | compiled h => exact ⟨_, rfl, h⟩

section Requests

variable {limits : Distance.Limits} {ceilings : Limits} {r : Semantic} {v w : Value}

/-- Contexts have no term twice, so the same terms are the same ones in some order. -/
theorem contextTerms_perm (hsame : ∀ t, t ∈ Term.contextTerms v ↔ t ∈ Term.contextTerms w) :
    (Term.contextTerms v).Perm (Term.contextTerms w) :=
  (List.perm_ext_iff_of_nodup (nodup_contextTerms v) (nodup_contextTerms w)).2 hsame

theorem Semantic.Refused.withContexts {e : Refusal}
    (h : { r with contexts := v }.Refused ceilings e) (hv : Term.contextTerms v ≠ [])
    (hperm : (Term.contextTerms v).Perm (Term.contextTerms w)) :
    { r with contexts := w }.Refused ceilings e := by
  have hw : Term.contextTerms w ≠ [] := fun hnil => hv (List.perm_nil.1 (hnil ▸ hperm))
  have hnames := namesContexts_of_ne_nil hw
  cases h with
  | missingContext hmissing =>
    rcases hmissing with hcentral | hnone
    · exact .missingContext (.inl hcentral)
    · rw [namesContexts_of_ne_nil hv] at hnone
      cases hnone
  | unknownMode hcentral _ hmode => exact .unknownMode hcentral hnames hmode
  | unknownAttribute hcentral _ hmode hattr => exact .unknownAttribute hcentral hnames hmode hattr
  | noContextTerms _ _ _ _ hnil => exact absurd hnil hv
  | tooManyContexts hcentral _ hmode hattr _ hmany =>
    exact .tooManyContexts hcentral hnames hmode hattr hw (hperm.length_eq ▸ hmany)

theorem Semantic.Accepted.withContexts {mode : Mode} {attr : Attribute}
    (h : { r with contexts := v }.Accepted ceilings mode attr)
    (hperm : (Term.contextTerms v).Perm (Term.contextTerms w)) :
    { r with contexts := w }.Accepted ceilings mode attr := by
  have hw : Term.contextTerms w ≠ [] :=
    fun hnil => h.contexts_ne_nil (List.perm_nil.1 (hnil ▸ hperm))
  exact ⟨h.central, namesContexts_of_ne_nil hw, h.mode_eq, h.attr_eq, hw,
    hperm.length_eq ▸ h.notTooMany⟩

/-- The queries of contexts with the same terms. -/
theorem Semantic.reordered {mode : Mode} (hmode : mode.isSemantic = true) (attr : Attribute)
    (hperm : (Term.contextTerms v).Perm (Term.contextTerms w)) :
    ({ r with contexts := v }.compiled limits mode attr).Reordered
      ({ r with contexts := w }.compiled limits mode attr) := by
  have hmk : Function.Injective (Test.mk attr.name) := fun a b hab => (Test.mk.inj hab).2
  have htests := hperm.map (Test.mk attr.name)
  have hnodup := (nodup_contextTerms v).map hmk
  cases mode with
  | proximity | proximityWithVariation => cases hmode
  | semanticAny =>
    have hv := subqueriesOf_nearAny ⟨attr.name, clean r.central⟩
      ((Term.contextTerms v).map (Test.mk attr.name))
      (Item.anyGap (limits.read limits.semantic r.distance))
    have hw := subqueriesOf_nearAny ⟨attr.name, clean r.central⟩
      ((Term.contextTerms w).map (Test.mk attr.name))
      (Item.anyGap (limits.read limits.semantic r.distance))
    refine ⟨rfl, rfl, rfl, rfl, hperm, ?_, ?_, ?_⟩
    · exact (congrArg List.length hv).trans (congrArg List.length hw).symm
    · rintro (h | h) <;> cases h
    · intro _
      exact ⟨_, _, _, _, htests, hv, hw⟩
  | semanticPhrase =>
    have hsame : (subqueriesOf
        ({ r with contexts := v }.expression limits .semanticPhrase attr)).Perm
        (subqueriesOf ({ r with contexts := w }.expression limits .semanticPhrase attr)) :=
      subqueriesOf_perm (mem_nearEach_iff_of_perm htests)
    exact ⟨rfl, rfl, rfl, rfl, hperm, hsame.length_eq, fun _ => hsame, fun h => by cases h⟩
  | semanticAll =>
    have hsame : (subqueriesOf ({ r with contexts := v }.expression limits .semanticAll attr)).Perm
        (subqueriesOf ({ r with contexts := w }.expression limits .semanticAll attr)) :=
      subqueriesOf_perm (mem_nearPairs_iff_of_perm htests hnodup)
    exact ⟨rfl, rfl, rfl, rfl, hperm, hsame.length_eq, fun _ => hsame, fun h => by cases h⟩

/-- Contexts with the same terms give the same, up to the order of the contexts. -/
theorem Semantic.sameUpToOrder (limits : Distance.Limits) (ceilings : Limits) (r : Semantic)
    (hv : Term.contextTerms v ≠ [])
    (hsame : ∀ t, t ∈ Term.contextTerms v ↔ t ∈ Term.contextTerms w) :
    SameUpToOrder ({ r with contexts := v }.compile limits ceilings)
      ({ r with contexts := w }.compile limits ceilings) := by
  have hperm := contextTerms_perm hsame
  cases h : { r with contexts := v }.compile limits ceilings with
  | error e =>
    have hrefused := (Semantic.compile_eq_error_iff.1 h).withContexts hv hperm
    rw [Semantic.compile_eq_error_iff.2 hrefused]
    exact .refused e
  | ok q =>
    obtain ⟨mode, attr, hr, rfl⟩ := Semantic.compile_eq_ok_iff.1 h
    rw [Semantic.compile_eq_ok_iff.2 ⟨mode, attr, hr.withContexts hperm, rfl⟩]
    exact .compiled (Semantic.reordered (Mode.isSemantic_of_ofValue? hr.mode_eq) attr hperm)

end Requests

end Query

open Query in
/-- **The contexts of a semantic search matter only as a set of terms.**  Contexts with the same
terms, at least one, are refused alike or give queries that differ at most in the order of the
contexts.  A list of contexts has the terms of its texts with commas between them, and the terms of
contexts are their own terms. -/
theorem contexts_matter_as_set :
    (∀ (limits : Distance.Limits) (ceilings : Limits) (r : Semantic) (v w : Value),
      contextTerms v ≠ [] → (∀ t, t ∈ contextTerms v ↔ t ∈ contextTerms w) →
      SameUpToOrder ({ r with contexts := v }.compile limits ceilings)
        ({ r with contexts := w }.compile limits ceilings)) ∧
    (∀ items : List Value, contextTerms (.list items) =
      contextTerms (.text (",".intercalate (items.filterMap Value.text?)))) ∧
    ∀ v : Value, contextTerms (.list ((contextTerms v).map .text)) = contextTerms v := by
  refine ⟨?_, contextTerms_list, contextTerms_contextTerms⟩
  intro limits ceilings r v w hv hsame
  exact Semantic.sameUpToOrder limits ceilings r hv hsame

open Query in
/-- Three contexts with a repeat, and a list of the same two with a number and a mark among them:
both give a query, and the queries differ at most in the order of the contexts. -/
theorem repeated_contexts_search_alike :
    let typed : Value := .text "fides, spes ,fides"
    let listed : Value := .list [.text "spes,", .int 7, .text " fi@des "]
    let every : Semantic := { central := .text "fides", contexts := typed, mode := .text "all" }
    contextTerms typed ≠ contextTerms listed ∧
    ∃ q q', every.compile {} {} = .ok q ∧
      { every with contexts := listed }.compile {} {} = .ok q' ∧ q.Reordered q' := by
  intro typed listed every
  have htyped : contextTerms typed = ["fides", "spes"] := by decide +kernel
  have hlisted : contextTerms listed = ["spes", "fides"] := by decide +kernel
  have hne : contextTerms typed ≠ [] := by rw [htyped]; decide
  have hsame : ∀ t, t ∈ contextTerms typed ↔ t ∈ contextTerms listed := by
    intro t
    rw [htyped, hlisted]
    exact (List.Perm.swap "spes" "fides" []).mem_iff
  have h : every.compile {} {} = .ok (every.compiled {} .semanticAll .lemmaForm) :=
    Semantic.compile_eq_ok_iff.2 ⟨_, _, ⟨by decide +kernel, by decide +kernel, by decide +kernel,
      rfl, hne, by decide +kernel⟩, rfl⟩
  have halike := contexts_matter_as_set.1 {} {} every typed listed hne hsame
  refine ⟨by rw [htyped, hlisted]; decide, ?_⟩
  rw [show { every with contexts := typed } = every from rfl, h] at halike
  obtain ⟨q', h', hreordered⟩ := halike.exists_of_ok
  exact ⟨_, q', h, h', hreordered⟩

end Concordance
