import Concordance.Proofs.Page.Showable
import Concordance.Proofs.Pattern.Filled
import Concordance.Service

/-!
# A page shows its queries and links each of them

Whatever was typed, the fences of a page stand around its queries, and the link below each fence
leads to the query in it.

* `sparse_preview`, `sparse_item` — the lines beside the queries hold no two neighbouring
  backquotes, so none of them is taken for a fence.
* `Presentable` — a query of which every part can stand on a page.
* `Presentable.queryLines_show`, `BundleRequest.bundleLines_show` — the lines of a query and of a
  bundle.
* `page_shows_and_links_queries` — so it is for the page of every compiled request.
-/

namespace Concordance

open Concordance.Term Concordance.Text Concordance.Pattern Concordance.Page

namespace Page

/-! ## Lines beside the queries -/

theorem tick_notMem_append {s t : String} (hs : tick ∉ s.toList) (ht : tick ∉ t.toList) :
    tick ∉ (s ++ t).toList := by
  simp [hs, ht]

theorem tick_notMem_intercalate {mark : String} (hmark : tick ∉ mark.toList) {parts : List String}
    (h : ∀ p ∈ parts, tick ∉ p.toList) : tick ∉ (mark.intercalate parts).toList := by
  rw [String.toList_intercalate]
  refine fun hmem => forall_mem_intercalate (P := fun c => c ≠ tick) ?_ (fun p hp => ?_) _ hmem rfl
  · exact fun c hc hct => hmark (hct ▸ hc)
  · obtain ⟨q, hq, rfl⟩ := List.mem_map.1 hp
    exact fun c hc hct => h q hq (hct ▸ hc)

theorem tick_notMem_intText (n : Int) : tick ∉ (Decimal.intText n).toList :=
  (showable_intText n).noTick

/-- A fact is as sparse behind its name as alone. -/
theorem sparse_item {name fact : String} (hname : tick ∉ name.toList) (hfact : Sparse fact.toList) :
    Sparse (item name fact).toList := by
  have hstart : tick ∉ ("- **" ++ name ++ "** ").toList :=
    tick_notMem_append (tick_notMem_append (by decide) hname) (by decide)
  rw [item, String.toList_append]
  exact hfact.prepend hstart

/-- The patterns of a line are not empty and hold no backquote. -/
def Quotable (patterns : List String) : Prop :=
  ∀ p ∈ patterns, p ≠ "" ∧ tick ∉ p.toList

/-- Quoted patterns with commas between them are sparse: each is closed in front of its comma. -/
theorem sparse_codes {patterns : List String} (h : Quotable patterns) :
    Sparse (", ".intercalate (patterns.map code)).toList := by
  rw [String.toList_intercalate]
  induction patterns with
  | nil => exact List.IsChain.nil
  | cons p rest ih =>
    obtain ⟨hp, hrest⟩ := List.forall_mem_cons.1 h
    have hcode := sparse_code hp.1 hp.2
    cases rest with
    | nil => simpa [List.intercalate_singleton] using hcode
    | cons q more =>
      simp only [List.map_cons] at ih ⊢
      rw [List.intercalate_cons_cons, List.append_assoc]
      refine hcode.append ((ih hrest).prepend (by decide)) fun d hd => ?_
      rw [show ", ".toList = [',', ' '] from rfl, List.cons_append, List.head?_cons,
        Option.mem_some_iff] at hd
      rw [← hd]
      decide

theorem sparse_preview {patterns : List String} (h : Quotable patterns) :
    Sparse (preview patterns).toList := by
  have hshown : Sparse (", ".intercalate ((patterns.take previewSize).map code)).toList :=
    sparse_codes fun p hp => h p (List.mem_of_mem_take hp)
  unfold preview
  dsimp only
  split
  · have hmore : tick ∉ (" … (+" ++ (number (patterns.length - previewSize) ++ " more)")).toList :=
      tick_notMem_append (by decide) (tick_notMem_append (tick_notMem_intText _) (by decide))
    rw [String.append_assoc, String.append_assoc, String.toList_append]
    refine hshown.append (sparse_of_notMem hmore) fun d hd hdt => ?_
    exact hmore (hdt ▸ List.mem_of_mem_head? hd)
  · exact hshown

/-! ## The page of a query -/

/-- A query of which every part can stand on a page. -/
structure Presentable (q : Query) : Prop where
  text : Showable q.text.toList
  terms : ∀ t ∈ q.terms, tick ∉ t.toList
  contextTerms : ∀ t ∈ q.contextTerms, tick ∉ t.toList
  attr_ne_empty : q.attr ≠ ""
  attr : tick ∉ q.attr.toList
  strategy : ∀ t ∈ q.strategy, tick ∉ t.toList
  patterns : ∀ ps ∈ q.patterns, Quotable ps

namespace Presentable

variable {q : Query}

theorem sparse_termLines (h : Presentable q) : ∀ l ∈ termLines q, Sparse l.toList := by
  unfold termLines
  split
  · refine List.forall_mem_singleton.2 (sparse_item (by decide) (sparse_of_notMem ?_))
    exact tick_notMem_intercalate (by decide) h.terms
  · have hcentral : tick ∉ (q.terms.headD "").toList := by
      cases hterms : q.terms with
      | nil => decide
      | cons t rest => exact h.terms t (hterms ▸ List.mem_cons_self ..)
    have hcontexts : tick ∉ (", ".intercalate q.contextTerms).toList :=
      tick_notMem_intercalate (by decide) h.contextTerms
    exact List.forall_mem_cons.2 ⟨sparse_item (by decide) (sparse_of_notMem hcentral),
      List.forall_mem_singleton.2 (sparse_item (by decide) (sparse_of_notMem hcontexts))⟩

theorem sparse_orderLines (q : Query) : ∀ l ∈ orderLines q, Sparse l.toList := by
  have hline : Sparse (item "Bidirectional:" (if q.bidirectional then "yes" else "no")).toList := by
    refine sparse_item (by decide) (sparse_of_notMem ?_)
    cases q.bidirectional <;> decide
  unfold orderLines
  split
  · exact List.forall_mem_singleton.2 hline
  · exact List.forall_mem_singleton.2 hline
  · exact List.forall_mem_nil _

theorem sparse_patternLines (h : Presentable q) : ∀ l ∈ patternLines q, Sparse l.toList := by
  unfold patternLines
  split
  · exact List.forall_mem_nil _
  · rename_i t ht
    refine List.forall_mem_cons.2 ⟨sparse_item (by decide) (sparse_of_notMem (h.strategy t ht)), ?_⟩
    intro l hl
    obtain ⟨⟨term, ps⟩, hmem, rfl⟩ := List.mem_map.1 hl
    have hcount : tick ∉ ("(" ++ number ps.length ++ " patterns): ").toList :=
      tick_notMem_append (tick_notMem_append (by decide) (tick_notMem_intText _)) (by decide)
    refine sparse_item (h.terms _ (List.of_mem_zip hmem).1) ?_
    rw [String.toList_append]
    exact (sparse_preview (h.patterns _ (List.of_mem_zip hmem).2)).prepend hcount

/-- The lines of a query show the query. -/
theorem queryLines_show (h : Presentable q) {base : String} (hbase : IsBase base) :
    LinesShow base [q.text] (split (queryLines base q)) := by
  have hhead : ∀ l ∈ ["### " ++ modeTitle q.mode, ""], Sparse l.toList := by
    have htitle : tick ∉ ("### " ++ modeTitle q.mode).toList := by
      cases q.mode <;> decide
    exact List.forall_mem_cons.2 ⟨sparse_of_notMem htitle,
      List.forall_mem_singleton.2 List.IsChain.nil⟩
  have hdistance : tick ∉ ("0–" ++ Decimal.intText q.distance ++ " tokens").toList :=
    tick_notMem_append (tick_notMem_append (by decide) (tick_notMem_intText _)) (by decide)
  have hcount : tick ∉ (number q.subqueries.length).toList := tick_notMem_intText _
  have htail : ∀ l ∈ [""] ++ termLines q ++
      [item "Distance:" ("0–" ++ Decimal.intText q.distance ++ " tokens"),
        item "Attribute:" (code q.attr)] ++
      orderLines q ++ [item "Sub-queries:" (number q.subqueries.length)] ++ patternLines q,
      Sparse l.toList := by
    simp only [List.forall_mem_append, List.forall_mem_cons, List.not_mem_nil, IsEmpty.forall_iff,
      implies_true, and_true]
    exact ⟨⟨⟨⟨⟨List.IsChain.nil, h.sparse_termLines⟩, sparse_item (by decide)
      (sparse_of_notMem hdistance), sparse_item (by decide) (sparse_code h.attr_ne_empty h.attr)⟩,
      sparse_orderLines q⟩, sparse_item (by decide) (sparse_of_notMem hcount)⟩,
      h.sparse_patternLines⟩
  have hshown := (linesShow_fenced hbase h.text (linesShow_nil htail)).prepend hhead
  simpa [queryLines, List.append_assoc] using hshown

end Presentable

theorem tick_notMem_of_free {cs : List Char} (h : ∀ c ∈ cs, isFree c = true) : tick ∉ cs :=
  (showable_of_free h).noTick

theorem tick_notMem_of_isTerm {v : String} (h : IsTerm v) : tick ∉ v.toList :=
  notMem_of_isTerm h (by decide +kernel)

theorem tick_notMem_attr (attr : Attribute) : tick ∉ attr.name.toList := by
  cases attr <;> decide

theorem attr_ne_empty (attr : Attribute) : attr.name ≠ "" := by
  cases attr <;> decide

theorem quotable_patterns {t : Strategy} {word : String} {suffixed : Bool} (h : IsTerm word) :
    Quotable (patterns medieval t word suffixed) := fun _ hp =>
  ⟨ne_empty_of_mem_patterns hp,
    tick_notMem_of_free fun c hc =>
      isFree_of_isPatternChar (isPatternChar_of_mem_patterns h hp c hc)⟩

end Page

namespace Query

variable {limits : Distance.Limits} {ceilings : Limits} {q : Query}

theorem Proximity.presentable {r : Proximity} (h : r.compile limits = .ok q) :
    Presentable q := by
  have htext := Proximity.showable h
  obtain ⟨h1, h2, attr, -, rfl⟩ := Proximity.compile_eq_ok_iff.1 h
  exact {
    text := htext
    terms := List.forall_mem_cons.2 ⟨tick_notMem_of_isTerm (isTerm_clean h1),
      List.forall_mem_singleton.2 (tick_notMem_of_isTerm (isTerm_clean h2))⟩
    contextTerms := List.forall_mem_nil _
    attr_ne_empty := attr_ne_empty attr
    attr := tick_notMem_attr attr
    strategy := fun _ ht => nomatch ht
    patterns := List.forall_mem_nil _ }

theorem Variation.presentable {r : Variation}
    (h : r.compile (.ofOrthography medieval) limits ceilings = .ok (.ok q)) :
    Presentable q := by
  have htext := Variation.showable h
  obtain ⟨attr, strategy, patterns1, patterns2, hr, rfl⟩ := Variation.compile_eq_ok_iff.1 h
  obtain rfl := Except.ok.inj hr.patterns1_eq
  obtain rfl := Except.ok.inj hr.patterns2_eq
  have h1 := isTerm_clean hr.term1
  have h2 := isTerm_clean hr.term2
  exact {
    text := htext
    terms := List.forall_mem_cons.2 ⟨tick_notMem_of_isTerm h1,
      List.forall_mem_singleton.2 (tick_notMem_of_isTerm h2)⟩
    contextTerms := List.forall_mem_nil _
    attr_ne_empty := attr_ne_empty attr
    attr := tick_notMem_attr attr
    strategy := fun t ht => by
      obtain rfl := Option.some.inj ht
      cases strategy <;> decide
    patterns := List.forall_mem_cons.2 ⟨quotable_patterns h1,
      List.forall_mem_singleton.2 (quotable_patterns h2)⟩ }

theorem Semantic.presentable {r : Semantic} (h : r.compile limits ceilings = .ok q) :
    Presentable q := by
  have htext := Semantic.showable h
  obtain ⟨mode, attr, hr, rfl⟩ := Semantic.compile_eq_ok_iff.1 h
  exact {
    text := htext
    terms := List.forall_mem_singleton.2 (tick_notMem_of_isTerm (isTerm_clean hr.central))
    contextTerms := fun _ ht => tick_notMem_of_isTerm (isTerm_of_mem_contextTerms ht)
    attr_ne_empty := attr_ne_empty attr
    attr := tick_notMem_attr attr
    strategy := fun _ ht => nomatch ht
    patterns := List.forall_mem_nil _ }

end Query

/-! ## The page of a bundle -/

namespace Page

theorem sparse_title (t : Strategy) :
    Sparse ("#### " ++ strategyTitle t ++ " (").toList := by
  unfold Sparse
  cases t <;> decide

end Page

namespace Query

/-- The patterns that a bundle has for a strategy. -/
def BundleRequest.found (r : BundleRequest) (t : Strategy) : List String :=
  Pattern.patterns medieval t (Term.clean r.word) r.suffixed.truthy

/-- The query that a bundle has for a strategy. -/
def BundleRequest.textOf (r : BundleRequest) (attr : Attribute) (t : Strategy) : String :=
  Cql.Test.render ⟨attr.name, Cql.alternation (r.found t)⟩

/-- The bundle of a word in its medieval spellings. -/
def BundleRequest.medievalBundle (r : BundleRequest) (attr : Attribute) : Bundle :=
  r.compiled attr (Strategy.named.map fun t => (t.name, r.found t))

variable {r : BundleRequest} (attr : Attribute)

theorem BundleRequest.queries_medievalBundle :
    (r.medievalBundle attr).queries = Strategy.named.map fun t => (t.name, r.textOf attr t) := by
  simp only [medievalBundle, compiled, List.map_map]
  rfl

theorem BundleRequest.strategyLines_medievalBundle (base : String) {t : Strategy}
    (ht : t ∈ Strategy.named) :
    strategyLines base (r.medievalBundle attr) t =
      ["", "#### " ++ strategyTitle t ++ " (" ++ number (r.found t).length ++ " patterns)", ""] ++
        fenced base (r.textOf attr t) := by
  have hpatterns : (r.medievalBundle attr).patterns.lookup t.name = some (r.found t) :=
    lookup_named _ ht
  rw [strategyLines, queries_medievalBundle, lookup_named _ ht, hpatterns]
  rfl

/-- The lines of some strategies show their queries in order. -/
theorem BundleRequest.strategyLines_show (hword : Term.clean r.word ≠ "") {base : String}
    (hbase : IsBase base) {ts : List Strategy} (hts : ∀ t ∈ ts, t ∈ Strategy.named) :
    LinesShow base (ts.map (r.textOf attr))
      (split (ts.flatMap (strategyLines base (r.medievalBundle attr)))) := by
  induction ts with
  | nil => exact linesShow_nil (List.forall_mem_nil _)
  | cons t rest ih =>
    obtain ⟨ht, hrest⟩ := List.forall_mem_cons.1 hts
    have htext : Showable (r.textOf attr t).toList :=
      (free_of_patterns attr t r.suffixed.truthy (isTerm_clean hword)).showable_render
    have hcount : tick ∉ (number (r.found t).length ++ " patterns)").toList :=
      tick_notMem_append (tick_notMem_intText _) (by decide)
    have htitle : Sparse ("#### " ++ strategyTitle t ++ " (" ++ number (r.found t).length ++
        " patterns)").toList := by
      rw [String.append_assoc, String.toList_append]
      exact (sparse_title t).append (sparse_of_notMem hcount) fun d hd hdt =>
        hcount (hdt ▸ List.mem_of_mem_head? hd)
    rw [List.flatMap_cons, strategyLines_medievalBundle attr base ht, List.append_assoc,
      List.map_cons]
    refine (linesShow_fenced hbase htext (ih hrest)).prepend ?_
    exact List.forall_mem_cons.2 ⟨List.IsChain.nil, List.forall_mem_cons.2 ⟨htitle,
      List.forall_mem_singleton.2 List.IsChain.nil⟩⟩

/-- The lines of a bundle show its queries. -/
theorem BundleRequest.bundleLines_show (hword : Term.clean r.word ≠ "") {base : String}
    (hbase : IsBase base) :
    LinesShow base (Strategy.named.map (r.textOf attr))
      (split (bundleLines base (r.medievalBundle attr))) := by
  have hname : tick ∉ ("### Variations for “" ++ Term.clean r.word ++ "”").toList :=
    tick_notMem_append (tick_notMem_append (by decide) (tick_notMem_of_isTerm (isTerm_clean hword)))
      (by decide)
  have hfacts : ∀ suffixed : Bool, Sparse ("Attribute " ++ code attr.name ++ ", " ++
      (if suffixed then "with endings `[A-z]*`" else "exact form") ++ ".").toList := by
    unfold Sparse
    cases attr <;> decide
  refine (strategyLines_show attr hword hbase fun _ ht => ht).prepend ?_
  exact List.forall_mem_cons.2 ⟨sparse_of_notMem hname, List.forall_mem_cons.2
    ⟨List.IsChain.nil, List.forall_mem_singleton.2 (hfacts r.suffixed.truthy)⟩⟩

end Query

/-! ## The page of a request -/

theorem Outcome.eq_of_ofQuery {e : Except Refusal Query} {q : Query}
    (h : Outcome.ofQuery e = .query q) : e = .ok q := by
  cases e with
  | error r => cases h
  | ok q' =>
    cases h
    rfl

theorem Outcome.ofQuery_ne_bundle (e : Except Refusal Query) (b : Bundle) :
    Outcome.ofQuery e ≠ .bundle b := by
  cases e <;> nofun

theorem Outcome.eq_of_ofBundle {e : Except Refusal Bundle} {b : Bundle}
    (h : Outcome.ofBundle e = .bundle b) : e = .ok b := by
  cases e with
  | error r => cases h
  | ok b' =>
    cases h
    rfl

theorem Outcome.ofBundle_ne_query (e : Except Refusal Bundle) (q : Query) :
    Outcome.ofBundle e ≠ .query q := by
  cases e <;> nofun

theorem shows_ofLines {base : String} {queries lines : List String} (hne : lines ≠ [])
    (h : LinesShow base queries (split lines)) : Shows base queries (ofLines lines) := by
  rw [Shows, linesOf_ofLines hne]
  exact h

/-- A computation that is mapped to a result has one that is mapped to it. -/
theorem exists_of_map_eq_ok {α β : Type} {f : α → β} {e : Except Fault α} {b : β}
    (h : e.map f = .ok b) : ∃ a, e = .ok a ∧ f a = b := by
  cases e with
  | error fault => cases h
  | ok a => exact ⟨a, rfl, Except.ok.inj h⟩

namespace Request

variable {limits : Distance.Limits} {ceilings : Query.Limits} {r : Request}

theorem presentable {q : Query} (h : r.compile { limits, ceilings } = .ok (.query q)) :
    Presentable q := by
  cases r with
  | proximity p => exact Query.Proximity.presentable (Outcome.eq_of_ofQuery (Except.ok.inj h))
  | variation p =>
    obtain ⟨e, he, hq⟩ := exists_of_map_eq_ok h
    exact Query.Variation.presentable (he.trans (congrArg _ (Outcome.eq_of_ofQuery hq)))
  | semantic p => exact Query.Semantic.presentable (Outcome.eq_of_ofQuery (Except.ok.inj h))
  | bundle p =>
    obtain ⟨e, -, hq⟩ := exists_of_map_eq_ok h
    exact absurd hq (Outcome.ofBundle_ne_query e q)

theorem eq_medievalBundle {b : Bundle} (h : r.compile { limits, ceilings } = .ok (.bundle b)) :
    ∃ (p : Query.BundleRequest) (attr : Attribute),
      Term.clean p.word ≠ "" ∧ b = p.medievalBundle attr := by
  cases r with
  | proximity p => exact absurd (Except.ok.inj h) (Outcome.ofQuery_ne_bundle _ b)
  | variation p =>
    obtain ⟨e, -, hb⟩ := exists_of_map_eq_ok h
    exact absurd hb (Outcome.ofQuery_ne_bundle e b)
  | semantic p => exact absurd (Except.ok.inj h) (Outcome.ofQuery_ne_bundle _ b)
  | bundle p =>
    obtain ⟨e, he, hb⟩ := exists_of_map_eq_ok h
    obtain ⟨hword, -, attr, found, -, hfound, rfl⟩ := Query.BundleRequest.compile_eq_ok_iff.1
      (he.trans (congrArg _ (Outcome.eq_of_ofBundle hb)))
    rw [Query.patternsUnder_ofOrthography, Except.ok.injEq] at hfound
    exact ⟨p, attr, hword, by rw [← hfound]; rfl⟩

end Request

/-- The page of a compiled request shows and links its query, and that of a bundle its four, from
the plainest strategy to the historical one. -/
theorem page_shows_and_links_queries (limits : Distance.Limits) (ceilings : Query.Limits)
    {base : String} (hbase : IsBase base) (r : Request) :
    (∀ q, r.compile { limits, ceilings } = .ok (.query q) →
      Shows base [q.text] ((Outcome.query q).page base)) ∧
    ∀ b, r.compile { limits, ceilings } = .ok (.bundle b) →
      b.queries.map Prod.fst = ["simple", "medium", "complex", "historical"] ∧
        Shows base (b.queries.map Prod.snd) ((Outcome.bundle b).page base) := by
  refine ⟨fun q h => ?_, fun b h => ?_⟩
  · exact shows_ofLines (by simp [queryLines]) ((Request.presentable h).queryLines_show hbase)
  · obtain ⟨p, attr, hword, rfl⟩ := Request.eq_medievalBundle h
    have hqueries := Query.BundleRequest.queries_medievalBundle (r := p) attr
    refine ⟨by rw [hqueries]; rfl, ?_⟩
    rw [hqueries, List.map_map]
    exact shows_ofLines (by simp [bundleLines])
      (Query.BundleRequest.bundleLines_show attr hword hbase)

/-- A term with a line break, an apostrophe and accents is shown and linked, and so are the queries
of a bundle. -/
theorem multiline_term_is_shown :
    let base := "https://host/view?cql="
    let among : Query.Semantic :=
      { central := .text "l'âme\nnoble", contexts := .text "foi, cœur" }
    let bundled : Query.BundleRequest := { word := .text "d'œil\r\n" }
    IsBase base ∧
    (∃ q, (Request.semantic among).compile {} = .ok (.query q) ∧ q.terms = ["l'âme\nnoble"] ∧
      Shows base [q.text] ((Outcome.query q).page base)) ∧
    ∃ b, (Request.bundle bundled).compile {} = .ok (.bundle b) ∧ b.word = "d'œil" ∧
      Shows base (b.queries.map Prod.snd) ((Outcome.bundle b).page base) := by
  intro base among bundled
  have hbase : IsBase base := by
    have hall : base.toList.all (fun c => !isBlank c && !parentheses.contains c) = true := by
      decide +kernel
    simpa only [IsBase, List.all_eq_true, Bool.and_eq_true, Bool.not_eq_true', List.contains_eq_mem,
      decide_eq_false_iff_not] using hall
  obtain ⟨hquery, -⟩ := page_shows_and_links_queries {} {} hbase (.semantic among)
  obtain ⟨-, hbundle⟩ := page_shows_and_links_queries {} {} hbase (.bundle bundled)
  refine ⟨hbase, ?_, ?_⟩
  · have h : among.compile {} {} = .ok (among.compiled {} .semanticAny .lemmaForm) :=
      Query.Semantic.compile_eq_ok_iff.2 ⟨_, _, ⟨by decide +kernel, by decide +kernel, rfl, rfl,
        by decide +kernel, by decide +kernel⟩, rfl⟩
    have hr : (Request.semantic among).compile {} = .ok (.query _) :=
      congrArg (fun e => Except.ok (Outcome.ofQuery e)) h
    exact ⟨_, hr, by decide +kernel, hquery _ hr⟩
  · have h : bundled.compile (.ofOrthography medieval) {} =
        .ok (.ok (bundled.compiled .wordForm _)) :=
      Query.BundleRequest.compile_eq_ok_iff.2 ⟨by decide +kernel, by decide +kernel, _, _, rfl,
        Query.patternsUnder_ofOrthography _ _ _ _, rfl⟩
    have hr : (Request.bundle bundled).compile {} = .ok (.bundle _) :=
      congrArg (Except.map Outcome.ofBundle) h
    exact ⟨_, hr, by decide +kernel, (hbundle _ hr).2⟩

end Concordance
