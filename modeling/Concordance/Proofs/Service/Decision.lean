import Concordance.Proofs.Query.Refused
import Concordance.Proofs.Term
import Concordance.Service
import Mathlib.Data.Finset.Card

/-!
# In which order a request is decided

A request is checked step by step, and the first check that applies refuses it.  Only a request that
passes all checks reaches the generator, which is asked for the patterns of one word after the
other; the request ends in a fault where the generator does, and nowhere else.

* `Check.First` — the first check of a list that applies.
* `Request.checks`, `Request.questions` — the checks of a request, and what it asks the generator.
* `compile_of_first` — the first check that applies refuses the request.
* `exists_conclusion` — what an admitted request comes to depends on the generator's answers alone.
* `requests_are_decided_in_order` — the main statement: every request is `Request.Decided`.
-/

namespace Concordance

open Concordance.Term Concordance.Text Concordance.Query

/-! ## Checks in order -/

/-- A check of a request: how the request is refused, and when. -/
structure Check where
  kind : RefusalKind
  refusal : Refusal
  applies : Prop

namespace Check

/-- The check applies, and none before it does. -/
inductive First : List Check → Check → Prop
  | here {c : Check} {rest : List Check} (h : c.applies) : First (c :: rest) c
  | later {b c : Check} {rest : List Check} (h : ¬b.applies) (hrest : First rest c) :
    First (b :: rest) c

variable {c c' : Check} {checks : List Check}

theorem First.mem (h : First checks c) : c ∈ checks := by
  induction h with
  | here => exact List.mem_cons_self
  | later _ _ ih => exact List.mem_cons_of_mem _ ih

theorem First.applies (h : First checks c) : c.applies := by
  induction h with
  | here h => exact h
  | later _ _ ih => exact ih

theorem First.unique (h : First checks c) (h' : First checks c') : c = c' := by
  induction h with
  | here h =>
    cases h' with
    | here => rfl
    | later hnot => exact absurd h hnot
  | later hnot _ ih =>
    cases h' with
    | here h => exact absurd h hnot
    | later _ hrest => exact ih hrest

/-- Some check is the first one that applies, or none applies. -/
theorem first_or_none (checks : List Check) :
    (∃ c, First checks c) ∨ ∀ c ∈ checks, ¬c.applies := by
  induction checks with
  | nil => exact .inr fun c hc => absurd hc List.not_mem_nil
  | cons b rest ih =>
    by_cases hb : b.applies
    · exact .inl ⟨b, .here hb⟩
    rcases ih with ⟨c, hc⟩ | hnone
    · exact .inl ⟨c, .later hb hc⟩
    · exact .inr (List.forall_mem_cons.2 ⟨hb, hnone⟩)

end Check

/-! ## Steps that may fail -/

/-- A list of steps fails as the first of them that fails. -/
theorem mapM_eq_error_iff {α β : Type} {f : α → Except Fault β} {xs : List α} {fault : Fault} :
    xs.mapM f = .error fault ↔ ∃ before x after, xs = before ++ x :: after ∧
      (∀ b ∈ before, ∃ y, f b = .ok y) ∧ f x = .error fault := by
  induction xs with
  | nil => simp [pure, Except.pure]
  | cons x rest ih =>
    rw [List.mapM_cons]
    cases hx : f x with
    | error other =>
      constructor
      · rintro ⟨⟩
        exact ⟨[], x, rest, rfl, by simp, hx⟩
      · rintro ⟨before, y, after, hsplit, hbefore, hy⟩
        cases before with
        | nil =>
          obtain rfl : x = y := (List.cons.inj hsplit).1
          rw [hx] at hy
          cases hy
          rfl
        | cons b before =>
          obtain rfl : x = b := (List.cons.inj hsplit).1
          obtain ⟨z, hz⟩ := hbefore x List.mem_cons_self
          rw [hx] at hz
          cases hz
    | ok z =>
      have hrest : (rest.mapM f >>= fun zs => pure (z :: zs) : Except Fault (List β)) =
          .error fault ↔ rest.mapM f = .error fault := by
        cases rest.mapM f with
        | error other => rfl
        | ok zs => simp [bind, Except.bind, pure, Except.pure]
      refine hrest.trans (ih.trans ⟨?_, ?_⟩)
      · rintro ⟨before, y, after, rfl, hbefore, hy⟩
        exact ⟨x :: before, y, after, rfl, List.forall_mem_cons.2 ⟨⟨z, hx⟩, hbefore⟩, hy⟩
      · rintro ⟨before, y, after, hsplit, hbefore, hy⟩
        cases before with
        | nil =>
          obtain rfl : x = y := (List.cons.inj hsplit).1
          rw [hx] at hy
          cases hy
        | cons b before =>
          exact ⟨before, y, after, (List.cons.inj hsplit).2,
            (List.forall_mem_cons.1 hbefore).2, hy⟩

/-! ## What is checked -/

namespace Term

/-- The contexts are not given: what counts as nothing, or a text of white space. -/
def NoContexts (v : Value) : Prop :=
  v.truthy = false ∨ ∃ s, v.text? = some s ∧ ∀ c ∈ s.toList, isBlank c = true

theorem namesContexts_eq_false_iff {v : Value} : namesContexts v = false ↔ NoContexts v := by
  have htrim {s : String} : trim s = "" ↔ ∀ c ∈ s.toList, isBlank c = true := by
    rw [← trimChars_eq_nil_iff, ← toList_trim, String.toList_eq_nil_iff]
  unfold namesContexts NoContexts
  cases hv : v.text? with
  | none => simp
  | some s =>
    simp only [bne_eq_false_iff_eq, Option.some.injEq, exists_eq_left', ← htrim]
    constructor
    · exact .inr
    · rintro (hfalsy | hblank)
      · cases v with
        | text t =>
          obtain rfl : t = s := Option.some.inj hv
          obtain rfl : t = "" := by simpa [Value.truthy] using hfalsy
          rfl
        | choice => cases hfalsy
        | null | bool | int | float | bytes | list | record => cases hv
      · exact hblank

/-- The terms of contexts, one for each that has one. -/
def survivors (v : Value) : List String :=
  ((contextPieces v).map cleanText).filter fun t => t ≠ ""

theorem contextTerms_eq_nil_iff {v : Value} : contextTerms v = [] ↔ survivors v = [] :=
  firstSeen_eq_nil_iff

/-- The context terms are as many as there are different ones. -/
theorem length_contextTerms (v : Value) :
    (contextTerms v).length = (survivors v).toFinset.card := by
  rw [← List.toFinset_card_of_nodup (nodup_contextTerms v)]
  congr 1
  ext t
  simp [contextTerms, survivors]

end Term

namespace Request

/-- The checks of a request, in the order in which they are made. -/
def checks (ceilings : Query.Limits) : Request → List Check
  | .proximity r =>
    [⟨.missingInput, .missingTerms, clean r.term1 = "" ∨ clean r.term2 = ""⟩,
      ⟨.invalidOption, .unknownAttribute r.attr, Attribute.ofValue? r.attr = none⟩]
  | .variation r =>
    let tooLong (t : Strategy) : Check :=
      ⟨.inputTooLong, .tooLongFor t ceilings.wordLength, Strategy.ofValue? r.strategy = some t ∧
        ceilings.wordLength < (max (clean r.term1).length (clean r.term2).length : Nat)⟩
    [⟨.missingInput, .missingTerms, clean r.term1 = "" ∨ clean r.term2 = ""⟩,
      ⟨.invalidOption, .unknownAttribute r.attr, Attribute.ofValue? r.attr = none⟩,
      ⟨.invalidOption, .unknownStrategy r.strategy, Strategy.ofValue? r.strategy = none⟩,
      tooLong .complex, tooLong .combined]
  | .semantic r =>
    [⟨.missingInput, .missingContext, clean r.central = "" ∨ NoContexts r.contexts⟩,
      ⟨.invalidOption, .unknownMode r.mode, Mode.ofValue? r.mode = none⟩,
      ⟨.invalidOption, .unknownAttribute r.attr, Attribute.ofValue? r.attr = none⟩,
      ⟨.noValidContext, .noContextTerms, survivors r.contexts = []⟩,
      ⟨.tooManyContexts, .tooManyContexts ceilings.contextTerms,
        ceilings.contextTerms < (survivors r.contexts).toFinset.card⟩]
  | .bundle r =>
    [⟨.missingInput, .missingWord, clean r.word = ""⟩,
      ⟨.invalidOption, .unknownAttribute r.attr, Attribute.ofValue? r.attr = none⟩,
      ⟨.inputTooLong, .tooLong ceilings.wordLength,
        ceilings.wordLength < (clean r.word).length⟩]

/-- Every check has the kind of its refusal. -/
theorem kind_of_mem_checks {ceilings : Query.Limits} {r : Request} {c : Check}
    (hc : c ∈ r.checks ceilings) : c.refusal.kind = c.kind := by
  cases r with
  | proximity r =>
    simp only [checks, List.mem_cons, List.not_mem_nil, or_false] at hc
    rcases hc with rfl | rfl <;> rfl
  | variation r =>
    simp only [checks, List.mem_cons, List.not_mem_nil, or_false] at hc
    rcases hc with rfl | rfl | rfl | rfl | rfl <;> rfl
  | semantic r =>
    simp only [checks, List.mem_cons, List.not_mem_nil, or_false] at hc
    rcases hc with rfl | rfl | rfl | rfl | rfl <;> rfl
  | bundle r =>
    simp only [checks, List.mem_cons, List.not_mem_nil, or_false] at hc
    rcases hc with rfl | rfl | rfl <;> rfl

/-- No check applies to the request. -/
def Admitted (ceilings : Query.Limits) (r : Request) : Prop :=
  ∀ c ∈ r.checks ceilings, ¬c.applies

/-! ## What the generator is asked -/

/-- What a generator is asked: for the patterns of a word under a strategy. -/
structure Question where
  word : String
  strategy : Strategy
  suffixed : Bool

/-- What a request asks its generator, question by question. -/
def questions : Request → List Question
  | .proximity _ | .semantic _ => []
  | .variation r =>
    (Strategy.ofValue? r.strategy).toList.flatMap fun t =>
      [⟨clean r.term1, t, false⟩, ⟨clean r.term2, t, false⟩]
  | .bundle r => Strategy.named.map fun t => ⟨clean r.word, t, r.suffixed.truthy⟩

def Question.ask (q : Question) (generator : Pattern.Generator) : Except Fault (List String) :=
  generator.generate q.word q.strategy q.suffixed

/-- The answers of a generator, which is asked until it fails. -/
def answers (r : Request) (generator : Pattern.Generator) : Except Fault (List (List String)) :=
  r.questions.mapM (Question.ask · generator)

/-- The first question at which the generator fails, and how it fails there. -/
def FirstFault (r : Request) (generator : Pattern.Generator) (fault : Fault) : Prop :=
  ∃ before q after, r.questions = before ++ q :: after ∧
    (∀ b ∈ before, ∃ patterns, b.ask generator = .ok patterns) ∧ q.ask generator = .error fault

theorem answers_eq_error_iff {r : Request} {generator : Pattern.Generator} {fault : Fault} :
    r.answers generator = .error fault ↔ r.FirstFault generator fault :=
  mapM_eq_error_iff

/-- A search for spellings needs some pattern for each of its terms. -/
def NeedsPatterns : Request → Prop
  | .variation _ => True
  | _ => False

/-- What a request is made for: a query or, for a bundle, a bundle. -/
def IsAnswer : Request → Outcome → Prop
  | .bundle _, .bundle _ => True
  | .proximity _, .query _ | .variation _, .query _ | .semantic _, .query _ => True
  | _, _ => False

/-! ## The first check that applies refuses the request -/

section Refused

variable {ceilings : Query.Limits} {c : Check}

theorem proximity_refused {r : Proximity} (h : Check.First (checks ceilings (.proximity r)) c) :
    r.Refused c.refusal := by
  cases h with
  | here h => exact .missingTerms h
  | later hterms h =>
  rw [not_or] at hterms
  cases h with
  | here h => exact .unknownAttribute hterms.1 hterms.2 h
  | later _ h => cases h

theorem tooLong_iff {r : Variation} {t : Strategy} :
    r.TooLong ceilings t ↔ (t = .complex ∨ t = .combined) ∧
      ceilings.wordLength < (max (clean r.term1).length (clean r.term2).length : Nat) := by
  rw [Variation.TooLong, Bool.and_eq_true, Strategy.isPairwise_iff, Bool.or_eq_true]
  simp only [exceeds, decide_eq_true_eq]
  exact and_congr_right fun _ => by omega

theorem variation_refused {r : Variation} {generator : Pattern.Generator}
    (h : Check.First (checks ceilings (.variation r)) c) :
    r.Refused generator ceilings c.refusal := by
  cases h with
  | here h => exact .missingTerms h
  | later hterms h =>
  rw [not_or] at hterms
  cases h with
  | here h => exact .unknownAttribute hterms.1 hterms.2 h
  | later hattr h =>
  obtain ⟨attr, hattr⟩ := Option.ne_none_iff_exists'.1 hattr
  cases h with
  | here h => exact .unknownStrategy hterms.1 hterms.2 hattr h
  | later _ h =>
  cases h with
  | here h =>
    exact .tooLongFor hterms.1 hterms.2 hattr h.1 (tooLong_iff.2 ⟨.inl rfl, h.2⟩)
  | later _ h =>
  cases h with
  | here h =>
    exact .tooLongFor hterms.1 hterms.2 hattr h.1 (tooLong_iff.2 ⟨.inr rfl, h.2⟩)
  | later _ h => cases h

theorem semantic_refused {r : Semantic} (h : Check.First (checks ceilings (.semantic r)) c) :
    r.Refused ceilings c.refusal := by
  cases h with
  | here h => exact .missingContext (h.imp_right namesContexts_eq_false_iff.2)
  | later hgiven h =>
  rw [not_or, ← namesContexts_eq_false_iff, Bool.not_eq_false] at hgiven
  cases h with
  | here h => exact .unknownMode hgiven.1 hgiven.2 h
  | later hmode h =>
  obtain ⟨mode, hmode⟩ := Option.ne_none_iff_exists'.1 hmode
  cases h with
  | here h => exact .unknownAttribute hgiven.1 hgiven.2 hmode h
  | later hattr h =>
  obtain ⟨attr, hattr⟩ := Option.ne_none_iff_exists'.1 hattr
  cases h with
  | here h =>
    exact .noContextTerms hgiven.1 hgiven.2 hmode hattr (contextTerms_eq_nil_iff.2 h)
  | later hsome h =>
  cases h with
  | here h =>
    refine .tooManyContexts hgiven.1 hgiven.2 hmode hattr (mt contextTerms_eq_nil_iff.1 hsome) ?_
    rw [length_contextTerms]
    exact h
  | later _ h => cases h

theorem bundle_refused {r : BundleRequest} (h : Check.First (checks ceilings (.bundle r)) c) :
    r.Refused ceilings c.refusal := by
  cases h with
  | here h => exact .missingWord h
  | later hword h =>
  cases h with
  | here h => exact .unknownAttribute hword h
  | later hattr h =>
  obtain ⟨attr, hattr⟩ := Option.ne_none_iff_exists'.1 hattr
  cases h with
  | here h => exact .tooLong hword hattr (decide_eq_true h)
  | later _ h => cases h

theorem compile_of_first {config : Config} {r : Request}
    (h : Check.First (r.checks config.ceilings) c) :
    r.compile config = .ok (.refused c.refusal) := by
  cases r with
  | proximity r =>
    rw [compile, Proximity.compile_eq_error_iff.2 (proximity_refused h)]
    rfl
  | variation r =>
    rw [compile, Variation.compile_eq_error_iff.2 (variation_refused h)]
    rfl
  | semantic r =>
    rw [compile, Semantic.compile_eq_error_iff.2 (semantic_refused h)]
    rfl
  | bundle r =>
    rw [compile, BundleRequest.compile_eq_error_iff.2 (bundle_refused h)]
    rfl

end Refused

/-! ## An admitted request comes to what its generator answers -/

theorem patternsUnder_eq (generator : Pattern.Generator) (word : String) (suffixed : Bool)
    (ts : List Strategy) :
    patternsUnder generator word suffixed ts =
      ((ts.map fun t => Question.mk word t suffixed).mapM (Question.ask · generator)).map
        fun found => (ts.map Strategy.name).zip found := by
  induction ts with
  | nil => rfl
  | cons t rest ih =>
    rw [patternsUnder, ih, List.map_cons, List.map_cons, List.mapM_cons, Question.ask]
    cases generator.generate word t suffixed with
    | error fault => rfl
    | ok found =>
      simp only [bind, Except.bind]
      cases (rest.map fun t => Question.mk word t suffixed).mapM (Question.ask · generator) with
      | error fault => rfl
      | ok others => rfl

/-- What the request comes to when it is admitted: a function of its generator's answers, under
which missing patterns refuse a search for spellings and everything else is an answer. -/
def Concludes (config : Config) (r : Request) (conclude : List (List String) → Outcome) : Prop :=
  (∀ generator, r.compile { config with generator } = (r.answers generator).map conclude) ∧
  ∀ generator found, r.answers generator = .ok found →
    r.NeedsPatterns ∧ [] ∈ found ∧ conclude found = .refused .noPatterns ∨
      (r.NeedsPatterns → [] ∉ found) ∧ r.IsAnswer (conclude found)

theorem proximity_concludes {config : Config} {r : Proximity}
    (h : (Request.proximity r).Admitted config.ceilings) :
    ∃ conclude, (Request.proximity r).Concludes config conclude := by
  simp only [Admitted, checks, List.forall_mem_cons, not_or, ← ne_eq,
    Option.ne_none_iff_exists'] at h
  obtain ⟨⟨h1, h2⟩, ⟨attr, hattr⟩, -⟩ := h
  have hcompile : r.compile config.limits = .ok (r.compiled config.limits attr) :=
    Proximity.compile_eq_ok_iff.2 ⟨h1, h2, attr, hattr, rfl⟩
  refine ⟨fun _ => .query (r.compiled config.limits attr), fun generator => ?_, fun _ _ _ => ?_⟩
  · rw [compile, hcompile]
    rfl
  · exact .inr ⟨False.elim, trivial⟩

theorem semantic_concludes {config : Config} {r : Semantic}
    (h : (Request.semantic r).Admitted config.ceilings) :
    ∃ conclude, (Request.semantic r).Concludes config conclude := by
  simp only [Admitted, checks, List.forall_mem_cons, not_or, ← namesContexts_eq_false_iff,
    Bool.not_eq_false, ← contextTerms_eq_nil_iff, ← length_contextTerms,
    ← ne_eq, Option.ne_none_iff_exists'] at h
  obtain ⟨⟨hcentral, hnames⟩, ⟨mode, hmode⟩, ⟨attr, hattr⟩, hsome, hmany, -⟩ := h
  have hcompile : r.compile config.limits config.ceilings =
      .ok (r.compiled config.limits mode attr) :=
    Semantic.compile_eq_ok_iff.2
      ⟨mode, attr, ⟨hcentral, hnames, hmode, hattr, hsome, hmany⟩, rfl⟩
  refine ⟨fun _ => .query (r.compiled config.limits mode attr), fun generator => ?_,
    fun _ _ _ => ?_⟩
  · rw [compile, hcompile]
    rfl
  · exact .inr ⟨False.elim, trivial⟩

theorem bundle_concludes {config : Config} {r : BundleRequest}
    (h : (Request.bundle r).Admitted config.ceilings) :
    ∃ conclude, (Request.bundle r).Concludes config conclude := by
  simp only [Admitted, checks, List.forall_mem_cons, ← ne_eq, Option.ne_none_iff_exists'] at h
  obtain ⟨hword, ⟨attr, hattr⟩, hlong, -⟩ := h
  have hshort : exceeds (clean r.word) config.ceilings.wordLength = false := decide_eq_false hlong
  refine ⟨fun found => .bundle (r.compiled attr ((Strategy.named.map Strategy.name).zip found)),
    fun generator => ?_, fun _ _ _ => ?_⟩
  · rw [compile, BundleRequest.compile]
    simp only [hword, if_false, hattr, hshort, Bool.false_eq_true, patternsUnder_eq, answers,
      questions]
    cases (Strategy.named.map fun t => Question.mk (clean r.word) t r.suffixed.truthy).mapM
      (Question.ask · generator) with
    | error fault => rfl
    | ok found => rfl
  · exact .inr ⟨False.elim, trivial⟩

theorem variation_answers {r : Variation} {t : Strategy}
    (ht : Strategy.ofValue? r.strategy = some t) (generator : Pattern.Generator) :
    (Request.variation r).answers generator = do
      let patterns1 ← generator.generate (clean r.term1) t false
      let patterns2 ← generator.generate (clean r.term2) t false
      return [patterns1, patterns2] := by
  simp only [answers, questions, ht, Option.toList_some, List.flatMap_cons, List.flatMap_nil,
    List.append_nil, List.mapM_cons, List.mapM_nil, Question.ask]
  cases generator.generate (clean r.term1) t false with
  | error fault => rfl
  | ok patterns1 =>
    cases generator.generate (clean r.term2) t false with
    | error fault => rfl
    | ok patterns2 => rfl

theorem variation_concludes {config : Config} {r : Variation}
    (h : (Request.variation r).Admitted config.ceilings) :
    ∃ conclude, (Request.variation r).Concludes config conclude := by
  simp only [Admitted, checks, List.forall_mem_cons, not_or, ← ne_eq,
    Option.ne_none_iff_exists'] at h
  obtain ⟨⟨h1, h2⟩, ⟨attr, hattr⟩, ⟨t, ht⟩, hcomplex, hcombined, -⟩ := h
  have hshort : ¬r.TooLong config.ceilings t := by
    rw [tooLong_iff]
    rintro ⟨rfl | rfl, hlong⟩
    · exact hcomplex ⟨ht, hlong⟩
    · exact hcombined ⟨ht, hlong⟩
  have hcompile (generator : Pattern.Generator) :
      r.compile generator config.limits config.ceilings = do
        let patterns1 ← generator.generate (clean r.term1) t false
        let patterns2 ← generator.generate (clean r.term2) t false
        if patterns1.isEmpty || patterns2.isEmpty then return .error .noPatterns
        else return .ok (r.assemble config.limits attr t (clean r.term1) (clean r.term2) patterns1
          patterns2) := by
    unfold Variation.TooLong at hshort
    simp only [Variation.compile, h1, h2, or_self, if_false, hattr, ht, hshort, Bool.false_eq_true]
  refine ⟨fun found =>
    if found.any List.isEmpty then .refused .noPatterns
    else .query (r.assemble config.limits attr t (clean r.term1) (clean r.term2) (found.getD 0 [])
      (found.getD 1 [])), fun generator => ?_, fun generator found _ => ?_⟩
  · rw [variation_answers ht, compile, hcompile]
    cases generator.generate (clean r.term1) t false with
    | error fault => rfl
    | ok patterns1 =>
      cases generator.generate (clean r.term2) t false with
      | error fault => rfl
      | ok patterns2 =>
        cases patterns1 <;> cases patterns2 <;> rfl
  · have hempty : found.any List.isEmpty = true ↔ [] ∈ found := by
      simp [List.any_eq_true]
    by_cases hnone : [] ∈ found
    · exact .inl ⟨trivial, hnone, if_pos (hempty.2 hnone)⟩
    · refine .inr ⟨fun _ => hnone, ?_⟩
      dsimp only
      rw [if_neg (mt hempty.1 hnone)]
      trivial

theorem exists_conclusion {config : Config} {r : Request} (h : r.Admitted config.ceilings) :
    ∃ conclude, r.Concludes config conclude := by
  cases r with
  | proximity r => exact proximity_concludes h
  | variation r => exact variation_concludes h
  | semantic r => exact semantic_concludes h
  | bundle r => exact bundle_concludes h

theorem not_isAnswer_refused {r : Request} {e : Refusal} : ¬r.IsAnswer (.refused e) := by
  cases r <;> exact id

/-! ## The order of the decisions -/

/-- How a request is decided. -/
structure Decided (config : Config) (r : Request) : Prop where
  /-- It is refused, with a kind, by the first check that applies; or, after all of them, because a
  search for spellings lacks the patterns of a term. -/
  refused_iff : ∀ kind e, r.compile config = .ok (.refused e) ∧ e.kind = kind ↔
    (∃ c, Check.First (r.checks config.ceilings) c ∧ c.refusal = e ∧ c.kind = kind) ∨
    (r.Admitted config.ceilings ∧ r.NeedsPatterns ∧
      (∃ found, r.answers config.generator = .ok found ∧ [] ∈ found) ∧
      e = .noPatterns ∧ kind = .emptyPatternSet)
  /-- It ends in a fault if it passes all checks and the generator fails, and then in that fault. -/
  raised_iff : ∀ fault, r.compile config = .error fault ↔
    r.Admitted config.ceilings ∧ r.FirstFault config.generator fault
  /-- It is compiled if it passes all checks and the generator answers with what is needed. -/
  compiled_iff : (∃ outcome, r.compile config = .ok outcome ∧ r.IsAnswer outcome) ↔
    r.Admitted config.ceilings ∧
      ∃ found, r.answers config.generator = .ok found ∧ (r.NeedsPatterns → [] ∉ found)
  /-- Of the generator only its answers matter, and those only after all checks. -/
  generator_matters : ∀ generator,
    (r.Admitted config.ceilings → r.answers generator = r.answers config.generator) →
      r.compile { config with generator } = r.compile config

theorem decided_of_first {config : Config} {r : Request} {c : Check}
    (hc : Check.First (r.checks config.ceilings) c) : r.Decided config := by
  have hcompile := compile_of_first hc
  have hkind := kind_of_mem_checks hc.mem
  have hnot : ¬r.Admitted config.ceilings := fun hadmitted => hadmitted c hc.mem hc.applies
  constructor
  · intro kind e
    constructor
    · rintro ⟨h, rfl⟩
      rw [hcompile] at h
      cases h
      exact .inl ⟨c, hc, rfl, hkind.symm⟩
    · rintro (⟨c', hc', rfl, rfl⟩ | ⟨hadmitted, -⟩)
      · obtain rfl := hc.unique hc'
        exact ⟨hcompile, hkind⟩
      · exact absurd hadmitted hnot
  · intro fault
    constructor
    · intro h
      rw [hcompile] at h
      cases h
    · exact fun h => absurd h.1 hnot
  · constructor
    · rintro ⟨outcome, h, hanswer⟩
      rw [hcompile] at h
      cases h
      exact absurd hanswer not_isAnswer_refused
    · exact fun h => absurd h.1 hnot
  · intro generator _
    rw [hcompile]
    exact compile_of_first hc

theorem decided_of_admitted {config : Config} {r : Request} (h : r.Admitted config.ceilings) :
    r.Decided config := by
  have hnone (c : Check) : ¬Check.First (r.checks config.ceilings) c :=
    fun hc => h c hc.mem hc.applies
  obtain ⟨conclude, hcompile, hconclude⟩ := exists_conclusion h
  have hself : r.compile config = (r.answers config.generator).map conclude := hcompile _
  have hsame (generator : Pattern.Generator)
      (hanswers : r.Admitted config.ceilings → r.answers generator = r.answers config.generator) :
      r.compile { config with generator } = r.compile config := by
    rw [hcompile, hself, hanswers h]
  cases hanswers : r.answers config.generator with
  | error fault =>
    have hraised : r.compile config = .error fault := by rw [hself, hanswers]; rfl
    exact
      { refused_iff := by simp [hraised, hanswers, hnone]
        raised_iff := by simp [← answers_eq_error_iff, hraised, hanswers, h]
        compiled_iff := by simp [hraised, hanswers]
        generator_matters := hsame }
  | ok found =>
    have hended : r.compile config = .ok (conclude found) := by rw [hself, hanswers]; rfl
    rcases hconclude config.generator found hanswers with ⟨hneeds, hempty, hend⟩ | ⟨hfull, hend⟩
    · rw [hend] at hended
      exact
        { refused_iff := fun kind e => by
            simp only [hended, hanswers, hnone, h, hneeds, hempty, Except.ok.injEq,
              Outcome.refused.injEq, exists_eq_left', true_and, false_and, exists_false, false_or]
            constructor
            · rintro ⟨rfl, rfl⟩
              exact ⟨rfl, rfl⟩
            · rintro ⟨rfl, rfl⟩
              exact ⟨rfl, rfl⟩
          raised_iff := by simp [← answers_eq_error_iff, hended, hanswers]
          compiled_iff := by simp [hended, hanswers, hneeds, hempty, not_isAnswer_refused]
          generator_matters := hsame }
    · have hnot (e : Refusal) : conclude found ≠ .refused e :=
        fun heq => not_isAnswer_refused (heq ▸ hend)
      exact
        { refused_iff := fun kind e => by
            simp only [hended, hanswers, hnone, Except.ok.injEq, hnot, exists_eq_left', false_and,
              exists_false, false_or, false_iff]
            exact fun hrefused => hfull hrefused.2.1 hrefused.2.2.1
          raised_iff := by simp [← answers_eq_error_iff, hended, hanswers]
          compiled_iff := by simpa [hended, hanswers, h, hend] using hfull
          generator_matters := hsame }

end Request

/-- **Requests are decided in a fixed order and raise only what the generator raises.**  Whatever
the limits and the generator, a request is refused by the first check that applies to it, with the
kind of that check; only where none applies is the generator asked, and its fault is passed on; then
a search for spellings is refused for a term without patterns, and everything else is compiled. -/
theorem requests_are_decided_in_order (config : Config) (r : Request) : r.Decided config := by
  rcases Check.first_or_none (r.checks config.ceilings) with ⟨c, hc⟩ | hnone
  · exact Request.decided_of_first hc
  · exact Request.decided_of_admitted hnone

end Concordance
