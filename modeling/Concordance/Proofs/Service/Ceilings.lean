import Concordance.Application
import Concordance.Proofs.Choice
import Concordance.Proofs.Metric.Lawful
import Concordance.Proofs.Pattern.Alphabet
import Concordance.Proofs.Query.Refused
import Concordance.Proofs.Service.Run

/-!
# The ceilings of a service

The settings of an environment hold ceilings of the length of a word and of the number of contexts.
The service of the application keeps every result within them, and refuses a request for its size
only if it is beyond them.

* `IsLimited` — an option under which words are limited in length.
* `Request.Overlong`, `Request.Crowded` — requests that are beyond a ceiling.
* `Request.Within`, `Request.within_of_compile` — a result within its ceilings; what a request is
  compiled to is one.
* `Service.compile_of_execute`, `Service.after_config` — what a service returns is what its
  compilation comes to under its first configuration, even if its clock or its metrics fail.
* `ceilings_hold` — the ceilings of the settings hold for every request of every run.
-/

namespace Concordance

open Concordance.Text Concordance.Term Concordance.Query

/-! ## Results within their ceilings -/

namespace Request

/-- The option means the strategy of letter runs for pairs of characters, or all strategies
together: under these the patterns of a word grow with the square of its length. -/
def IsLimited (option : Value) : Prop :=
  Strategy.ofValue? option = some .complex ∨ Strategy.ofValue? option = some .combined

/-- A request under which words are limited, with a word longer than a ceiling. -/
def Overlong (ceiling : Int) : Request → Prop
  | .variation v => IsLimited v.strategy ∧
    (ceiling < (clean v.term1).length ∨ ceiling < (clean v.term2).length)
  | .bundle b => ceiling < (clean b.word).length
  | _ => False

/-- A semantic request with more context terms than a ceiling. -/
def Crowded (ceiling : Int) : Request → Prop
  | .semantic v => ceiling < (Term.contextTerms v.contexts).length
  | _ => False

/-- What a request comes to is within its ceilings, and refused for its size only beyond them. -/
def Within (ceilings : Query.Limits) : Request → Outcome → Prop
  | .variation v, .query q => IsLimited v.strategy →
    q.terms = [clean v.term1, clean v.term2] ∧ (clean v.term1).length ≤ ceilings.wordLength ∧
      (clean v.term2).length ≤ ceilings.wordLength
  | .semantic _, .query q => q.contextTerms.Nodup ∧ 1 ≤ q.contextTerms.length ∧
    q.contextTerms.length ≤ ceilings.contextTerms
  | _, .query _ => True
  | _, .bundle b => b.word.length ≤ ceilings.wordLength
  | r, .refused e => (e.kind = .inputTooLong → r.Overlong ceilings.wordLength) ∧
    (e.kind = .tooManyContexts → r.Crowded ceilings.contextTerms)

variable {limits : Distance.Limits} {ceilings : Query.Limits} {generator : Pattern.Generator}

/-- Under a strategy that an option means, words are limited if it looks at pairs. -/
theorem isLimited_iff {option : Value} {t : Strategy} (h : Strategy.ofValue? option = some t) :
    IsLimited option ↔ t.isPairwise = true := by
  rw [IsLimited, h, Strategy.isPairwise_iff, Option.some_inj, Option.some_inj]

theorem exceeds_iff {word : String} {limit : Int} :
    exceeds word limit = true ↔ limit < word.length :=
  decide_eq_true_iff

theorem within_proximity (v : Proximity) :
    Within ceilings (.proximity v) (.ofQuery (v.compile limits)) := by
  cases h : v.compile limits with
  | ok q => exact trivial
  | error e =>
    cases Proximity.compile_eq_error_iff.1 h with
    | missingTerms | unknownAttribute => exact ⟨nofun, nofun⟩

theorem within_variation {v : Variation} {result : Except Refusal Query}
    (h : v.compile generator limits ceilings = .ok result) :
    Within ceilings (.variation v) (.ofQuery result) := by
  cases result with
  | ok q =>
    obtain ⟨attr, strategy, patterns1, patterns2, hv, rfl⟩ := Variation.compile_eq_ok_iff.1 h
    intro hlimited
    have hshort := hv.notTooLong
    rw [(isLimited_iff hv.strategy_eq).1 hlimited, Bool.true_and, Bool.or_eq_true, exceeds_iff,
      exceeds_iff, not_or, Int.not_lt, Int.not_lt] at hshort
    exact ⟨rfl, hshort⟩
  | error e =>
    cases Variation.compile_eq_error_iff.1 h with
    | missingTerms | unknownAttribute | unknownStrategy | noPatterns => exact ⟨nofun, nofun⟩
    | tooLongFor _ _ _ hstrategy hlong =>
      refine ⟨fun _ => ?_, nofun⟩
      rw [Variation.TooLong, Bool.and_eq_true, Bool.or_eq_true, exceeds_iff, exceeds_iff] at hlong
      exact ⟨(isLimited_iff hstrategy).2 hlong.1, hlong.2⟩

theorem within_semantic (v : Semantic) :
    Within ceilings (.semantic v) (.ofQuery (v.compile limits ceilings)) := by
  cases h : v.compile limits ceilings with
  | ok q =>
    obtain ⟨mode, attr, hv, rfl⟩ := Semantic.compile_eq_ok_iff.1 h
    have hsome := List.length_pos_iff.2 hv.contexts_ne_nil
    exact ⟨nodup_contextTerms _, hsome, Int.not_lt.1 hv.notTooMany⟩
  | error e =>
    cases Semantic.compile_eq_error_iff.1 h with
    | missingContext | unknownMode | unknownAttribute | noContextTerms => exact ⟨nofun, nofun⟩
    | tooManyContexts _ _ _ _ _ hmany => exact ⟨nofun, fun _ => hmany⟩

theorem within_bundle {v : BundleRequest} {result : Except Refusal Bundle}
    (h : v.compile generator ceilings = .ok result) :
    Within ceilings (.bundle v) (.ofBundle result) := by
  cases result with
  | ok b =>
    obtain ⟨-, hshort, attr, found, -, -, rfl⟩ := BundleRequest.compile_eq_ok_iff.1 h
    rw [← Bool.not_eq_true, exceeds_iff, Int.not_lt] at hshort
    exact hshort
  | error e =>
    cases BundleRequest.compile_eq_error_iff.1 h with
    | missingWord | unknownAttribute => exact ⟨nofun, nofun⟩
    | tooLong _ _ hlong => exact ⟨fun _ => exceeds_iff.1 hlong, nofun⟩

theorem within_of_compile {config : Config} {r : Request} {outcome : Outcome}
    (h : r.compile config = .ok outcome) : Within config.ceilings r outcome := by
  cases r with
  | proximity v =>
    obtain rfl := Except.ok.inj h
    exact within_proximity v
  | semantic v =>
    obtain rfl := Except.ok.inj h
    exact within_semantic v
  | variation v =>
    cases hresult : v.compile config.generator config.limits config.ceilings with
    | error fault =>
      rw [compile, hresult] at h
      cases h
    | ok result =>
      rw [compile, hresult] at h
      obtain rfl := Except.ok.inj h
      exact within_variation hresult
  | bundle v =>
    cases hresult : v.compile config.generator config.ceilings with
    | error fault =>
      rw [compile, hresult] at h
      cases h
    | ok result =>
      rw [compile, hresult] at h
      obtain rfl := Except.ok.inj h
      exact within_bundle hresult

end Request

/-! ## Results of a service -/

namespace Service

variable {m : Metric.Client}

/-! Neither metrics nor readings of the clock change what a service works with, whatever comes of
them. -/

theorem config_annotateAll (s : Service m) (mark : String) (notes : List (String × Value)) :
    (s.annotateAll mark notes).config = s.config := rfl

theorem config_count (s : Service m) (h : Metric.Handle m) (label v : String) :
    (s.count h label v).1.config = s.config := by
  unfold count
  split <;> rfl

theorem config_finish (s : Service m) (r : Request) (span : Span) (outcome : Outcome) :
    (s.finish r span outcome).1.config = s.config := by
  have hcompiled (outcome : Outcome) : (s.finishCompiled r span outcome).1.config = s.config := by
    have hcount := s.config_count s.requests "operation" r.operation
    unfold finishCompiled
    split <;> (rename_i heq; rw [heq] at hcount; exact hcount)
  cases outcome with
  | refused refusal =>
    have hcount := s.config_count s.failures "kind" refusal.kind.name
    show (s.finishRefused r span refusal).1.config = s.config
    unfold finishRefused
    dsimp only
    split <;> (rename_i heq; rw [heq] at hcount; exact hcount)
  | query q => exact hcompiled (.query q)
  | bundle b => exact hcompiled (.bundle b)

/-- What comes of the compilation between its readings: its result, or the fault of a reading. -/
theorem compileWithin_cases (s : Service m) (r : Request) :
    (s.compileWithin r).1.config = s.config ∧ ((s.compileWithin r).2 = r.compile s.config ∨
      ∃ fault, (s.compileWithin r).2 = .error fault) := by
  unfold compileWithin
  split
  · exact ⟨rfl, .inr ⟨_, rfl⟩⟩
  · dsimp only
    split
    · exact ⟨rfl, .inr ⟨_, rfl⟩⟩
    · exact ⟨rfl, .inl rfl⟩

/-- A block that is timed comes to its result, or to the fault of the observation. -/
theorem time_cases {α : Type} (h : Metric.Handle m) (registry : m.Registry) (seconds : Float)
    (result : Except Fault α) :
    (h.time registry seconds result).2 = result ∨
      ∃ fault, (h.time registry seconds result).2 = .error fault := by
  unfold Metric.Handle.time
  split
  · split
    · exact .inr ⟨_, rfl⟩
    · exact .inl rfl
  · exact .inr ⟨_, rfl⟩

/-- The timed compilation comes to what the compilation comes to, or to another fault. -/
theorem compileTimed_cases (s : Service m) (r : Request) :
    (s.compileTimed r).1.config = s.config ∧ ((s.compileTimed r).2 = r.compile s.config ∨
      ∃ fault, (s.compileTimed r).2 = .error fault) := by
  unfold compileTimed
  split
  · exact ⟨rfl, .inr ⟨_, rfl⟩⟩
  · rename_i registry row _
    obtain ⟨hconfig, hwithin⟩ := ({ s with registry } : Service m).compileWithin_cases r
    refine ⟨hconfig, ?_⟩
    rcases time_cases row (({ s with registry } : Service m).compileWithin r).1.registry
      (({ s with registry } : Service m).compileWithin r).1.seconds
      (({ s with registry } : Service m).compileWithin r).2 with hsame | hfault
    · rcases hwithin with hresult | ⟨fault, hfault⟩
      · exact .inl (hsame.trans hresult)
      · exact .inr ⟨fault, hsame.trans hfault⟩
    · exact .inr hfault

theorem executeTraced_cases (s : Service m) (r : Request) :
    (s.executeTraced r).1.config = s.config ∧ ((s.executeTraced r).2 = r.compile s.config ∨
      ∃ fault, (s.executeTraced r).2 = .error fault) := by
  obtain ⟨hconfig, hresult⟩ := (s.annotateAll "request" r.labels).compileTimed_cases r
  rw [config_annotateAll] at hconfig hresult
  unfold executeTraced
  dsimp only
  split
  · rename_i heq
    rw [heq] at hconfig
    exact ⟨hconfig, .inr ⟨_, rfl⟩⟩
  · rename_i s1 outcome heq
    rw [heq] at hconfig hresult
    have hfinish := s1.config_finish r
      (Span.start ("cisame_query." ++ r.operation) (entries r.labels)) outcome
    rw [hconfig] at hfinish
    split
    · rename_i hend
      rw [hend] at hfinish
      exact ⟨hfinish, .inr ⟨_, rfl⟩⟩
    · rename_i hend
      rw [hend] at hfinish
      exact ⟨hfinish, hresult⟩

/-- Whatever the clock shows and whatever becomes of the metrics, a request leaves what the service
works with, and what it returns is what its compilation comes to. -/
theorem execute_cases (s : Service m) (r : Request) :
    (s.execute r).1.config = s.config ∧
      ((s.execute r).2 = r.compile s.config ∨ ∃ fault, (s.execute r).2 = .error fault) := by
  unfold execute
  split
  · exact ⟨rfl, .inr ⟨_, rfl⟩⟩
  · exact executeTraced_cases _ r

theorem compile_of_execute {s : Service m} {r : Request} {outcome : Outcome}
    (h : (s.execute r).2 = .ok outcome) : r.compile s.config = .ok outcome := by
  rcases (s.execute_cases r).2 with hsame | ⟨fault, hfault⟩
  · rw [← hsame, h]
  · rw [hfault] at h
    cases h

theorem after_config (s : Service m) (rs : List Request) : (s.after rs).config = s.config := by
  induction rs generalizing s with
  | nil => rfl
  | cons r rest ih => exact (ih (s.execute r).1).trans (s.execute_cases r).1

/-- What a service returns after any run is within the ceilings that it was started with. -/
theorem within_of_execute {s : Service m} {rs : List Request} {r : Request} {outcome : Outcome}
    (h : ((s.after rs).execute r).2 = .ok outcome) : r.Within s.config.ceilings outcome := by
  have hcompile := compile_of_execute h
  rw [after_config] at hcompile
  exact Request.within_of_compile hcompile

end Service

/-- **The ceilings of the settings hold for every request.**  In every environment both ceilings are
positive.  Whatever the application was asked before, whatever its clock shows and whatever becomes
of its metrics, what it returns is within them: the words of a search under `complex` or under all
strategies and the word of a bundle, and the number of contexts.  It refuses a request as too long,
or for too many contexts, only beyond them, and no search under another strategy as too long.
Strategies are given as options or by name, in any mix of cases and with white space around it. -/
theorem ceilings_hold {m : Metric.Client} (env : Environment) (o : Orthography)
    (c : Trace.Collector) (registry : m.Registry) (before : List Request) :
    let ceilings := (Settings.ofEnvironment env).ceilings
    let s := (Application.start (Settings.ofEnvironment env) o c registry).after before
    (1 ≤ ceilings.wordLength ∧ 1 ≤ ceilings.contextTerms) ∧
    (∀ r outcome, (s.execute r).2 = .ok outcome → r.Within ceilings outcome) ∧
    (∀ v : Variation,
      Strategy.ofValue? v.strategy ∈ [some .simple, some .medium, some .historical] →
      ∀ e, (s.execute (.variation v)).2 = .ok (.refused e) → e.kind ≠ .inputTooLong) ∧
    (∀ v e, (s.execute (.proximity v)).2 = .ok (.refused e) → e.kind ≠ .inputTooLong) ∧
    ∀ e ∈ [("simple", Strategy.simple), ("medium", .medium), ("complex", .complex),
        ("historical", .historical), ("all", .combined)],
      Strategy.ofValue? (.choice (.ofStrategy e.2)) = some e.2 ∧
        ∀ text, Says e.1 text → Strategy.ofValue? (.text text) = some e.2 := by
  intro ceilings s
  have hwithin : ∀ r outcome, (s.execute r).2 = .ok outcome → r.Within ceilings outcome :=
    fun _ _ => Service.within_of_execute
  refine ⟨⟨Environment.one_le_positive (by decide), Environment.one_le_positive (by decide)⟩,
    hwithin, ?_, ?_, ?_⟩
  · intro v hoption e hrefused hkind
    obtain ⟨hlimited, -⟩ := (hwithin _ _ hrefused).1 hkind
    rcases hlimited with hcomplex | hcombined
    · rw [hcomplex] at hoption
      revert hoption
      decide
    · rw [hcombined] at hoption
      revert hoption
      decide
  · intro v e hrefused hkind
    exact (hwithin _ _ hrefused).1 hkind
  · intro e he
    have hname : e.2.name = e.1 := by
      revert e
      decide
    exact ⟨rfl, fun text hsays => Strategy.ofValue?_of_says (hname ▸ hsays)⟩

/-- Under a ceiling of four characters, with white space around it, a word of five is refused under
all strategies together, and words of four are not; under the historical strategy the word of five
is compiled.  A ceiling that is not positive is not taken. -/
theorem long_word_is_refused :
    let env : Environment :=
      [("CISAME_MAX_WORD_LENGTH", .text " 4 "), ("CISAME_MAX_CONTEXT_TERMS", .text "-1")]
    let s : Service Metric.Store.client :=
      Application.start (Settings.ofEnvironment env) medieval {} {}
    let long : Variation :=
      { term1 := .text "fi@des", term2 := .text "spes", strategy := .text " All\n" }
    let short : Variation := { long with term1 := .text "@lex" }
    let respelled : Variation := { long with strategy := .text "\tHistorical" }
    (Settings.ofEnvironment env).ceilings = { wordLength := 4, contextTerms := 12 } ∧
    (∃ e, (s.execute (.variation long)).2 = .ok (.refused e) ∧ e.kind = .inputTooLong ∧
      (Request.variation long).Overlong 4) ∧
    (∃ q, (s.execute (.variation short)).2 = .ok (.query q) ∧
      q.terms = [clean short.term1, clean short.term2] ∧
      ((clean short.term1).length : Int) ≤ 4 ∧ ((clean short.term2).length : Int) ≤ 4) ∧
    ∃ q, (s.execute (.variation respelled)).2 = .ok (.query q) := by
  intro env s long short respelled
  have hceilings : (Settings.ofEnvironment env).ceilings = { wordLength := 4 } := by decide +kernel
  have hready : s.Ready := by
    have hseconds : Decimal.magnitude 0 ≠ .nan := by decide +kernel
    obtain ⟨hworking, hequipped⟩ := Service.ready_start Metric.Store.lawful
      (Application.config (Settings.ofEnvironment env) medieval) (c := {})
      ⟨Trace.Clock.reliable_standing, by decide⟩ hseconds
    exact ⟨⟨hworking.reliable, hworking.capacity_pos⟩, hequipped.held, hequipped.countable⟩
  have hresult (v : Variation) : (s.execute (.variation v)).2 =
      (v.compile (.ofOrthography medieval) {} { wordLength := 4 }).map .ofQuery := by
    rw [← hceilings]
    exact (Service.recorded_call hready Metric.Store.lawful (.variation v)).result
  have hquery (v : Variation) (t : Strategy) (h1 : clean v.term1 ≠ "") (h2 : clean v.term2 ≠ "")
      (hattr : Attribute.ofValue? v.attr = some .wordForm)
      (hstrategy : Strategy.ofValue? v.strategy = some t)
      (hshort :
        ¬(t.isPairwise && (exceeds (clean v.term1) 4 || exceeds (clean v.term2) 4)) = true) :
      ∃ q, (s.execute (.variation v)).2 = .ok (.query q) := by
    have hcompiled : ∃ q, v.compile (.ofOrthography medieval) {} { wordLength := 4 } =
        .ok (.ok q) :=
      ⟨_, Variation.compile_eq_ok_iff.2 ⟨_, _, _, _, ⟨h1, h2, hattr, hstrategy, hshort, rfl, rfl,
        Pattern.patterns_ne_nil h1, Pattern.patterns_ne_nil h2⟩, rfl⟩⟩
    obtain ⟨q, hq⟩ := hcompiled
    refine ⟨q, ?_⟩
    rw [hresult, hq]
    rfl
  obtain ⟨-, hwithin, -⟩ := ceilings_hold (m := Metric.Store.client) env medieval {} {} []
  rw [hceilings] at hwithin
  have hall : Strategy.ofValue? long.strategy = some .combined := by decide +kernel
  have hlong : clean long.term1 ≠ "" := by decide +kernel
  have hshort : clean short.term1 ≠ "" := by decide +kernel
  have hsecond : clean long.term2 ≠ "" := by decide +kernel
  refine ⟨hceilings, ?_, ?_, ?_⟩
  · have hrefused : (s.execute (.variation long)).2 = .ok (.refused (.tooLongFor .combined 4)) := by
      rw [hresult, Variation.compile_eq_error_iff.2 (.tooLongFor hlong hsecond rfl hall
        (by unfold Variation.TooLong; decide +kernel))]
      rfl
    exact ⟨_, hrefused, rfl, (hwithin _ _ hrefused).1 rfl⟩
  · obtain ⟨q, hq⟩ := hquery short .combined hshort hsecond rfl hall (by decide +kernel)
    exact ⟨q, hq, hwithin _ _ hq (.inr hall)⟩
  · exact hquery respelled .historical hlong hsecond rfl (by decide +kernel) (by decide +kernel)

end Concordance
