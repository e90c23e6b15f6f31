import Concordance.Proofs.Pattern.Alphabet
import Concordance.Proofs.Query.Compiled

/-!
# A result reproduces itself

What a request was compiled from stands in the record of its query, in a form that no reading
changes any more: terms are clean, the distance is within its bounds, options have their names.  To
compile the request that the record holds gives the same query.

* `clamp_clamp`, `read_int_read` — a clamped distance stays what it is.
* `Attribute.ofValue?_name`, `Strategy.ofValue?_name`, `Mode.ofValue?_name` — the name of an option
  is read as that option.
* `Value.field`, `Value.item` — the fields of a record and the items of a list.
* `Proximity.ofRecord`, `Variation.ofRecord`, `Semantic.ofRecord` — the request that a record holds.
* `Proximity.compiled_congr`, `Variation.assemble_congr`, `Semantic.compiled_congr` — requests that
  are read alike are compiled alike.
* `compiled_request_reproduces_itself` — so it is for each kind of request, and for bundles.
-/

namespace Concordance

/-! ## Readings that change nothing any more -/

namespace Distance

theorem clamp_clamp (limits : Limits) (e : Extent) :
    limits.clamp (.number (limits.clamp e)) = limits.clamp e := by
  match e with
  | .number n =>
    show max limits.minimum (min limits.maximum (max limits.minimum (min limits.maximum n))) =
      max limits.minimum (min limits.maximum n)
    omega
  | .beyond true =>
    show max limits.minimum (min limits.maximum limits.minimum) = limits.minimum
    omega
  | .beyond false =>
    show max limits.minimum (min limits.maximum (max limits.minimum limits.maximum)) =
      max limits.minimum limits.maximum
    omega

/-- A distance that was read is read as itself, also where the bounds cross. -/
theorem read_int_read (limits : Limits) (fallback : Int) (v : Value) :
    limits.read fallback (.int (limits.read fallback v)) = limits.read fallback v :=
  clamp_clamp limits _

end Distance

theorem Attribute.ofValue?_name (a : Attribute) :
    Attribute.ofValue? (.text a.name) = some a := by
  cases a <;> decide +kernel

theorem Strategy.ofValue?_name (t : Strategy) : Strategy.ofValue? (.text t.name) = some t := by
  cases t <;> decide +kernel

theorem Mode.ofValue?_name {m : Mode} (h : m.isSemantic = true) :
    Mode.ofValue? (.text m.name) = some m := by
  cases m with
  | proximity | proximityWithVariation => cases h
  | semanticAny | semanticPhrase | semanticAll => decide +kernel

/-- Only the modes of semantic searches are read from values. -/
theorem Mode.isSemantic_of_ofValue? {v : Value} {m : Mode} (h : Mode.ofValue? v = some m) :
    m.isSemantic = true := by
  unfold Mode.ofValue? at h
  split at h
  · split at h
    · rename_i hsemantic
      cases h
      exact hsemantic
    · cases h
  · exact (Option.filter_eq_some_iff.1 h).2

/-! ## The fields of a record -/

namespace Value

/-- The value under a name in a record; nothing where there is none. -/
def field (v : Value) (name : String) : Value :=
  match v with
  | record entries => (lookup? (text name) entries).getD null
  | _ => null

/-- An item of a list; nothing where there is none. -/
def item (v : Value) (i : Nat) : Value :=
  match v with
  | list items => items.getD i null
  | _ => null

end Value

/-- A term alone that was cleaned is cleaned to itself. -/
theorem Term.clean_clean {v : Value} (h : Term.clean v ≠ "") :
    Term.clean (.text (Term.clean v)) = Term.clean v :=
  Term.clean_of_isTerm (Term.isTerm_clean h)

namespace Query

open Concordance.Term

variable {limits : Distance.Limits} {ceilings : Limits} {generator : Pattern.Generator} {q : Query}

/-! ## Proximity searches -/

/-- The request that the record of a query holds; it does not say whether repeats are excluded. -/
def Proximity.ofRecord (v excludeRepeats : Value) : Proximity where
  term1 := (v.field "terms").item 0
  term2 := (v.field "terms").item 1
  distance := v.field "distance"
  attr := v.field "attribute"
  bidirectional := v.field "bidirectional"
  excludeRepeats := excludeRepeats

theorem Proximity.ofRecord_record {s t : String} (h : q.terms = [s, t]) (excludeRepeats : Value) :
    Proximity.ofRecord q.record excludeRepeats =
      ⟨.text s, .text t, .int q.distance, .text q.attr, .bool q.bidirectional, excludeRepeats⟩ := by
  simp [Proximity.ofRecord, record, Value.field, Value.item, Value.lookup?, h, texts]

/-- Requests that are read alike are compiled alike. -/
theorem Proximity.compiled_congr {r r' : Proximity} (attr : Attribute)
    (h1 : clean r.term1 = clean r'.term1) (h2 : clean r.term2 = clean r'.term2)
    (hdistance : limits.read limits.proximity r.distance =
      limits.read limits.proximity r'.distance)
    (hboth : r.bidirectional.truthy = r'.bidirectional.truthy)
    (hexclude : r.excludeRepeats.truthy = r'.excludeRepeats.truthy) :
    r.compiled limits attr = r'.compiled limits attr := by
  simp only [Proximity.compiled, Proximity.expression, Proximity.excluded, h1, h2, hdistance, hboth,
    hexclude]

theorem Proximity.reproduces {r : Proximity} (h : r.compile limits = .ok q) :
    (Proximity.ofRecord q.record r.excludeRepeats).compile limits = .ok q := by
  obtain ⟨h1, h2, attr, -, rfl⟩ := Proximity.compile_eq_ok_iff.1 h
  rw [Proximity.ofRecord_record rfl, Proximity.compile_eq_ok_iff, clean_clean h1, clean_clean h2]
  refine ⟨h1, h2, attr, attr.ofValue?_name, ?_⟩
  exact Proximity.compiled_congr attr (clean_clean h1).symm (clean_clean h2).symm
    (Distance.read_int_read _ _ _).symm rfl rfl

/-! ## Searches for spellings -/

/-- The request that the record of a query holds. -/
def Variation.ofRecord (v : Value) : Variation where
  term1 := (v.field "terms").item 0
  term2 := (v.field "terms").item 1
  distance := v.field "distance"
  strategy := v.field "variation_type"
  attr := v.field "attribute"
  bidirectional := v.field "bidirectional"

theorem Variation.ofRecord_record {s t name : String} (h : q.terms = [s, t])
    (hstrategy : q.strategy = some name) :
    Variation.ofRecord q.record =
      ⟨.text s, .text t, .int q.distance, .text name, .text q.attr, .bool q.bidirectional⟩ := by
  simp [Variation.ofRecord, record, Value.field, Value.item, Value.lookup?, h, hstrategy, texts]

/-- Requests that are read alike are compiled alike. -/
theorem Variation.assemble_congr {r r' : Variation} (attr : Attribute) (strategy : Strategy)
    {first first' second second' : String} (patterns1 patterns2 : List String)
    (h1 : first = first') (h2 : second = second')
    (hdistance : limits.read limits.proximity r.distance =
      limits.read limits.proximity r'.distance)
    (hboth : r.bidirectional.truthy = r'.bidirectional.truthy) :
    r.assemble limits attr strategy first second patterns1 patterns2 =
      r'.assemble limits attr strategy first' second' patterns1 patterns2 := by
  simp only [Variation.assemble, h1, h2, hdistance, hboth]

theorem Variation.reproduces {r : Variation}
    (h : r.compile generator limits ceilings = .ok (.ok q)) :
    (Variation.ofRecord q.record).compile generator limits ceilings = .ok (.ok q) := by
  obtain ⟨attr, strategy, patterns1, patterns2, hr, rfl⟩ := Variation.compile_eq_ok_iff.1 h
  have h1 := clean_clean hr.term1
  have h2 := clean_clean hr.term2
  rw [Variation.ofRecord_record rfl rfl, Variation.compile_eq_ok_iff]
  refine ⟨attr, strategy, patterns1, patterns2, ⟨?_, ?_, attr.ofValue?_name, strategy.ofValue?_name,
    ?_, ?_, ?_, hr.patterns1_ne_nil, hr.patterns2_ne_nil⟩, ?_⟩
  · rw [h1]
    exact hr.term1
  · rw [h2]
    exact hr.term2
  · rw [h1, h2]
    exact hr.notTooLong
  · rw [h1]
    exact hr.patterns1_eq
  · rw [h2]
    exact hr.patterns2_eq
  · exact Variation.assemble_congr attr strategy patterns1 patterns2 h1.symm h2.symm
      (Distance.read_int_read _ _ _).symm rfl

/-! ## Semantic searches -/

/-- The request that the record of a query holds. -/
def Semantic.ofRecord (v : Value) : Semantic where
  central := (v.field "terms").item 0
  contexts := v.field "context_terms"
  distance := v.field "distance"
  mode := v.field "mode"
  attr := v.field "attribute"

theorem Semantic.ofRecord_record {c : String} (h : q.terms = [c]) (hstrategy : q.strategy = none)
    (hcontexts : q.contextTerms ≠ []) :
    Semantic.ofRecord q.record =
      ⟨.text c, texts q.contextTerms, .int q.distance, .text q.mode.name, .text q.attr⟩ := by
  simp [Semantic.ofRecord, record, Value.field, Value.item, Value.lookup?, h, hstrategy, hcontexts,
    texts]

/-- Requests that are read alike are compiled alike. -/
theorem Semantic.compiled_congr {r r' : Semantic} (mode : Mode) (attr : Attribute)
    (hcentral : clean r.central = clean r'.central)
    (hcontexts : Term.contextTerms r.contexts = Term.contextTerms r'.contexts)
    (hdistance : limits.read limits.semantic r.distance =
      limits.read limits.semantic r'.distance) :
    r.compiled limits mode attr = r'.compiled limits mode attr := by
  simp only [Semantic.compiled, Semantic.expression, hcentral, hcontexts, hdistance]

/-- A list of texts names contexts unless it is empty. -/
theorem namesContexts_texts {ts : List String} (h : ts ≠ []) : namesContexts (texts ts) = true := by
  cases ts with
  | nil => exact absurd rfl h
  | cons t rest => rfl

theorem Semantic.reproduces {r : Semantic} (h : r.compile limits ceilings = .ok q) :
    (Semantic.ofRecord q.record).compile limits ceilings = .ok q := by
  obtain ⟨mode, attr, hr, rfl⟩ := Semantic.compile_eq_ok_iff.1 h
  have hcentral := clean_clean hr.central
  have hcontexts : Term.contextTerms (texts (Term.contextTerms r.contexts)) =
      Term.contextTerms r.contexts :=
    contextTerms_texts (fun _ => isTerm_of_mem_contextTerms) (nodup_contextTerms _)
  have hmode := Mode.ofValue?_name (Mode.isSemantic_of_ofValue? hr.mode_eq)
  rw [Semantic.ofRecord_record rfl rfl hr.contexts_ne_nil, Semantic.compile_eq_ok_iff]
  refine ⟨mode, attr, ⟨?_, namesContexts_texts hr.contexts_ne_nil, hmode, attr.ofValue?_name,
    ?_, ?_⟩, ?_⟩
  · rw [hcentral]
    exact hr.central
  · show Term.contextTerms (texts (Term.contextTerms r.contexts)) ≠ []
    rw [hcontexts]
    exact hr.contexts_ne_nil
  · show ¬ceilings.contextTerms <
      ((Term.contextTerms (texts (Term.contextTerms r.contexts))).length : Int)
    rw [hcontexts]
    exact hr.notTooMany
  · exact Semantic.compiled_congr mode attr hcentral.symm hcontexts.symm
      (Distance.read_int_read _ _ _).symm

/-! ## Bundles -/

/-- The request that a bundle holds. -/
def BundleRequest.ofBundle (b : Bundle) : BundleRequest :=
  ⟨.text b.word, b.suffixed, .text b.attr⟩

theorem BundleRequest.reproduces {r : BundleRequest} {b : Bundle}
    (h : r.compile generator ceilings = .ok (.ok b)) :
    (BundleRequest.ofBundle b).compile generator ceilings = .ok (.ok b) := by
  obtain ⟨hword, hlong, attr, found, -, hfound, rfl⟩ := BundleRequest.compile_eq_ok_iff.1 h
  have hclean := clean_clean hword
  unfold BundleRequest.ofBundle BundleRequest.compiled
  rw [BundleRequest.compile_eq_ok_iff, hclean]
  refine ⟨hword, hlong, attr, found, attr.ofValue?_name, hfound, ?_⟩
  unfold BundleRequest.compiled
  rw [hclean]

end Query

open Query in
/-- **A result reproduces itself.**  The request that the record of a query holds, or a bundle, is
compiled to that same query or bundle, whatever the request, the bounds of distances and the
generator of patterns are. -/
theorem compiled_request_reproduces_itself (limits : Distance.Limits) (ceilings : Limits)
    (generator : Pattern.Generator) :
    (∀ (r : Proximity) (q : Query), r.compile limits = .ok q →
      (Proximity.ofRecord q.record r.excludeRepeats).compile limits = .ok q) ∧
    (∀ (r : Variation) (q : Query), r.compile generator limits ceilings = .ok (.ok q) →
      (Variation.ofRecord q.record).compile generator limits ceilings = .ok (.ok q)) ∧
    (∀ (r : Semantic) (q : Query), r.compile limits ceilings = .ok q →
      (Semantic.ofRecord q.record).compile limits ceilings = .ok q) ∧
    (∀ (r : BundleRequest) (b : Bundle), r.compile generator ceilings = .ok (.ok b) →
      (BundleRequest.ofBundle b).compile generator ceilings = .ok (.ok b)) := by
  refine ⟨?_, ?_, ?_, ?_⟩
  · intro r q h
    exact Proximity.reproduces h
  · intro r q h
    exact Variation.reproduces h
  · intro r q h
    exact Semantic.reproduces h
  · intro r b h
    exact BundleRequest.reproduces h

open Query in
/-- Requests in any case, with padding, repeats and bounds that cross reproduce themselves. -/
theorem padded_request_reproduces_itself :
    let limits : Distance.Limits := { minimum := 7, maximum := 3 }
    let near : Proximity :=
      { term1 := .text " ra@tio "
        term2 := .text "fides"
        distance := .text "12 tokens"
        attr := .text " WORD "
        excludeRepeats := .int 1 }
    let spelled : Variation :=
      { term1 := .text " ra@tio "
        term2 := .text "fides"
        strategy := .text " Medieval\n" }
    let among : Semantic :=
      { central := .text " ra@tio "
        contexts := .text "fides,, spes, fides "
        mode := .text "ALL" }
    let bundled : BundleRequest := { word := .text " ra@tio ", suffixed := .text "yes" }
    (∃ q, near.compile limits = .ok q ∧ q.distance = 7 ∧
      (Proximity.ofRecord q.record near.excludeRepeats).compile limits = .ok q) ∧
    (∃ q, spelled.compile (.ofOrthography medieval) limits {} = .ok (.ok q) ∧
      q.strategy = some "historical" ∧
      (Variation.ofRecord q.record).compile (.ofOrthography medieval) limits {} = .ok (.ok q)) ∧
    (∃ q, among.compile limits {} = .ok q ∧ q.contextTerms = ["fides", "spes"] ∧
      (Semantic.ofRecord q.record).compile limits {} = .ok q) ∧
    ∃ b, bundled.compile (.ofOrthography medieval) {} = .ok (.ok b) ∧ b.word = "ratio" ∧
      (BundleRequest.ofBundle b).compile (.ofOrthography medieval) {} = .ok (.ok b) := by
  intro limits near spelled among bundled
  obtain ⟨hnear, hspelled, hamong, hbundled⟩ :=
    compiled_request_reproduces_itself limits {} (.ofOrthography medieval)
  have h1 : Term.clean (.text " ra@tio ") ≠ "" := by decide +kernel
  have h2 : Term.clean (.text "fides") ≠ "" := by decide +kernel
  refine ⟨?_, ?_, ?_, ?_⟩
  · have h : near.compile limits = .ok (near.compiled limits .wordForm) :=
      Proximity.compile_eq_ok_iff.2 ⟨h1, h2, _, by decide +kernel, rfl⟩
    exact ⟨_, h, by decide +kernel, hnear _ _ h⟩
  · have h : spelled.compile (.ofOrthography medieval) limits {} =
        .ok (.ok (spelled.assemble limits .wordForm .historical _ _ _ _)) :=
      Variation.compile_eq_ok_iff.2 ⟨_, _, _, _, ⟨h1, h2, rfl, by decide +kernel, by decide +kernel,
        rfl, rfl, Pattern.patterns_ne_nil h1, Pattern.patterns_ne_nil h2⟩, rfl⟩
    exact ⟨_, h, rfl, hspelled _ _ h⟩
  · have h : among.compile limits {} = .ok (among.compiled limits .semanticAll .lemmaForm) :=
      Semantic.compile_eq_ok_iff.2 ⟨_, _, ⟨h1, by decide +kernel, by decide +kernel, rfl,
        by decide +kernel, by decide +kernel⟩, rfl⟩
    exact ⟨_, h, by decide +kernel, hamong _ _ h⟩
  · have h : bundled.compile (.ofOrthography medieval) {} =
        .ok (.ok (bundled.compiled .wordForm _)) :=
      BundleRequest.compile_eq_ok_iff.2 ⟨h1, by decide +kernel, _, _, rfl,
        patternsUnder_ofOrthography _ _ _ _, rfl⟩
    exact ⟨_, h, by decide +kernel, hbundled _ _ h⟩

end Concordance
