import Concordance.Form.Board
import Concordance.Form.Sheet
import Concordance.Proofs.Metric.Lawful
import Concordance.Proofs.Service.Run

/-!
# Both front ends show what was compiled

Whatever happened on a service before, a form filled in on the board or on the sheet shows the page
of what its values compile to, or raises what the compilation raises.

* `ContextMode` — the modes that both front ends offer under one label.
* `Filled`, `Filled.built` — the values of a form, and the compilation that they stand for.
* `Filled.press_eq`, `Filled.draw_eq` — the button of the board and the submitted form of the sheet.
* `front_ends_show_built_page` — both show the page of the compilation, after every history.
-/

namespace Concordance.Form

open Concordance.Trace Concordance.Metric

/-! ## Filled forms -/

/-- The modes that both front ends offer. -/
inductive ContextMode where
  | any
  | phrase
  | all
  deriving DecidableEq, Repr

namespace ContextMode

/-- The label under which both front ends show the mode. -/
def label : ContextMode → String
  | any => "At least one context lemma"
  | phrase => "One pairing per context lemma"
  | all => "Every pair of context lemmas"

/-- The value that the board gives for the mode. -/
def code : ContextMode → String
  | any => "any"
  | phrase => "phrase"
  | all => "all"

def mode : ContextMode → Mode
  | any => .semanticAny
  | phrase => .semanticPhrase
  | all => .semanticAll

end ContextMode

/-- The values that a form was filled in with. -/
inductive Filled where
  | proximity (term1 term2 distance attr bothOrders excludeRepeats : Value)
  | variation (term1 term2 distance strategy attr bothOrders : Value)
  | semantic (central contexts distance : Value) (mode : ContextMode)
  | bundle (word suffixed attr : Value)

namespace Filled

/-- The form of the board. -/
def tab : Filled → Board.Tab
  | proximity .. => .proximity
  | variation .. => .variation
  | semantic .. => .semantic
  | bundle .. => .bundle

/-- The form of the sheet. -/
def part : Filled → Sheet.Section
  | proximity .. => .proximity
  | variation .. => .variation
  | semantic .. => .semantic
  | bundle .. => .bundle

/-- The values under their labels, with the context mode as the front end gives it. -/
def entered (giveMode : ContextMode → String) : Filled → Entered
  | proximity term1 term2 distance attr bothOrders excludeRepeats =>
    [("First lemma", term1), ("Second lemma", term2), ("Maximum distance (tokens)", distance),
      ("Search attribute", attr), ("Both orders", bothOrders),
      ("Exclude repeated lemmas between the two", excludeRepeats)]
  | variation term1 term2 distance strategy attr bothOrders =>
    [("First lemma", term1), ("Second lemma", term2), ("Maximum distance (tokens)", distance),
      ("Variation type", strategy), ("Search attribute", attr), ("Both orders", bothOrders)]
  | semantic central contexts distance mode =>
    [("Central lemma", central), ("Context lemmas", contexts),
      ("Maximum distance (tokens)", distance), ("Context mode", .text (giveMode mode))]
  | bundle word suffixed attr =>
    [("Word", word), ("Match inflected endings", suffixed), ("Search attribute", attr)]

/-- The request of a filled form. -/
def request : Filled → Request
  | proximity term1 term2 distance attr bothOrders excludeRepeats =>
    .proximity ⟨term1, term2, distance, attr, bothOrders, excludeRepeats⟩
  | variation term1 term2 distance strategy attr bothOrders =>
    .variation ⟨term1, term2, distance, strategy, attr, bothOrders⟩
  | semantic central contexts distance mode =>
    .semantic { central, contexts, distance, mode := .choice (.ofMode mode.mode) }
  | bundle word suffixed attr => .bundle ⟨word, suffixed, attr⟩

/-- What the values compile to without any service, but with its tables, limits and ceilings. -/
def built (config : Config) : Filled → Except Fault Outcome
  | proximity term1 term2 distance attr bothOrders excludeRepeats =>
    .ok (.ofQuery (Query.Proximity.compile
      { term1, term2, distance, attr, bidirectional := bothOrders, excludeRepeats } config.limits))
  | variation term1 term2 distance strategy attr bothOrders =>
    (Query.Variation.compile
      { term1, term2, distance, strategy, attr, bidirectional := bothOrders }
      config.generator config.limits config.ceilings).map .ofQuery
  | semantic central contexts distance mode =>
    .ok (.ofQuery (Query.Semantic.compile
      { central, contexts, distance, mode := .choice (.ofMode mode.mode) }
      config.limits config.ceilings))
  | bundle word suffixed attr =>
    (Query.BundleRequest.compile { word, suffixed, attr } config.generator config.ceilings).map
      .ofBundle

/-- The page of what the values compile to. -/
def page (config : Config) (form : Filled) : Except Fault String :=
  (form.built config).map (Outcome.page config.baseUrl)

theorem compile_request (config : Config) (form : Filled) :
    form.request.compile config = form.built config := by
  cases form <;> rfl

theorem request_tab (form : Filled) :
    form.tab.request (form.entered ContextMode.code) = .ok form.request := by
  cases form with
  | semantic central contexts distance mode => cases mode <;> rfl
  | proximity | variation | bundle => rfl

theorem request_part (form : Filled) :
    form.part.request (form.entered ContextMode.label) = .ok form.request := by
  cases form with
  | semantic central contexts distance mode => cases mode <;> rfl
  | proximity | variation | bundle => rfl

end Filled

/-! ## Submitting -/

variable {m : Client} {s : Service m}

/-- A submitted request shows the page of its compilation. -/
theorem submit_eq (h : s.Ready) (hm : m.Lawful) (r : Request) :
    (submit s r).2 = (r.compile s.config).map (Outcome.page s.config.baseUrl) := by
  have hresult : (s.execute r).2 = r.compile s.config := (Service.recorded_call h hm r).result
  have hpage : (s.execute r).1.page = Outcome.page s.config.baseUrl := by
    funext outcome
    rw [Service.page, Service.config_execute h hm]
  show (s.execute r).2.map (s.execute r).1.page = _
  rw [hresult, hpage]

theorem Filled.press_eq (h : s.Ready) (hm : m.Lawful) (form : Filled) :
    (form.tab.press s (form.entered ContextMode.code)).2 = form.page s.config := by
  rw [Board.Tab.press, form.request_tab]
  exact (submit_eq h hm _).trans (by rw [form.compile_request, Filled.page])

/-- The line of the sheet that answers the form. -/
def Filled.line (form : Filled) (text : String) : Sheet.Line :=
  { kind := "markdown", form := some form.part.name, text }

theorem Filled.answer_eq (h : s.Ready) (hm : m.Lawful) (form : Filled) :
    (form.part.answer s (form.entered ContextMode.label)).2 =
      (form.page s.config).map form.line := by
  have hsubmit : (submit s form.request).2 = form.page s.config :=
    (submit_eq h hm _).trans (by rw [form.compile_request, Filled.page])
  rw [Sheet.Section.answer, form.request_part, ← hsubmit]
  dsimp only
  cases hresult : submit s form.request with
  | mk after result => cases result <;> rfl

/-- Forms that are not submitted are not answered. -/
theorem answers_of_not_submitted (s : Service m) {submitted : Sheet.Section → Bool}
    (entered : Sheet.Section → Entered) {ts : List Sheet.Section}
    (h : ∀ t ∈ ts, submitted t = false) : Sheet.answers s submitted entered ts = (s, .ok []) := by
  induction ts with
  | nil => rfl
  | cons t rest ih =>
    obtain ⟨ht, hrest⟩ := List.forall_mem_cons.1 h
    rw [Sheet.answers, ht]
    exact ih hrest

/-- If one form is submitted, the lines of the sheet are its answer alone. -/
theorem answers_single (s : Service m) (entered : Sheet.Section → Entered) {t : Sheet.Section}
    {ts : List Sheet.Section} (hts : ts.Nodup) (ht : t ∈ ts) :
    (Sheet.answers s (· = t) entered ts).2 = (t.answer s (entered t)).2.map ([·]) := by
  induction ts with
  | nil => cases ht
  | cons u rest ih =>
    obtain ⟨hu, hrest⟩ := List.nodup_cons.1 hts
    by_cases hut : u = t
    · subst hut
      have hothers : ∀ v ∈ rest, decide (v = u) = false := fun v hv =>
        decide_eq_false fun h => hu (h ▸ hv)
      rw [Sheet.answers, if_pos (decide_eq_true rfl)]
      cases u.answer s (entered u) with
      | mk after result =>
        cases result with
        | error fault => rfl
        | ok line =>
          dsimp only
          rw [answers_of_not_submitted after entered hothers]
          rfl
    · rw [Sheet.answers, if_neg (by simpa using hut)]
      exact ih hrest ((List.mem_cons.1 ht).resolve_left (Ne.symm hut))

theorem section_mem_order (t : Sheet.Section) : t ∈ Sheet.Section.order := by
  cases t <;> decide

theorem Filled.draw_eq (h : s.Ready) (hm : m.Lawful) (form : Filled)
    {entered : Sheet.Section → Entered}
    (hentered : entered form.part = form.entered ContextMode.label) :
    (Sheet.draw s (· = form.part) entered).2 =
      (form.page s.config).map fun text => Sheet.header ++ [form.line text] := by
  have hanswers := answers_single s entered (by decide) (section_mem_order form.part)
  rw [hentered, form.answer_eq h hm] at hanswers
  show (Sheet.answers s (· = form.part) entered Sheet.Section.order).2.map (Sheet.header ++ ·) = _
  rw [hanswers]
  cases form.page s.config <;> rfl

/-- On services with one configuration, whatever their listeners are and whatever was asked before,
the button of the board and the one submitted form of the sheet show the page of what the values
compile to, or pass on the fault of the compilation. -/
theorem front_ends_show_built_page (hm : m.Lawful) (config : Config) {c1 c2 : Collector}
    (h1 : c1.Working) (h2 : c2.Working) {seconds : Float}
    (hseconds : Decimal.magnitude seconds ≠ .nan) (before1 before2 : List Request) (form : Filled)
    (entered : Sheet.Section → Entered)
    (hentered : entered form.part = form.entered ContextMode.label) :
    let new (c : Collector) : Service m := { Service.start config c m.fresh with seconds }
    let s1 := (new c1).after before1
    let s2 := (new c2).after before2
    let page := (form.built config).map (Outcome.page config.baseUrl)
    (form.tab.press s1 (form.entered ContextMode.code)).2 = page ∧
      (Sheet.draw s2 (· = form.part) entered).2 =
        page.map fun text => Sheet.header ++ [form.line text] := by
  intro new s1 s2 page
  have hs1 := Service.ready_start hm config h1 hseconds
  have hs2 := Service.ready_start hm config h2 hseconds
  have hpress := form.press_eq (Service.ready_after hs1 hm before1) hm
  have hdraw := form.draw_eq (Service.ready_after hs2 hm before2) hm hentered
  rw [Service.config_after hs1 hm] at hpress
  rw [Service.config_after hs2 hm] at hdraw
  exact ⟨hpress, hdraw⟩

/-- Behind a search that failed, with listeners that fail or empty what they get, a fault reaches
both front ends and so does a page. -/
theorem fault_and_page_reach_both :
    let config : Config :=
      { generator := { name := "none", generate := fun _ _ _ => .error (.failure "boom") }
        baseUrl := "B?cql=" }
    let c : Collector :=
      { listeners := [.failing "broken" (.failure "stop"), .emptying "greedy"] }
    let spelled : Filled := .variation (.text "ratio") (.text "fides") (.int 10) (.text "simple")
      (.text "word") (.bool true)
    let among : Filled := .semantic (.text "ratio") (.text "fides, spes") (.text "7") .phrase
    let new (c : Collector) : Service Store.client := Service.start config c {}
    let s1 := (new c).after [spelled.request]
    let s2 := new {}
    Store.client.Lawful ∧ c.Working ∧ Collector.Working {} ∧ Decimal.magnitude 0 ≠ .nan ∧
    (spelled.tab.press s1 (spelled.entered ContextMode.code)).2 = .error (.failure "boom") ∧
    (Sheet.draw s2 (· = spelled.part) fun _ => spelled.entered ContextMode.label).2 =
      .error (.failure "boom") ∧
    ∃ text, (among.tab.press s1 (among.entered ContextMode.code)).2 = .ok text ∧
      (Sheet.draw s2 (· = among.part) fun _ => among.entered ContextMode.label).2 =
        .ok (Sheet.header ++ [among.line text]) := by
  intro config c spelled among new s1 s2
  have hc : c.Working := ⟨Clock.reliable_standing, by decide⟩
  have hplain : Collector.Working {} := ⟨Clock.reliable_standing, by decide⟩
  have hseconds : Decimal.magnitude 0 ≠ .nan := by decide +kernel
  obtain ⟨hpress, hdraw⟩ := front_ends_show_built_page Store.lawful config hc hplain hseconds
    [spelled.request] [] spelled (fun _ => spelled.entered ContextMode.label) rfl
  obtain ⟨hpress', hdraw'⟩ := front_ends_show_built_page Store.lawful config hc hplain hseconds
    [spelled.request] [] among (fun _ => among.entered ContextMode.label) rfl
  refine ⟨Store.lawful, hc, hplain, hseconds, hpress, hdraw, ?_⟩
  exact ⟨_, hpress', hdraw'⟩

end Concordance.Form
