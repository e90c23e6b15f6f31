import Concordance.Proofs.Page.Fence
import Concordance.Proofs.Query.Reading

/-!
# Compiled texts can be shown

No value of a compiled query holds a backquote or a parenthesis, so the only parentheses of its text
are those around groups, and these are balanced.

* `isFree` — the characters that neither end a fence nor count as a parenthesis.
* `Showable.append`, `Showable.parenthesize`, `Showable.intercalate` — showable texts put together.
* `Item.showable_render`, `Expression.Free.showable_text` — a text made of free tests is showable.
* `Proximity.showable`, `Variation.showable`, `Semantic.showable` — so are the texts that requests
  are compiled to.
-/

namespace Concordance

open Concordance.Cql Concordance.Term Concordance.Text Concordance.Pattern Concordance.Page

namespace Page

/-- The characters that neither end a fence nor count as a parenthesis. -/
def isFree (c : Char) : Bool :=
  !(tick :: parentheses).contains c

theorem isFree_iff {c : Char} : isFree c = true ↔ c ∉ tick :: parentheses := by
  rw [isFree, Bool.not_eq_true', ← Bool.not_eq_true, List.contains_iff_mem]

theorem showable_of_free {cs : List Char} (h : ∀ c ∈ cs, isFree c = true) : Showable cs := by
  have hnot : ∀ d ∈ tick :: parentheses, d ∉ cs := fun d hd hmem => isFree_iff.1 (h d hmem) hd
  exact ⟨hnot _ (by decide), balanced_of_notMem (hnot _ (by decide)) (hnot _ (by decide))⟩

theorem showable_of_all {cs : List Char} (h : cs.all isFree = true) : Showable cs :=
  showable_of_free (List.all_eq_true.1 h)

namespace Showable

variable {a b : List Char}

theorem append (ha : Showable a) (hb : Showable b) : Showable (a ++ b) where
  noTick := fun h => (List.mem_append.1 h).elim ha.noTick hb.noTick
  balanced := ha.balanced.append hb.balanced

theorem parenthesize (ha : Showable a) : Showable ('(' :: (a ++ [')'])) where
  noTick := by
    have hopen : tick ≠ '(' := by decide
    have hclose : tick ≠ ')' := by decide
    simp [ha.noTick, hopen, hclose]
  balanced := ha.balanced.parenthesize

theorem intercalate {mark : List Char} (hmark : Showable mark) {parts : List (List Char)}
    (h : ∀ p ∈ parts, Showable p) : Showable (mark.intercalate parts) where
  noTick := by
    have hne : ∀ {cs : List Char}, tick ∉ cs → ∀ c ∈ cs, c ≠ tick := fun hcs c hc hct =>
      hcs (hct ▸ hc)
    exact fun hmem => forall_mem_intercalate (hne hmark.noTick) (fun p hp => hne (h p hp).noTick) _
      hmem rfl
  balanced := Balanced.intercalate hmark.balanced fun p hp => (h p hp).balanced

/-- Texts side by side, with a showable mark between them. -/
theorem intercalate_texts {mark : String} (hmark : Showable mark.toList) {parts : List String}
    (h : ∀ p ∈ parts, Showable p.toList) : Showable (mark.intercalate parts).toList := by
  rw [String.toList_intercalate]
  refine intercalate hmark fun p hp => ?_
  obtain ⟨q, hq, rfl⟩ := List.mem_map.1 hp
  exact h q hq

end Showable

/-- A class of characters without the three others is free. -/
theorem isFree_of_class {p : Char → Bool} (hp : (tick :: parentheses).any p = false) {c : Char}
    (h : p c = true) : isFree c = true :=
  isFree_iff.2 fun hmem => List.any_eq_false.1 hp c hmem h

theorem isFree_of_isDigit {c : Char} (h : c.isDigit = true) : isFree c = true :=
  isFree_of_class (by decide) h

theorem showable_intText (n : Int) : Showable (Decimal.intText n).toList := by
  have hdigits : ∀ m, ∀ c ∈ Nat.toDigits 10 m, isFree c = true := fun m c hc =>
    isFree_of_isDigit (Nat.isDigit_of_mem_toDigits (by decide) (by decide) hc)
  rw [Decimal.intText, String.toList_ofList]
  cases n with
  | ofNat m => exact showable_of_free (hdigits m)
  | negSucc m => exact showable_of_free (List.forall_mem_cons.2 ⟨by decide, hdigits _⟩)

end Page

/-! ## Expressions -/

namespace Cql

/-- The attribute and the value of a test hold free characters only. -/
structure Test.Free (t : Test) : Prop where
  attr : ∀ c ∈ t.attr.toList, isFree c = true
  value : ∀ c ∈ t.value.toList, isFree c = true

theorem Test.Free.showable_render {t : Test} (h : t.Free) : Showable t.render.toList := by
  have hattr := showable_of_free h.attr
  have hvalue := showable_of_free h.value
  have hopen : Showable ['['] := showable_of_all (by decide)
  have hsign : Showable ['=', '"'] := showable_of_all (by decide)
  have hquote : Showable ['"'] := showable_of_all (by decide)
  have hclose : Showable [']'] := showable_of_all (by decide)
  rw [Test.toList_render]
  exact hopen.append ((hattr.append (hsign.append (hvalue.append hquote))).append hclose)

theorem Test.Free.showable_renderNegated {t : Test} (h : t.Free) :
    Showable t.renderNegated.toList := by
  have hattr := showable_of_free h.attr
  have hvalue := showable_of_free h.value
  have hsign : Showable ['!', '=', '"'] := showable_of_all (by decide)
  have hquote : Showable ['"'] := showable_of_all (by decide)
  rw [Test.toList_renderNegated]
  exact hattr.append (hsign.append (hvalue.append hquote))

/-- The text of an item is showable if its tests are free. -/
theorem Item.showable_render {i : Item} (h : ∀ t ∈ i.tests, t.Free) : Showable i.render.toList := by
  cases i with
  | token t => exact (h t (List.mem_singleton_self t)).showable_render
  | gap excluded bound =>
    have hclause : Showable (" & ".intercalate (excluded.map Test.renderNegated)).toList := by
      refine Showable.intercalate_texts (showable_of_all (by decide)) fun p hp => ?_
      obtain ⟨t, ht, rfl⟩ := List.mem_map.1 hp
      exact (h t ht).showable_renderNegated
    have hopen : Showable ['['] := showable_of_all (by decide)
    have hbound : Showable [']', '\x7b', '0', ','] := showable_of_all (by decide)
    have hclose : Showable ['\x7d'] := showable_of_all (by decide)
    have hall := hopen.append (hclause.append (hbound.append
      ((showable_intText bound).append hclose)))
    simpa [Item.render] using hall
  | group tests =>
    have hinner : Showable ("|".intercalate (tests.map Test.render)).toList := by
      refine Showable.intercalate_texts (showable_of_all (by decide)) fun p hp => ?_
      obtain ⟨t, ht, rfl⟩ := List.mem_map.1 hp
      exact (h t ht).showable_render
    have hall := hinner.parenthesize
    simpa [Item.render] using hall

/-- The tests of all items are free. -/
def Expression.Free (e : Expression) : Prop :=
  ∀ s ∈ e, ∀ i ∈ s, ∀ t ∈ i.tests, t.Free

theorem Expression.Free.showable_text {e : Expression} (h : e.Free) {q : Query} (hq : q.Writes e) :
    Showable q.text.toList := by
  rw [hq.text_eq, disjunction]
  refine Showable.intercalate_texts (showable_of_all (by decide)) fun p hp => ?_
  rw [Query.subqueriesOf, mem_firstSeen] at hp
  obtain ⟨s, hs, rfl⟩ := List.mem_map.1 hp
  refine Showable.intercalate_texts (showable_of_all (by decide)) fun p hp => ?_
  obtain ⟨i, hi, rfl⟩ := List.mem_map.1 hp
  exact Item.showable_render (h s hs i hi)

end Cql

/-! ## Requests -/

theorem isFree_of_isPatternChar {c : Char} (h : isPatternChar c = true) : isFree c = true :=
  isFree_of_class (by decide +kernel) h

theorem isFree_attr (attr : Attribute) : ∀ c ∈ attr.name.toList, isFree c = true :=
  List.all_eq_true.1 (by cases attr <;> decide)

theorem free_of_isTerm (attr : Attribute) {v : String} (h : IsTerm v) :
    Test.Free ⟨attr.name, v⟩ :=
  ⟨isFree_attr attr, fun c hc =>
    isFree_of_isPatternChar (isPatternChar_of_isTermChar (isTermChar_of_isTerm h c hc))⟩

theorem free_of_patterns (attr : Attribute) (t : Strategy) {word : String} (suffixed : Bool)
    (h : IsTerm word) :
    Test.Free ⟨attr.name, alternation (Pattern.patterns medieval t word suffixed)⟩ :=
  ⟨isFree_attr attr, forall_mem_alternation (by decide) fun _ hp c hc =>
    isFree_of_isPatternChar (isPatternChar_of_mem_patterns h hp c hc)⟩

namespace Query

/-- Two values beside each other are free, and so is the gap that excludes some of them. -/
theorem pairing_excluding_free {attr v w : String} {excluded : List String} {bound : Int}
    {both : Bool} (hv : Test.Free ⟨attr, v⟩) (hw : Test.Free ⟨attr, w⟩)
    (hexcluded : ∀ u ∈ excluded, u = v ∨ u = w) :
    Expression.Free
      (pairing ⟨attr, v⟩ ⟨attr, w⟩ (.excludingGap attr excluded bound) both) := by
  have hfirst : ∀ t ∈ (Item.token ⟨attr, v⟩).tests, t.Free := List.forall_mem_singleton.2 hv
  have hsecond : ∀ t ∈ (Item.token ⟨attr, w⟩).tests, t.Free := List.forall_mem_singleton.2 hw
  have hgap : ∀ t ∈ (Item.excludingGap attr excluded bound).tests, t.Free := by
    intro t ht
    obtain ⟨u, hu, rfl⟩ := List.mem_map.1 ht
    rcases hexcluded u hu with rfl | rfl
    · exact hv
    · exact hw
  intro s hs
  rcases mem_pairing.1 hs with rfl | ⟨-, rfl⟩
  · exact List.forall_mem_cons.2 ⟨hfirst, List.forall_mem_cons.2
      ⟨hgap, List.forall_mem_singleton.2 hsecond⟩⟩
  · exact List.forall_mem_cons.2 ⟨hsecond, List.forall_mem_cons.2
      ⟨hgap, List.forall_mem_singleton.2 hfirst⟩⟩

variable {limits : Distance.Limits} {ceilings : Limits} {q : Query}

theorem Proximity.showable {r : Proximity} (h : r.compile limits = .ok q) :
    Showable q.text.toList := by
  obtain ⟨h1, h2, attr, -, rfl⟩ := Proximity.compile_eq_ok_iff.1 h
  have hfree : (r.expression limits attr).Free :=
    pairing_excluding_free (free_of_isTerm attr (isTerm_clean h1))
      (free_of_isTerm attr (isTerm_clean h2)) fun _ hu => (Proximity.mem_excluded.1 hu).2
  exact hfree.showable_text (r.writes limits attr)

theorem Variation.showable {r : Variation}
    (h : r.compile (.ofOrthography medieval) limits ceilings = .ok (.ok q)) :
    Showable q.text.toList := by
  obtain ⟨attr, strategy, patterns1, patterns2, hr, rfl⟩ := Variation.compile_eq_ok_iff.1 h
  have hfree : (r.expression limits attr patterns1 patterns2).Free := by
    obtain rfl := Except.ok.inj hr.patterns1_eq
    obtain rfl := Except.ok.inj hr.patterns2_eq
    exact pairing_excluding_free (free_of_patterns attr strategy false (isTerm_clean hr.term1))
      (free_of_patterns attr strategy false (isTerm_clean hr.term2))
      fun _ hu => (mem_firstSeen_pair.1 hu).2
  exact hfree.showable_text (r.writes limits attr strategy _ _ patterns1 patterns2)

theorem Semantic.showable {r : Semantic} (h : r.compile limits ceilings = .ok q) :
    Showable q.text.toList := by
  obtain ⟨mode, attr, hr, rfl⟩ := Semantic.compile_eq_ok_iff.1 h
  have hcontexts : ∀ t ∈ (Term.contextTerms r.contexts).map (Test.mk attr.name), t.Free := by
    intro t ht
    obtain ⟨u, hu, rfl⟩ := List.mem_map.1 ht
    exact free_of_isTerm attr (isTerm_of_mem_contextTerms hu)
  have hfree : (r.expression limits mode attr).Free := by
    intro s hs i hi t ht
    have hs' :=
      (mem_sequencesOf ((nodup_contextTerms _).map fun _ _ hab => (Test.mk.inj hab).2)).1 hs
    cases hs'.isContextItem i hi with
    | gap => cases ht
    | group => exact hcontexts t ht
    | token hx =>
      obtain rfl := List.mem_singleton.1 ht
      rcases List.mem_cons.1 hx with rfl | hx
      · exact free_of_isTerm attr (isTerm_clean hr.central)
      · exact hcontexts _ hx
  exact hfree.showable_text (r.writes limits mode attr)

end Query

end Concordance
