import Concordance.Cql
import Mathlib.Data.List.Basic

/-!
# The grammar of query texts

What a text says, as relations between characters and the parts of a query:

* `IsTest` — `[attr="value"]`, where the value holds no double quote.
* `IsGap` — `[attr!="value" & attr!="value"]` or `[]`, followed by `{0,` and a decimal and `}`.
* `IsItem` — a test, a gap, or tests in parentheses with `|` between them.
* `IsSequence` — items with one space between them; `IsQuery` — sequences with ` | ` between them.

`Expression.Plain` lists what the parts of a query must fulfil for their text to say them, and
`isQuery_render` shows that it then does.
-/

namespace Concordance.Cql

/-! ## Texts and what they say -/

/-- Parts with a mark between them, at least one. -/
inductive Joined {α : Type} (mark : List Char) (part : List Char → α → Prop) :
    List Char → List α → Prop where
  | one {s : List Char} {x : α} (h : part s x) : Joined mark part s [x]
  | cons {s t : List Char} {x : α} {xs : List α} (h : part s x) (rest : Joined mark part t xs) :
    Joined mark part (s ++ (mark ++ t)) (x :: xs)

/-- A part between two fixed texts. -/
def Between {α : Type} (before after : List Char) (part : List Char → α → Prop) (s : List Char)
    (x : α) : Prop :=
  ∃ t, s = before ++ (t ++ after) ∧ part t x

/-- ASCII letters, at least one. -/
def IsName (cs : List Char) : Prop :=
  cs ≠ [] ∧ ∀ c ∈ cs, c.isAlpha = true

/-- An attribute, a comparison sign with an opening quote, a value without a quote, and a quote. -/
inductive IsComparison (sign : List Char) : List Char → Test → Prop where
  | intro {attr value : List Char} (hattr : IsName attr) (hvalue : '"' ∉ value) :
    IsComparison sign (attr ++ (sign ++ (value ++ ['"'])))
      ⟨String.ofList attr, String.ofList value⟩

/-- A test that a token has the value. -/
def IsTest : List Char → Test → Prop :=
  Between ['['] [']'] (IsComparison ['=', '"'])

/-- Any number of conditions that a token has not some value. -/
inductive IsClause : List Char → List Test → Prop where
  | none : IsClause [] []
  | some {s : List Char} {ts : List Test}
    (h : Joined [' ', '&', ' '] (IsComparison ['!', '=', '"']) s ts) : IsClause s ts

/-- Decimal digits, at least one, and their number. -/
inductive IsDecimal : List Char → Int → Prop where
  | intro {cs : List Char} (hne : cs ≠ []) (h : ∀ c ∈ cs, c.isDigit = true) :
    IsDecimal cs (Nat.ofDigitChars 10 cs 0)

/-- A run of tokens, its conditions, and its bound. -/
def IsGap (s : List Char) (g : List Test × Int) : Prop :=
  ∃ clause bound, s = '[' :: (clause ++ bound) ∧ IsClause clause g.1 ∧
    Between [']', '\x7b', '0', ','] ['\x7d'] IsDecimal bound g.2

/-- Tests in parentheses, of which one is enough. -/
def IsGroup : List Char → List Test → Prop :=
  Between ['('] [')'] (Joined ['|'] IsTest)

/-- One item of a sequence. -/
inductive IsItem : List Char → Item → Prop where
  | token {s : List Char} {t : Test} (h : IsTest s t) : IsItem s (.token t)
  | gap {s : List Char} {ts : List Test} {n : Int} (h : IsGap s (ts, n)) : IsItem s (.gap ts n)
  | group {s : List Char} {ts : List Test} (h : IsGroup s ts) : IsItem s (.group ts)

/-- Items with a space between them. -/
def IsSequence : List Char → Sequence → Prop :=
  Joined [' '] IsItem

/-- Sequences with a bar between them. -/
def IsQuery : List Char → Expression → Prop :=
  Joined [' ', '|', ' '] IsSequence

/-! ## Parts that can be written -/

/-- The attribute is a name and the value can stand between quotes. -/
structure Test.Plain (t : Test) : Prop where
  isName : IsName t.attr.toList
  noQuote : '"' ∉ t.value.toList

/-- The tests of an item can be written, and a gap has a natural bound. -/
def Item.Plain : Item → Prop
  | .token test => test.Plain
  | .gap excluded bound => (∀ t ∈ excluded, t.Plain) ∧ 0 ≤ bound
  | .group tests => tests ≠ [] ∧ ∀ t ∈ tests, t.Plain

@[simp]
theorem Item.plain_token {t : Test} : (Item.token t).Plain ↔ t.Plain := Iff.rfl

@[simp]
theorem Item.plain_group {ts : List Test} :
    (Item.group ts).Plain ↔ ts ≠ [] ∧ ∀ t ∈ ts, t.Plain := Iff.rfl

/-- There are items, and all can be written. -/
def Sequence.Plain (s : Sequence) : Prop :=
  s ≠ [] ∧ ∀ i ∈ s, i.Plain

/-- There are sequences, and all can be written. -/
def Expression.Plain (e : Expression) : Prop :=
  e ≠ [] ∧ ∀ s ∈ e, s.Plain

/-! ## The text of a part says that part -/

theorem joined_intercalate {α : Type} {mark : List Char} {part : List Char → α → Prop}
    {text : α → List Char} {xs : List α} (hne : xs ≠ []) (h : ∀ x ∈ xs, part (text x) x) :
    Joined mark part (mark.intercalate (xs.map text)) xs := by
  induction xs with
  | nil => exact absurd rfl hne
  | cons x rest ih =>
    have hx := h x (List.mem_cons_self ..)
    cases rest with
    | nil => simpa [List.intercalate_singleton] using Joined.one hx
    | cons y more =>
      have hrest := ih (List.cons_ne_nil _ _) fun z hz => h z (List.mem_cons_of_mem _ hz)
      simpa [List.intercalate_cons_cons] using Joined.cons hx hrest

theorem Joined.length_le {α : Type} {mark : List Char} {part : List Char → α → Prop}
    (hpart : ∀ s x, part s x → s ≠ []) {s : List Char} {xs : List α} (h : Joined mark part s xs) :
    xs.length ≤ s.length := by
  induction h with
  | one h =>
    have := List.length_pos_iff.2 (hpart _ _ h)
    simp only [List.length_singleton]
    omega
  | cons h rest ih =>
    have := List.length_pos_iff.2 (hpart _ _ h)
    simp only [List.length_cons, List.length_append]
    omega

theorem isComparison_of_plain (sign : List Char) {t : Test} (h : t.Plain) :
    IsComparison sign (t.attr.toList ++ (sign ++ (t.value.toList ++ ['"']))) t := by
  have hwritten : IsComparison sign _ _ := .intro h.isName h.noQuote
  simpa using hwritten

theorem Test.toList_render (t : Test) :
    t.render.toList =
      ['['] ++ ((t.attr.toList ++ (['=', '"'] ++ (t.value.toList ++ ['"']))) ++ [']']) := by
  simp [Test.render]

theorem Test.toList_renderNegated (t : Test) :
    t.renderNegated.toList = t.attr.toList ++ (['!', '=', '"'] ++ (t.value.toList ++ ['"'])) := by
  simp [Test.renderNegated]

theorem isTest_render {t : Test} (h : t.Plain) : IsTest t.render.toList t :=
  ⟨_, t.toList_render, isComparison_of_plain _ h⟩

theorem isClause_render {ts : List Test} (h : ∀ t ∈ ts, t.Plain) :
    IsClause (" & ".intercalate (ts.map Test.renderNegated)).toList ts := by
  cases ts with
  | nil => exact IsClause.none
  | cons t rest =>
    refine IsClause.some ?_
    rw [String.toList_intercalate, List.map_map]
    refine joined_intercalate (List.cons_ne_nil _ _) fun u hu => ?_
    rw [Function.comp_apply, Test.toList_renderNegated]
    exact isComparison_of_plain _ (h u hu)

theorem isDecimal_intText {n : Int} (h : 0 ≤ n) : IsDecimal (Decimal.intText n).toList n := by
  obtain ⟨m, rfl⟩ := Int.eq_ofNat_of_zero_le h
  have hdigits : ∀ c ∈ Nat.toDigits 10 m, c.isDigit = true :=
    fun c hc => Nat.isDigit_of_mem_toDigits (by decide) (by decide) hc
  have hvalue := IsDecimal.intro Nat.toDigits_ne_nil hdigits
  simpa [Decimal.intText, Decimal.intChars, Decimal.natChars] using hvalue

theorem isItem_render {i : Item} (h : i.Plain) : IsItem i.render.toList i := by
  cases i with
  | token t => exact .token (isTest_render h)
  | gap ts n =>
    refine .gap ⟨_, _, ?_, isClause_render h.1, _, rfl, isDecimal_intText h.2⟩
    simp [Item.render]
  | group ts =>
    refine .group ⟨_, ?_, joined_intercalate h.1 fun t ht => isTest_render (h.2 t ht)⟩
    simp [Item.render, String.toList_intercalate, List.map_map, Function.comp_def]

theorem isSequence_render {s : Sequence} (h : s.Plain) : IsSequence s.render.toList s := by
  rw [Sequence.render, sequence, String.toList_intercalate, List.map_map]
  exact joined_intercalate h.1 fun i hi => isItem_render (h.2 i hi)

/-- **The text of a query says that query.** -/
theorem isQuery_render {e : Expression} (h : e.Plain) : IsQuery e.render.toList e := by
  rw [Expression.render, disjunction, String.toList_intercalate, List.map_map]
  exact joined_intercalate h.1 fun s hs => isSequence_render (h.2 s hs)

end Concordance.Cql
